import LedgerWire.Link.Connection
import LedgerWire.Link.Duplex

namespace LedgerWire

-- The errors that the wire has in store, used in order, one for each send, receive and close.
structure Faults where
  sends : List LinkError
  receives : List LinkError
  closes : List LinkError
  deriving DecidableEq, Repr

structure Link where
  connection : Connection
  duplex : Duplex
  faults : Faults
  writing : Bool
  reading : Bool
  -- Milliseconds since the start.
  clock : Nat
  tickets : Nat

namespace Link

def start (config : LinkConfig) : Link where
  connection := .start config
  duplex := .start
  faults := ⟨[], [], []⟩
  writing := true
  reading := true
  clock := 0
  tickets := 0

def send (link : Link) (text : String) : Except LinkError Unit × Link :=
  match link.faults.sends with
  | error :: sends => (.error error, { link with faults := { link.faults with sends } })
  | [] =>
    match link.duplex.send? .near text with
    | some duplex => (.ok (), { link with duplex })
    | none        => (.error .closed, link)

def closeWire (link : Link) : Except LinkError Unit × Link :=
  match link.faults.closes with
  | error :: closes => (.error error, { link with faults := { link.faults with closes } })
  | []              => (.ok (), { link with duplex := link.duplex.close .near })

-- Fails the request whose frame was not written. That the wire is closed ends the connection too,
-- and the loop that writes.
def writeFailed (link : Link) (id : Nat) (error : LinkError) : Link :=
  let connection := link.connection.failRequest id error
  if error = .closed then { link with connection := connection.shutDown, writing := false }
  else { link with connection }

def writeOne (link : Link) (item : Outbound) : Link :=
  if link.writing then
    match item with
    | .frame id text =>
      match link.send text with
      | (.ok (), link)       => link
      | (.error error, link) => link.writeFailed id error
    -- A close that fails is not tried again.
    | .close => { link.closeWire.2 with writing := false }
  else link

-- Writes what is queued. Behind the item at which the loop ends nothing is written.
def write (link : Link) : Link :=
  link.connection.outbound.foldl writeOne
    { link with connection := { link.connection with outbound := [] } }

def receive (link : Link) : List (Except LinkError String) × Link :=
  let (texts, duplex) := link.duplex.drain .near
  (link.faults.receives.map .error ++ texts.map .ok,
    { link with duplex, faults := { link.faults with receives := [] } })

-- Takes in what there is to receive. The end of the stream ends the connection.
def read (link : Link) : Link :=
  if link.reading then
    let (received, link) := link.receive
    let connection := received.foldl Connection.receive link.connection
    if link.duplex.ended .near then
      { link with connection := connection.shutDown, reading := false }
    else { link with connection }
  else link

def release (link : Link) : Link :=
  if link.writing || link.reading then link
  else { link with duplex := link.duplex.drop .near }

-- Works until nothing more can happen on this side of the wire.
def settle (link : Link) : Link :=
  link.write.read.release

def call (link : Link) (request : Request) : Link :=
  { link with
    connection := link.connection.call link.tickets link.clock request
    tickets := link.tickets + 1 }

def callTimes (link : Link) (request : Request) : (times : Nat) → Link
  | 0         => link
  | times + 1 => (link.call request).callTimes request times

inductive Action where
  | issue (command : Fields) (times : Nat)
  | issueWithin (command : Fields) (limit : Duration)
  | subscribe (names : List String)
  | unsubscribe (names : List String)
  | cancel (ticket : Nat)
  | advance (ms : Nat)
  | take (kind : Stream.Kind)
  | read (kind : Stream.Kind) (most : Nat)
  | dropConsumer (kind : Stream.Kind)
  | close

inductive Answer where
  | nothing
  | flag (done : Bool)
  | sent
  | failed (error : LinkError)
  | noPeer
  | readings (readings : List Stream.Reading)
  | noConsumer

def limit (link : Link) : Option Duration :=
  link.connection.config.timeout

def advance (link : Link) (ms : Nat) : Link :=
  let clock := link.clock + ms
  { link with clock, connection := link.connection.expire clock }

def act (link : Link) : Action → Answer × Link
  | .issue command times => (.nothing, link.callTimes ⟨command, link.limit, .command⟩ times)
  | .issueWithin command limit => (.nothing, link.call ⟨command, some limit, .command⟩)
  | .subscribe names => (.nothing, link.call (.subscribe names link.limit))
  | .unsubscribe names => (.nothing, link.call (.unsubscribe names link.limit))
  | .cancel ticket =>
    let (done, connection) := link.connection.cancel ticket
    (.flag done, { link with connection })
  | .advance ms => (.nothing, link.advance ms)
  | .take kind =>
    let (taken, connection) := link.connection.take kind
    (.flag taken, { link with connection })
  | .read kind most =>
    if (link.connection.hub.channel kind).isLive then
      let (readings, connection) := link.connection.read kind most
      (.readings readings, { link with connection })
    else (.noConsumer, link)
  | .dropConsumer kind =>
    let (dropped, connection) := link.connection.dropConsumer kind
    (.flag dropped, { link with connection })
  | .close => (.nothing, { link with connection := link.connection.close })

inductive Event where
  | act (action : Action)
  | peerSend (text : String)
  | peerClose
  | peerDrop
  | failSend (error : LinkError)
  | failReceive (error : LinkError)
  | failClose (error : LinkError)

def hasPeer (link : Link) : Bool :=
  (link.duplex.get .far).standing ≠ .dropped

def onEvent (link : Link) : Event → Answer × Link
  | .act action => link.act action
  | .peerSend text =>
    if link.hasPeer then
      match link.duplex.send? .far text with
      | some duplex => (.sent, { link with duplex })
      | none        => (.failed .closed, link)
    else (.noPeer, link)
  | .peerClose =>
    if link.hasPeer then (.flag true, { link with duplex := link.duplex.close .far })
    else (.noPeer, link)
  | .peerDrop => (.flag link.hasPeer, { link with duplex := link.duplex.drop .far })
  | .failSend error =>
    (.nothing, { link with faults := { link.faults with sends := link.faults.sends ++ [error] } })
  | .failReceive error =>
    (.nothing,
      { link with faults := { link.faults with receives := link.faults.receives ++ [error] } })
  | .failClose error =>
    (.nothing, { link with faults := { link.faults with closes := link.faults.closes ++ [error] } })

structure Item where
  answer : Answer
  finished : List (Nat × Outcome LinkError)
  wire : List String
  -- Whether the far end sees that nothing more will come.
  ended : Bool

def harvest (link : Link) : List (Nat × Outcome LinkError) × Link :=
  (link.connection.finished.mergeSort (·.1 ≤ ·.1),
    { link with connection := { link.connection with finished := [] } })

def collect (link : Link) : List String × Bool × Link :=
  let (texts, duplex) := link.duplex.drain .far
  (texts, link.hasPeer && duplex.ended .far, { link with duplex })

def work (link : Link) (answer : Answer) : Item × Link :=
  let (finished, link) := link.settle.harvest
  let (wire, ended, link) := link.collect
  (⟨answer, finished, wire, ended⟩, link)

def step (link : Link) (event : Event) : Item × Link :=
  let (answer, link) := link.onEvent event
  link.work answer

-- Lets the events happen before the loops get their turn.
def burst (link : Link) : List Event → Link
  | []              => link
  | event :: events => (link.onEvent event).2.burst events

-- A step in which a burst of events happens: what reaches the far end, whether the far end sees that
-- nothing more will come, and the link after it.
def turn (link : Link) (events : List Event) : List String × Bool × Link :=
  let (item, link) := (link.burst events).work .nothing
  (item.wire, item.ended, link)

def turns (link : Link) : List (List Event) → Link
  | []               => link
  | events :: bursts => (link.turn events).2.2.turns bursts

def run (link : Link) : List Event → List Item × Link
  | [] => ([], link)
  | event :: events =>
    let (item, link) := link.step event
    let (items, link) := link.run events
    (item :: items, link)

end Link

end LedgerWire
