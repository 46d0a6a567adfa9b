import LedgerWire.Client.Error
import LedgerWire.Ledger.Server
import LedgerWire.Link.Basic

namespace LedgerWire

structure Session where
  link : Link
  ledger : Ledger
  serving : Bool
  -- The requests that could not be signed, by ticket.
  refused : List (Nat × CredentialError)

namespace Session

def start (config : LinkConfig) : Session where
  link := .start config
  ledger := .start
  serving := true
  refused := []

-- Answers a text that has reached the server. One that holds no request is ignored. The server
-- stops once an answer cannot be sent.
def serveOne (session : Session) (text : String) : Session :=
  if session.serving then
    match Frame.ofText? text with
    | none         => session
    | some request =>
      match session.ledger.receive request with
      | (none, ledger)       => { session with ledger }
      | (some reply, ledger) =>
        match session.link.duplex.send? .far reply.text with
        | some duplex => { session with ledger, link := { session.link with duplex } }
        | none        => { session with ledger, serving := false }
  else session

def serve (session : Session) : Session :=
  if session.serving then
    let (texts, duplex) := session.link.duplex.drain .far
    let session := texts.foldl serveOne { session with link := { session.link with duplex } }
    { session with serving := session.serving && !session.link.duplex.ended .far }
  else session

def pushRaw (session : Session) (frame : Json) : Bool × Session :=
  match session.link.duplex.send? .far frame.text with
  | some duplex => (true, { session with link := { session.link with duplex } })
  | none        => (false, session)

def push (session : Session) (kind : Stream.Kind) (body : Json) : Bool × Session :=
  if session.ledger.isSubscribed kind then
    session.pushRaw (.object (Ledger.pushFrame kind body))
  else (false, session)

def disconnect (session : Session) : Session :=
  { session with link := { session.link with duplex := session.link.duplex.close .far } }

def signed (command : Fields) (seed : String) : Except CredentialError Fields := do
  Transaction.signCommand command (← Keypair.ofSeedText seed)

def submission (tx : Json) : Fields := [
  (Frame.commandField, .string "submit"),
  (Transaction.commandField, tx)
]

-- Signs a command and starts it. If it cannot be signed, only its ticket is used up.
def signAndSend (session : Session) (command : Fields) (seed : String) : Session :=
  match signed command seed with
  | .ok command =>
    { session with link := session.link.call ⟨command, session.link.limit, .command⟩ }
  | .error cause =>
    { session with
      link := { session.link with tickets := session.link.tickets + 1 }
      refused := session.refused ++ [(session.link.tickets, cause)] }

inductive Event where
  | act (action : Link.Action)
  | signAndSend (command : Fields) (seed : String)
  | signAndSubmit (tx : Json) (seed : String)
  | push (kind : Stream.Kind) (body : Json)
  | pushRaw (frame : Json)
  | setResult (command : String) (result : Json)
  | setSilent (silent : Bool)
  | disconnect

def onEvent (session : Session) : Event → Link.Answer × Session
  | .act action =>
    let (answer, link) := session.link.act action
    (answer, { session with link })
  | .signAndSend command seed => (.nothing, session.signAndSend command seed)
  | .signAndSubmit tx seed    => (.nothing, session.signAndSend (submission tx) seed)
  | .push kind body =>
    let (sent, session) := session.push kind body
    (.flag sent, session)
  | .pushRaw frame =>
    let (sent, session) := session.pushRaw frame
    (.flag sent, session)
  | .setResult command result =>
    (.nothing, { session with ledger := session.ledger.setResult command result })
  | .setSilent silent => (.nothing, { session with ledger := session.ledger.setSilent silent })
  | .disconnect       => (.nothing, session.disconnect)

-- Works until nothing more can happen. A reply starts nothing new, so the server has to be waited
-- for only once.
def settle (session : Session) : Session :=
  let session := { session with link := session.link.settle }
  let session := session.serve
  { session with link := session.link.settle }

structure Item where
  answer : Link.Answer
  finished : List (Nat × Outcome ClientError)
  received : List Fields

def harvest (session : Session) : List (Nat × Outcome ClientError) × Session :=
  let (finished, link) := session.link.harvest
  let ended := finished.map fun (ticket, outcome) => (ticket, outcome.mapError .link)
  let refused := session.refused.map fun (ticket, cause) => (ticket, .failed (.credential cause))
  ((ended ++ refused).mergeSort (·.1 ≤ ·.1), { session with link, refused := [] })

-- What the server had received before is not shown again.
def work (session : Session) (before : Nat) (answer : Link.Answer) : Item × Session :=
  let (finished, session) := session.settle.harvest
  (⟨answer, finished, session.ledger.received.drop before⟩, session)

def step (session : Session) (event : Event) : Item × Session :=
  let before := session.ledger.received.length
  let (answer, session) := session.onEvent event
  session.work before answer

-- The session in which these commands are issued before anything else gets its turn.
def issuing (session : Session) : List Fields → Session
  | []                  => session
  | command :: commands => (session.onEvent (.act (.issue command 1))).2.issuing commands

def burst (session : Session) (commands : List Fields) : Item × Session :=
  (session.issuing commands).work session.ledger.received.length .nothing

def run (session : Session) : List Event → List Item × Session
  | [] => ([], session)
  | event :: events =>
    let (item, session) := session.step event
    let (items, session) := session.run events
    (item :: items, session)

def shown (session : Session) : String :=
  s!"Client \x7b conn: {session.link.connection.shown} \x7d"

end Session

end LedgerWire
