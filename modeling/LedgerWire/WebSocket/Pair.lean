import LedgerWire.WebSocket.Arrival
import LedgerWire.WebSocket.Endpoint

namespace LedgerWire.WebSocket

structure Pair where
  client : Endpoint
  server : Endpoint
  hasServer : Bool

namespace Pair

def start (limit : Nat) : Pair where
  client := .start .client limit
  server := .start .server Endpoint.defaultLimit
  hasServer := true

def get (p : Pair) : Role → Endpoint
  | .client => p.client
  | .server => p.server

def set (p : Pair) (role : Role) (e : Endpoint) : Pair :=
  match role with
  | .client => { p with client := e }
  | .server => { p with server := e }

def isAlone (p : Pair) (role : Role) : Bool :=
  role = .client && !p.hasServer

-- The key of all frames of a client. Whatever it is, the server takes it off.
def key : Key :=
  ⟨[0x37, 0xfa, 0x21, 0x3d], rfl⟩

def outgoing (role : Role) (frame : Frame) : Frame :=
  match role with
  | .client => { frame with key := some key }
  | .server => frame

def writeBytes (p : Pair) (role : Role) (bs : Bytes) : Pair :=
  let peer := p.get role.other
  p.set role.other { peer with unread := peer.unread ++ bs }

-- Writes frames, and after them what is queued. Says whether they could be written.
def write (p : Pair) (role : Role) (frames : List Frame) : Bool × Pair :=
  let e := p.get role
  let frames := frames ++ e.queued.toList
  let p := p.set role { e with queued := none }
  if frames.isEmpty then (true, p)
  else if p.isAlone role then (false, p)
  else (true, p.writeBytes role (frames.flatMap fun frame => (outgoing role frame).encode))

def sendingAfterClosing : LinkError :=
  .transport "WebSocket protocol error: Sending after closing is not allowed"

def send (p : Pair) (role : Role) (message : Message) : Except LinkError Unit × Pair :=
  match (p.get role).phase with
  | .terminated => (.error .closed, p)
  | .active =>
    match p.write role [message.frame] with
    | (true, p)  => (.ok (), p)
    | (false, p) => (.error .closed, p)
  | _ => (.error sendingAfterClosing, p)

def close (p : Pair) (role : Role) (reason : Option CloseReason) : Pair :=
  let e := p.get role
  if e.phase = .active then
    ((p.set role { e with phase := .closedByUs }).write role [(Message.close reason).frame]).2
  else p

-- Closes an endpoint for good: begins the handshake, and writes what is queued in any case.
def shut (p : Pair) (role : Role) : Pair :=
  ((p.close role none).write role []).2

inductive Turn where
  | item (item : Item)
  -- A frame that completes no message.
  | absorbed
  | pending

def finish (p : Pair) (role : Role) (item : Item) : Turn × Pair :=
  (.item item, p.set role { p.get role with ended := true })

def terminate (p : Pair) (role : Role) (item : Item) : Turn × Pair :=
  (p.set role { p.get role with phase := .terminated }).finish role item

def readFrame (p : Pair) (role : Role) : Turn × Pair :=
  let e := p.get role
  match Frame.decode e.unread with
  | .incomplete =>
    if p.isAlone role then p.terminate role (if e.phase.canRead then .failed else .finished)
    else (.pending, p)
  | .badOpcode    => p.finish role .failed
  | .tooLong size => p.finish role (.tooLong size Frame.maxSize)
  | .frame frame rest =>
    let e := { e with unread := rest }
    match e.accept frame with
    | .error .violation      => (p.set role e).finish role .failed
    | .error (.tooLong size) => (p.set role e).finish role (.tooLong size e.limit)
    | .ok (none, e)          => (.absorbed, p.set role e)
    | .ok (some message, e)  => (.item (.message message), p.set role e)

-- Writes what is queued, then reads one frame. The server is the first to give the wire up once the
-- handshake is through.
def turn (p : Pair) (role : Role) : Turn × Pair :=
  if (p.get role).ended then (.item .finished, p)
  else match p.write role [] with
    | (false, p) => p.finish role .failed
    | (true, p)  =>
      if role = .server ∧ !(p.get role).phase.canRead then p.terminate role .finished
      else p.readFrame role

-- Reads until there is an arrival, if there is one. Every turn that gives none reads a frame.
def receiveWithin (p : Pair) (role : Role) : (turns : Nat) → Option Arrival × Pair
  | 0         => (none, p)
  | turns + 1 =>
    match p.turn role with
    | (.pending, p)   => (none, p)
    | (.absorbed, p)  => p.receiveWithin role turns
    | (.item item, p) =>
      match item.arrival? with
      | some arrival => (some arrival, p)
      | none         => p.receiveWithin role turns

def receive (p : Pair) : Option Arrival × Pair :=
  p.receiveWithin .client (p.client.unread.length + 1)

def nextWithin (p : Pair) (role : Role) : (turns : Nat) → Option Item × Pair
  | 0         => (none, p)
  | turns + 1 =>
    match p.turn role with
    | (.pending, p)   => (none, p)
    | (.absorbed, p)  => p.nextWithin role turns
    | (.item item, p) => (some item, p)

def serverNext (p : Pair) : Option Item × Pair :=
  p.nextWithin .server (p.server.unread.length + 1)

inductive Event where
  | clientSend (text : String)
  | clientReceive
  | clientClose
  | serverSend (message : Message)
  | serverClose (reason : Option CloseReason)
  -- The server writes bytes that need not be frames.
  | serverWrite (bytes : Bytes)
  | serverReceive
  | serverDrop

inductive Answer where
  | sent
  | failed (error : LinkError)
  | arrival (arrival : Option Arrival)
  | item (item : Option Item)
  | closed
  | flag (done : Bool)
  | noServer

def onServer (p : Pair) (act : Pair → Answer × Pair) : Answer × Pair :=
  if p.hasServer then act p else (.noServer, p)

def step (p : Pair) : Event → Answer × Pair
  | .clientSend text =>
    match p.send .client (.text text) with
    | (.ok (), p)       => (.sent, p)
    | (.error error, p) => (.failed error, p)
  | .clientReceive =>
    let (arrival, p) := p.receive
    (.arrival arrival, p)
  | .clientClose        => (.closed, p.shut .client)
  | .serverSend message => p.onServer fun p => (.sent, (p.send .server message).2)
  | .serverClose reason => p.onServer fun p => (.sent, p.close .server reason)
  | .serverWrite bytes  => p.onServer fun p => (.flag true, p.writeBytes .server bytes)
  | .serverReceive => p.onServer fun p =>
    let (item, p) := p.serverNext
    (.item item, p)
  | .serverDrop => (.flag p.hasServer, { p with hasServer := false })

def run (p : Pair) : List Event → List Answer × Pair
  | [] => ([], p)
  | event :: events =>
    let (answer, p) := p.step event
    let (answers, p) := p.run events
    (answer :: answers, p)

end Pair

end LedgerWire.WebSocket
