import LedgerWire.WebSocket.Message

namespace LedgerWire.WebSocket

inductive Role where
  | client
  | server
  deriving DecidableEq, Repr

def Role.other : Role → Role
  | client => server
  | server => client

inductive Phase where
  | active
  | closedByUs
  | closedByPeer
  -- Both sides have closed, this one first.
  | acknowledged
  -- The wire below is gone, or given up.
  | terminated
  deriving DecidableEq, Repr

def Phase.canRead : Phase → Bool
  | active | closedByUs => true
  | _                   => false

structure Endpoint where
  role : Role
  limit : Nat
  phase : Phase
  unread : Bytes
  fragments : Option Fragments
  queued : Option Frame
  ended : Bool
  deriving DecidableEq, Repr

namespace Endpoint

def defaultLimit : Nat := 64 * 2 ^ 20

def start (role : Role) (limit : Nat) : Endpoint where
  role := role
  limit := limit
  phase := .active
  unread := []
  fragments := none
  queued := none
  ended := false

-- Queues an answer. A close is not displaced, and of two pongs the later goes out.
def queue (e : Endpoint) (frame : Frame) : Endpoint :=
  match e.queued with
  | none          => { e with queued := some frame }
  | some waiting => if waiting.opcode = .pong then { e with queued := some frame } else e

def acceptClose (e : Endpoint) (reason : Option CloseReason) : Option Message × Endpoint :=
  match e.phase with
  | .active =>
    let reason := reason.map CloseReason.checked
    (some (.close reason), { e with phase := .closedByPeer }.queue (Message.close reason).frame)
  | .closedByUs => (some (.close reason), { e with phase := .acknowledged })
  | _ => (none, e)

-- Takes in a control frame, which is short and whole.
def acceptControl (e : Endpoint) (frame : Frame) : Except Problem (Option Message × Endpoint) :=
  if !frame.final || frame.payload.length > 125 then .error .violation
  else match frame.opcode with
    | .ping =>
      let e := if e.phase = .active then e.queue (Message.pong frame.payload).frame else e
      .ok (some (.ping frame.payload), e)
    | .pong => .ok (some (.pong frame.payload), e)
    | _     => do return e.acceptClose (← CloseReason.ofPayload frame.payload)

def acceptData (e : Endpoint) (frame : Frame) : Except Problem (Option Message × Endpoint) := do
  let begun ← match e.fragments, frame.opcode with
    | some begun, .continuation => pure begun
    | none, .text               => pure ⟨true, []⟩
    | none, .binary             => pure ⟨false, []⟩
    | _, _                      => .error .violation
  let fragments ← begun.extend e.limit frame.payload
  if frame.final then
    let message ← fragments.complete
    return (some message, { e with fragments := none })
  else
    return (none, { e with fragments := some fragments })

-- Takes in a frame. Frames are masked exactly if a client has sent them.
def accept (e : Endpoint) (frame : Frame) : Except Problem (Option Message × Endpoint) :=
  if !e.phase.canRead || frame.reserved || frame.key.isSome ≠ (e.role = .server) then
    .error .violation
  else if frame.opcode.isControl then e.acceptControl frame
  else e.acceptData frame

end Endpoint

end LedgerWire.WebSocket
