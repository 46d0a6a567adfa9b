import LedgerWire.Link.Frame
import LedgerWire.Stream.Names

namespace LedgerWire

inductive Purpose where
  | command
  | subscribe (names : List String)
  | unsubscribe (names : List String)
  deriving DecidableEq, Repr

inductive Outcome (ε : Type) where
  | replied (reply : Fields)
  | failed (error : ε)
  | cancelled
  deriving Repr

def Outcome.mapError {ε ε' : Type} (f : ε → ε') : Outcome ε → Outcome ε'
  | replied reply => .replied reply
  | failed error  => .failed (f error)
  | cancelled     => .cancelled

structure Request where
  command : Fields
  limit : Option Duration
  purpose : Purpose

namespace Request

def streamCommand (command : String) (names : List String) : Fields := [
  (Frame.commandField, .string command),
  (Frame.streamsField, .array (names.map .string))
]

def subscribe (names : List String) (limit : Option Duration) : Request :=
  ⟨streamCommand "subscribe" names, limit, .subscribe names⟩

def unsubscribe (names : List String) (limit : Option Duration) : Request :=
  ⟨streamCommand "unsubscribe" names, limit, .unsubscribe names⟩

end Request

structure Call where
  ticket : Nat
  id : Nat
  purpose : Purpose
  limit : Option Duration
  -- The time of the call, in milliseconds.
  start : Nat
  deriving DecidableEq, Repr

namespace Call

-- The limit of a call whose time is up. A limit of zero is up at once.
def overdue? (call : Call) (now : Nat) : Option Duration :=
  call.limit.filter fun limit => call.start + limit.ticks ≤ now

end Call

-- The outcome of a reply, and the active streams after it.
def Purpose.conclude (purpose : Purpose) (active : Stream.Names) (reply : Fields) :
    Outcome LinkError × Stream.Names :=
  match purpose with
  | command => (.replied reply, active)
  | subscribe names =>
    match Frame.refusal? reply with
    | some error => (.failed error, active)
    | none       => (.replied reply, active.insertAll names)
  | unsubscribe names =>
    match Frame.refusal? reply with
    | some error => (.failed error, active)
    | none       => (.replied reply, active.eraseAll names)

end LedgerWire
