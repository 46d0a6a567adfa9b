import LedgerWire.WebSocket.Frame

namespace LedgerWire.WebSocket

structure CloseReason where
  code : Nat
  text : String
  deriving DecidableEq, Repr

inductive Message where
  | text (text : String)
  | binary (bytes : Bytes)
  | ping (payload : Bytes)
  | pong (payload : Bytes)
  | close (reason : Option CloseReason)
  deriving DecidableEq, Repr

inductive Problem where
  | violation
  | tooLong (size : Nat)
  deriving DecidableEq, Repr

namespace CloseReason

def isAllowed (code : Nat) : Bool :=
  (1000 ≤ code ∧ code ≤ 1003) ∨ (1007 ≤ code ∧ code ≤ 1013) ∨ (3000 ≤ code ∧ code < 5000)

def protocolViolation : CloseReason :=
  ⟨1002, "Protocol violation"⟩

-- The reason to go by: what is not for use on the wire breaks the protocol.
def checked (reason : CloseReason) : CloseReason :=
  if isAllowed reason.code then reason else protocolViolation

def toPayload : Option CloseReason → Bytes
  | some reason => Bytes.ofNatBE 2 reason.code ++ Bytes.ofText reason.text
  | none        => []

def ofPayload : Bytes → Except Problem (Option CloseReason)
  | []           => .ok none
  | hi :: lo :: bs =>
    match Bytes.toText? bs with
    | some text => .ok (some ⟨Bytes.toNatBE [hi, lo], text⟩)
    | none      => .error .violation
  | _            => .error .violation

end CloseReason

def Message.frame : Message → Frame
  | text s       => .whole .text (Bytes.ofText s)
  | binary bs    => .whole .binary bs
  | ping bs      => .whole .ping bs
  | pong bs      => .whole .pong bs
  | close reason => .whole .close (CloseReason.toPayload reason)

-- Bytes that complete every text that breaks off inside a character.
def completions : List Bytes :=
  (List.range 4).flatMap fun n => [List.replicate n 0x80, List.replicate n 0xbf]

def startsText (bs : Bytes) : Bool :=
  completions.any fun rest => (Bytes.toText? (bs ++ rest)).isSome

-- The part of a message that has arrived.
structure Fragments where
  isText : Bool
  bytes : Bytes
  deriving DecidableEq, Repr

namespace Fragments

def extend (fragments : Fragments) (limit : Nat) (payload : Bytes) : Except Problem Fragments :=
  let bytes := fragments.bytes ++ payload
  if bytes.length > limit then .error (.tooLong bytes.length)
  else if fragments.isText && !startsText bytes then .error .violation
  else .ok { fragments with bytes }

def complete (fragments : Fragments) : Except Problem Message :=
  if fragments.isText then
    match Bytes.toText? fragments.bytes with
    | some text => .ok (.text text)
    | none      => .error .violation
  else .ok (.binary fragments.bytes)

end Fragments

end LedgerWire.WebSocket
