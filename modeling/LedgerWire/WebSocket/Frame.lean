import LedgerWire.Bytes.Basic

namespace LedgerWire.WebSocket

inductive Opcode where
  | continuation
  | text
  | binary
  | close
  | ping
  | pong
  deriving DecidableEq, Repr

namespace Opcode

def nibble : Opcode → Nat
  | continuation => 0x0
  | text         => 0x1
  | binary       => 0x2
  | close        => 0x8
  | ping         => 0x9
  | pong         => 0xa

-- All other opcodes are reserved.
def ofNibble? (n : Nat) : Option Opcode :=
  [continuation, text, binary, close, ping, pong].find? (·.nibble = n)

def isControl : Opcode → Bool
  | close | ping | pong => true
  | _                   => false

end Opcode

abbrev Key := Bytes.Sized 4

structure Frame where
  final : Bool
  -- Whether one of the bits is set that no extension has given a meaning.
  reserved : Bool
  opcode : Opcode
  key : Option Key
  payload : Bytes
  deriving DecidableEq, Repr

namespace Frame

def mask (key : Key) (payload : Bytes) : Bytes :=
  payload.mapIdx fun i b => b ^^^ key.val.getD (i % 4) 0

-- An unmasked frame that is a message of its own.
def whole (opcode : Opcode) (payload : Bytes) : Frame :=
  { final := true, reserved := false, opcode, key := none, payload }

def sizeBytes (size : Nat) : Nat × Bytes :=
  if size < 126 then (size, [])
  else if size < 2 ^ 16 then (126, Bytes.ofNatBE 2 size)
  else (127, Bytes.ofNatBE 8 size)

def encode (frame : Frame) : Bytes :=
  let (short, long) := sizeBytes frame.payload.length
  let first := (if frame.final then 0x80 else 0) + (if frame.reserved then 0x40 else 0)
    + frame.opcode.nibble
  let head := UInt8.ofNat first
  match frame.key with
  | some key => head :: .ofNat (0x80 + short) :: long ++ key.val ++ mask key frame.payload
  | none     => head :: .ofNat short :: long ++ frame.payload

inductive Decoded where
  | incomplete
  -- The header is complete, and no frame can have it.
  | badOpcode
  | tooLong (size : Nat)
  | frame (frame : Frame) (rest : Bytes)
  deriving DecidableEq, Repr

def maxSize : Nat := 16 * 2 ^ 20

def size? (short : Nat) (bs : Bytes) : Option (Nat × Bytes) :=
  let count := if short < 126 then 0 else if short = 126 then 2 else 8
  if bs.length < count then none
  else some (if short < 126 then short else Bytes.toNatBE (bs.take count), bs.drop count)

def key? (masked : Bool) (bs : Bytes) : Option (Option Key × Bytes) :=
  if masked then (Bytes.Sized.ofBytes? 4 (bs.take 4)).map fun key => (some key, bs.drop 4)
  else some (none, bs)

def decodePayload (final reserved : Bool) (opcode : Opcode) (key : Option Key) (size : Nat)
    (bs : Bytes) : Decoded :=
  if size > maxSize then .tooLong size
  else if bs.length < size then .incomplete
  else
    let payload := match key with
      | some key => mask key (bs.take size)
      | none     => bs.take size
    .frame ⟨final, reserved, opcode, key, payload⟩ (bs.drop size)

-- The first frame of the bytes. The opcode is looked at when the header is complete, and the length
-- right after it.
def decode : Bytes → Decoded
  | first :: second :: bs =>
    match size? (second.toNat % 0x80) bs with
    | none            => .incomplete
    | some (size, bs) =>
      match key? (second.toNat ≥ 0x80) bs with
      | none           => .incomplete
      | some (key, bs) =>
        match Opcode.ofNibble? (first.toNat % 0x10) with
        | none        => .badOpcode
        | some opcode =>
          decodePayload (first.toNat ≥ 0x80) (first.toNat / 0x10 % 8 ≠ 0) opcode key size bs
  | _ => .incomplete

end Frame

end LedgerWire.WebSocket
