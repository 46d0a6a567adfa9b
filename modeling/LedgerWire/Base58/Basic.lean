import LedgerWire.Base58.Error
import LedgerWire.Bytes.Limbs

namespace LedgerWire.Base58

def base : UInt32 := 58

def alphabet : List Char :=
  "rpshnaf39wBUDNEGHJKLM4PQRST7VWXYZ2bcdeCg65jkm8oFqi1tuvAxyz".toList

def zeroSymbol : Char := 'r'

def symbol (digit : Nat) : Char :=
  alphabet.getD digit zeroSymbol

def digit? (c : Char) : Option Nat :=
  alphabet.idxOf? c

def digits (n : Limbs) : List Nat :=
  if n.isZero then []
  else (n.divMod base).2.toNat :: digits (n.divMod base).1
termination_by n.value
decreasing_by
  have := Limbs.value_pos (by simpa using ‹¬n.isZero = true›)
  rw [Limbs.value_divMod_fst n (by decide)]
  exact Nat.div_lt_self this (by decide)

def leadingZeros (bs : Bytes) : Bytes :=
  bs.takeWhile (· == 0)

def encodeChars (bs : Bytes) : List Char :=
  (leadingZeros bs).map (fun _ => zeroSymbol) ++ ((digits (.ofBytes bs)).map symbol).reverse

def encode (bs : Bytes) : String :=
  String.ofList (encodeChars bs)

-- The number that the symbols spell after those already read into `n`. The position is that of the
-- first character, so an error names where in the whole text it is.
def read (n : Limbs) (position : Nat) : List Char → Except Error Limbs
  | []      => .ok n
  | c :: cs =>
    match digit? c with
    | some d => read (n.mulAdd base (.ofNat d)) (position + 1) cs
    | none   => .error (.invalidCharacter c position)

def decodeChars (cs : List Char) : Except Error Bytes := do
  let n ← read .zero 0 cs
  return (cs.takeWhile (· == zeroSymbol)).map (fun _ => 0) ++ n.toBytes

def decode (text : String) : Except Error Bytes :=
  decodeChars text.toList

end LedgerWire.Base58
