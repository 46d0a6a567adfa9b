import LedgerWire.Bytes.Hex
import LedgerWire.Text.Quoted

namespace LedgerWire.Base58

inductive Error where
  -- The character is no symbol of the alphabet. Positions count characters from zero.
  | invalidCharacter (character : Char) (position : Nat)
  | tooShort (length least : Nat)
  | checksumMismatch (expected actual : Bytes)
  deriving DecidableEq, Repr

def Error.message : Error → String
  | .invalidCharacter c position =>
    s!"invalid character {Text.quoted c} at position {position} in base58 string"
  | .tooShort length least =>
    s!"decoded length {length} is shorter than the minimum of {least} bytes"
  | .checksumMismatch expected actual =>
    s!"checksum mismatch: expected {Hex.lower expected}, got {Hex.lower actual}"

end LedgerWire.Base58
