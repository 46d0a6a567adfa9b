import LedgerWire.Base58.Basic
import LedgerWire.Digest.Sha256

namespace LedgerWire.Base58

def checksumLength : Nat := 4

-- A version byte and a checksum, around an empty payload.
def leastChecked : Nat := 1 + checksumLength

def checksum (bs : Bytes) : Bytes.Sized checksumLength :=
  (Digest.sha256Twice bs).initial checksumLength

def frame (version : UInt8) (payload : Bytes) : Bytes :=
  version :: payload ++ (checksum (version :: payload)).val

def encodeCheck (version : UInt8) (payload : Bytes) : String :=
  encode (frame version payload)

def unframe (bs : Bytes) : Except Error (UInt8 × Bytes) :=
  let body := bs.take (bs.length - checksumLength)
  let trailer := bs.drop (bs.length - checksumLength)
  if bs.length < leastChecked then
    .error (.tooShort bs.length leastChecked)
  else if (checksum body).val ≠ trailer then
    .error (.checksumMismatch (checksum body).val trailer)
  else match body with
    | version :: payload => .ok (version, payload)
    | []                 => .error (.tooShort bs.length leastChecked)

def decodeCheck (text : String) : Except Error (UInt8 × Bytes) := do
  unframe (← decode text)

end LedgerWire.Base58
