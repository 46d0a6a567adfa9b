import LedgerWire.Base58.Error

namespace LedgerWire

inductive CredentialError where
  | malformedSeed (reason : String)
  -- A checked text was written under another version byte than the one its use asks for.
  | wrongVersion (expected actual : UInt8)
  | keyLength (expected actual : Nat)
  | missingField (name : String)
  | invalidHex (text : String)
  | invalidSignature
  | codec (cause : Base58.Error)
  deriving DecidableEq, Repr

def CredentialError.message : CredentialError → String
  | .malformedSeed reason => s!"malformed seed: {reason}"
  | .wrongVersion expected actual =>
    s!"wrong version byte: expected 0x{Hex.lower [expected]}, got 0x{Hex.lower [actual]}"
  | .keyLength expected actual =>
    s!"invalid key length: expected {expected} bytes, got {actual}"
  | .missingField name => s!"command has no `{name}` object to sign"
  | .invalidHex text => s!"invalid hex in `{text}`"
  | .invalidSignature => "signature verification failed"
  | .codec cause => cause.message

end LedgerWire
