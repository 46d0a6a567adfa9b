import LedgerWire.Account.Key
import LedgerWire.Base58.Checked

namespace LedgerWire

structure Seed where
  entropy : Bytes
  deriving DecidableEq

namespace Seed

def version : UInt8 := 0x21

def firstLetter : Char := 's'

def entropyLength : Nat := 16

def ofEntropy (entropy : Bytes.Sized entropyLength) : Seed :=
  ⟨entropy.val⟩

-- The letter is looked at before anything is decoded, and the version only after the checksum.
def parse (text : String) : Except CredentialError Seed :=
  if text.toList.head? ≠ some firstLetter then
    .error (.malformedSeed s!"family seed must start with '{firstLetter}'")
  else match Base58.decodeCheck text with
    | .error cause => .error (.codec cause)
    | .ok (found, entropy) =>
      if found ≠ version then .error (.wrongVersion version found) else .ok ⟨entropy⟩

def encode (seed : Seed) : String :=
  Base58.encodeCheck version seed.entropy

def keypair (seed : Seed) : Keypair :=
  ⟨(Digest.sha512 seed.entropy).initial 32⟩

-- The entropy is never shown.
def shown (_ : Seed) : String :=
  "Seed(..)"

end Seed

namespace Keypair

def ofSeedText (text : String) : Except CredentialError Keypair :=
  (Seed.parse text).map Seed.keypair

end Keypair

end LedgerWire
