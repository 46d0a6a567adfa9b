import LedgerWire.Account.Error
import LedgerWire.Curve.Ed25519

namespace LedgerWire

open Bytes (Sized)

structure PublicKey where
  bytes : Sized 32
  deriving DecidableEq

structure Signature where
  bytes : Sized 64
  deriving DecidableEq

structure Keypair where
  secret : Sized 32
  deriving DecidableEq

def abbreviate (hex : String) : String :=
  String.ofList (hex.toList.take 16)

namespace PublicKey

def ofBytes (bs : Bytes) : Except CredentialError PublicKey :=
  match Sized.ofBytes? 32 bs with
  | some bs => .ok ⟨bs⟩
  | none    => .error (.keyLength 32 bs.length)

def hex (key : PublicKey) : String :=
  Hex.lower key.bytes.val

def ofHex (text : String) : Except CredentialError PublicKey :=
  match Hex.decode? text with
  | some bs => ofBytes bs
  | none    => .error (.invalidHex text)

def verify (key : PublicKey) (message : Bytes) (signature : Signature) :
    Except CredentialError Unit :=
  if Curve.Ed25519.verify key.bytes message signature.bytes then .ok ()
  else .error .invalidSignature

def shown (key : PublicKey) : String :=
  s!"PublicKey({abbreviate key.hex})"

end PublicKey

namespace Signature

def hex (signature : Signature) : String :=
  Hex.upper signature.bytes.val

def ofHex (text : String) : Except CredentialError Signature :=
  match (Hex.decode? text).bind (Sized.ofBytes? 64) with
  | some bs => .ok ⟨bs⟩
  | none    => .error (.invalidHex text)

def shown (signature : Signature) : String :=
  s!"Signature({abbreviate signature.hex}...)"

end Signature

namespace Keypair

def publicKey (keypair : Keypair) : PublicKey :=
  ⟨Curve.Ed25519.publicKey keypair.secret⟩

def sign (keypair : Keypair) (message : Bytes) : Signature :=
  ⟨Curve.Ed25519.sign keypair.secret message⟩

-- The secret is never shown.
def shown (keypair : Keypair) : String :=
  s!"Keypair({keypair.publicKey.shown})"

end Keypair

end LedgerWire
