import LedgerWire.Account.Seed
import LedgerWire.Json.Writer

namespace LedgerWire

namespace Transaction

def signerField : String := "SigningPubKey"

def signatureField : String := "TxnSignature"

def commandField : String := "tx_json"

-- What a signature covers: everything but the signature.
def signingDigest (tx : Fields) : Bytes.Sized 64 :=
  Digest.sha512 (Bytes.ofText (Json.object (tx.erase signatureField)).canonical)

def nameSigner (tx : Fields) (key : PublicKey) : Fields :=
  (tx.erase signatureField).insert signerField (.string key.hex)

def sign (tx : Fields) (keypair : Keypair) : Fields :=
  let named := nameSigner tx keypair.publicKey
  named.insert signatureField (.string (keypair.sign (signingDigest named).val).hex)

def text (tx : Fields) (key : String) : Except CredentialError String :=
  match (tx.get? key).bind Json.string? with
  | some text => .ok text
  | none      => .error (.missingField key)

-- The signature is looked at only once there is a key to check it by.
def verify (tx : Fields) : Except CredentialError Unit := do
  let key ← PublicKey.ofHex (← text tx signerField)
  let signature ← Signature.ofHex (← text tx signatureField)
  key.verify (signingDigest tx).val signature

def signCommand (command : Fields) (keypair : Keypair) : Except CredentialError Fields :=
  match (command.get? commandField).bind Json.fields? with
  | some tx => .ok (command.insert commandField (.object (sign tx keypair)))
  | none    => .error (.missingField commandField)

end Transaction

end LedgerWire
