import LedgerWire.Account.Key
import LedgerWire.Base58.Checked

namespace LedgerWire

namespace Address

def classicVersion : UInt8 := 0x00

def accountPublicVersion : UInt8 := 0x23

-- The version byte of an address. It is that of an account's public key, over fewer bytes.
def version : UInt8 := accountPublicVersion

def nodePublicVersion : UInt8 := 0x1c

def accountIdLength : Nat := 20

end Address

namespace PublicKey

def accountId (key : PublicKey) : Bytes.Sized Address.accountIdLength :=
  (Digest.sha512 key.bytes.val).initial Address.accountIdLength

def address (key : PublicKey) : String :=
  Base58.encodeCheck Address.version key.accountId.val

def classicAddress (key : PublicKey) : String :=
  Base58.encodeCheck Address.classicVersion key.accountId.val

def accountPublic (key : PublicKey) : String :=
  Base58.encodeCheck Address.accountPublicVersion key.bytes.val

def nodePublic (key : PublicKey) : String :=
  Base58.encodeCheck Address.nodePublicVersion key.bytes.val

end PublicKey

namespace Address

def derive (key : Bytes) : Except CredentialError String :=
  (PublicKey.ofBytes key).map PublicKey.address

end Address

end LedgerWire
