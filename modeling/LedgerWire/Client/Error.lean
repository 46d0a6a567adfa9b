import LedgerWire.Account.Error
import LedgerWire.Link.Error

namespace LedgerWire

inductive ClientError where
  | link (cause : LinkError)
  -- The request could not be signed, so nothing was sent.
  | credential (cause : CredentialError)
  deriving DecidableEq, Repr

namespace ClientError

def message : ClientError → String
  | link cause       => s!"connection error: {cause.message}"
  | credential cause => s!"credential error: {cause.message}"

def isClosed : ClientError → Bool
  | link .closed => true
  | _            => false

end ClientError

end LedgerWire
