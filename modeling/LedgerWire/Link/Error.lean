import LedgerWire.Text.Duration

namespace LedgerWire

inductive LinkError where
  -- Something went wrong on the wire that does not end the connection.
  | transport (message : String)
  | closed
  | timeout (limit : Duration)
  | idsExhausted
  | rejected (error : String) (message : Option String)
  deriving DecidableEq, Repr

def LinkError.message : LinkError → String
  | .transport message => s!"transport error: {message}"
  | .closed => "connection closed"
  | .timeout limit => s!"request timed out after {limit.text}"
  | .idsExhausted => "request id space exhausted"
  | .rejected error _ => s!"server rejected request: {error}"

end LedgerWire
