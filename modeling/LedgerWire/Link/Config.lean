import LedgerWire.Text.Duration

namespace LedgerWire

structure LinkConfig where
  streamCapacity : Nat := 256
  -- How long a request waits for its reply if it does not say so itself, or forever.
  timeout : Option Duration := some (.ofSeconds 30)
  firstId : UInt64 := 1
  deriving DecidableEq, Repr

def shownOption : Option String → String
  | some text => s!"Some({text})"
  | none      => "None"

def LinkConfig.shown (config : LinkConfig) : String :=
  let timeout := shownOption (config.timeout.map Duration.text)
  s!"ConnectionConfig \x7b stream_capacity: {config.streamCapacity}, " ++
  s!"request_timeout: {timeout}, first_request_id: {config.firstId.toNat} \x7d"

end LedgerWire
