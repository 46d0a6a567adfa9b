namespace LedgerWire

structure Duration where
  nanos : Nat
  deriving DecidableEq, Repr

namespace Duration

def ofMillis (ms : Nat) : Duration :=
  ⟨ms * 1000000⟩

def ofSeconds (s : Nat) : Duration :=
  ⟨s * 1000000000⟩

-- The milliseconds after which a clock that ticks in milliseconds has run for the duration.
def ticks (d : Duration) : Nat :=
  (d.nanos + 999999) / 1000000

-- The decimals of `part` out of `10 ^ places`, without trailing zeros.
def decimals : (places part : Nat) → List Char
  | 0, _              => []
  | places + 1, part  =>
    if part = 0 then []
    else Nat.digitChar (part / 10 ^ places) :: decimals places (part % 10 ^ places)

def inUnit (d : Duration) (places : Nat) (unit : String) : String :=
  let fraction := decimals places (d.nanos % 10 ^ places)
  let point := if fraction.isEmpty then [] else ['.']
  toString (d.nanos / 10 ^ places) ++ String.ofList (point ++ fraction) ++ unit

def text (d : Duration) : String :=
  if d.nanos ≥ 10 ^ 9 then d.inUnit 9 "s"
  else if d.nanos ≥ 10 ^ 6 then d.inUnit 6 "ms"
  else if d.nanos ≥ 10 ^ 3 then d.inUnit 3 "µs"
  else d.inUnit 0 "ns"

end Duration

end LedgerWire
