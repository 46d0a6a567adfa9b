import LedgerWire.Decimal.Basic
import LedgerWire.Decimal.Binary64

namespace LedgerWire.Binary64

def compareScaled (a : Nat) (i : Int) (b : Nat) (j : Int) : Ordering :=
  compare (a * 10 ^ i.toNat * 2 ^ (-j).toNat) (b * 2 ^ j.toNat * 10 ^ (-i).toNat)

-- Below a power of two the spacing halves, so halfway to the neighbour there is a quarter of it. Both
-- ends belong to the value if its mantissa is even.
def readsBack (x : Binary64) (digits : Nat) (exponent : Int) : Bool :=
  let narrow := x.mantissa = 2 ^ (mantissaBits - 1) ∧ x.exponent > leastExponent
  let low := if narrow then 4 * x.mantissa - 1 else 4 * x.mantissa - 2
  let high := 4 * x.mantissa + 2
  let even := x.mantissa % 2 == 0
  let fromBelow := compareScaled digits exponent low (x.exponent - 2)
  let fromAbove := compareScaled digits exponent high (x.exponent - 2)
  (fromBelow == .gt || (even && fromBelow == .eq)) && (fromAbove == .lt || (even && fromAbove == .eq))

def manyPlaces : Nat := 345

def wholeDigits (x : Binary64) : Int :=
  let scaled := x.mantissa * 10 ^ manyPlaces * 2 ^ x.exponent.toNat / 2 ^ (-x.exponent).toNat
  (Nat.toDigits 10 scaled).length - manyPlaces

def floorAt (x : Binary64) (exponent : Int) : Nat :=
  (x.mantissa * 2 ^ x.exponent.toNat * 10 ^ (-exponent).toNat)
    / (2 ^ (-x.exponent).toNat * 10 ^ exponent.toNat)

def nearer (x : Binary64) (below : Nat) (exponent : Int) : Nat :=
  match compareScaled (2 * below + 1) exponent (2 * x.mantissa) x.exponent with
  | .gt => below
  | .lt => below + 1
  | .eq => if below % 2 = 0 then below else below + 1

def onGrid? (x : Binary64) (exponent : Int) : Option Nat :=
  let below := x.floorAt exponent
  match x.readsBack below exponent, x.readsBack (below + 1) exponent with
  | true, true   => some (x.nearer below exponent)
  | true, false  => some below
  | false, true  => some (below + 1)
  | false, false => none

-- Seventeen digits tell any two values apart. Should they not, the exact value is a decimal too.
def shortest (x : Binary64) : Nat × Int :=
  let grids := (List.range 17).map fun n => x.wholeDigits - (n + 1 : Nat)
  match grids.findSome? fun exponent => (x.onGrid? exponent).map (·, exponent) with
  | some found => found
  | none => (x.mantissa * 2 ^ x.exponent.toNat * 5 ^ (-x.exponent).toNat, min x.exponent 0)

end LedgerWire.Binary64

namespace LedgerWire.Decimal

def ofBinary64 (negative : Bool) (x : Binary64) : Decimal :=
  if x.mantissa = 0 then zero negative
  else
    let (digits, exponent) := x.shortest
    ofDigits negative digits exponent

end LedgerWire.Decimal
