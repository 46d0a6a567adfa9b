namespace LedgerWire

structure Binary64 where
  mantissa : Nat
  exponent : Int
  deriving DecidableEq, Repr

def roundDiv (num den : Nat) : Nat :=
  let quotient := num / den
  match compare (2 * (num % den)) den with
  | .lt => quotient
  | .gt => quotient + 1
  | .eq => if quotient % 2 = 0 then quotient else quotient + 1

namespace Binary64

def zero : Binary64 := ⟨0, 0⟩

def leastExponent : Int := -1074

def mantissaBits : Nat := 53

def ofFraction? (num den : Nat) : Option Binary64 :=
  -- The quotient lies within a factor of two of this power of two.
  let scale := (num.log2 : Int) - den.log2
  let round (exponent : Int) : Nat :=
    roundDiv (num * 2 ^ (-exponent).toNat) (den * 2 ^ exponent.toNat)
  let wide := max (scale - mantissaBits) leastExponent
  let exponent := if round wide < 2 ^ mantissaBits then wide else max (wide + 1) leastExponent
  let mantissa := round exponent
  -- Rounding up may carry into one more bit; the value is then a power of two.
  let (mantissa, exponent) :=
    if mantissa = 2 ^ mantissaBits then (mantissa / 2, exponent + 1) else (mantissa, exponent)
  if exponent > 971 then none else some ⟨mantissa, exponent⟩

def mul? (x y : Binary64) : Option Binary64 :=
  let exponent := x.exponent + y.exponent
  ofFraction? (x.mantissa * y.mantissa * 2 ^ exponent.toNat) (2 ^ (-exponent).toNat)

def div? (x y : Binary64) : Option Binary64 :=
  let exponent := x.exponent - y.exponent
  ofFraction? (x.mantissa * 2 ^ exponent.toNat) (y.mantissa * 2 ^ (-exponent).toNat)

def mostTens : Nat := 308

def tenPower? (n : Nat) : Option Binary64 :=
  ofFraction? (10 ^ n) 1

-- The product with a power of ten. The power is rounded itself, so the result need not be the value
-- nearest to the product. Only a power too small to have a value of its own is taken in parts.
def scale? (x : Binary64) (exponent : Int) : Option Binary64 :=
  if x.mantissa = 0 then some zero
  else if mostTens < exponent then none
  else if 0 ≤ exponent then do x.mul? (← tenPower? exponent.toNat)
  else if -mostTens ≤ exponent then do x.div? (← tenPower? (-exponent).toNat)
  else do (← x.div? (← tenPower? mostTens)).scale? (exponent + mostTens)
termination_by exponent.natAbs
decreasing_by
  rw [mostTens] at *
  omega

end Binary64

end LedgerWire
