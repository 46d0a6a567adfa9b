namespace LedgerWire

structure Decimal where
  negative : Bool
  digits : Nat
  exponent : Int
  -- Trailing zeros are counted by the exponent, and zero has none.
  normal : digits % 10 ≠ 0 ∨ digits = 0 ∧ exponent = 0
  deriving DecidableEq, Repr

namespace Decimal

def zero (negative : Bool) : Decimal :=
  ⟨negative, 0, 0, .inr ⟨rfl, rfl⟩⟩

def ofDigits (negative : Bool) (digits : Nat) (exponent : Int) : Decimal :=
  if zero : digits = 0 then Decimal.zero negative
  else if trailing : digits % 10 = 0 then ofDigits negative (digits / 10) (exponent + 1)
  else ⟨negative, digits, exponent, .inl trailing⟩
termination_by digits

-- Where positional notation ends: the exponents of the leading digit that are written with it.
structure Layout where
  plainFrom : Int
  plainBelow : Int

namespace Layout

def positional (digits : List Char) (exponent : Int) : List Char :=
  let whole := digits.length + exponent
  if exponent ≥ 0 then digits ++ List.replicate exponent.toNat '0' ++ ['.', '0']
  else if whole > 0 then digits.take whole.toNat ++ '.' :: digits.drop whole.toNat
  else '0' :: '.' :: List.replicate (-whole).toNat '0' ++ digits

-- One digit before the point, no point after a single digit, and a signed exponent.
def scientific (digits : List Char) (leading : Int) : List Char :=
  let mantissa := match digits with
    | [d]     => [d]
    | d :: ds => d :: '.' :: ds
    | []      => []
  mantissa ++ 'e' :: (if leading < 0 then '-' else '+') :: Nat.toDigits 10 leading.natAbs

def write (layout : Layout) (x : Decimal) : List Char :=
  let digits := Nat.toDigits 10 x.digits
  let leading := x.exponent + digits.length - 1
  let body :=
    if layout.plainFrom ≤ leading ∧ leading < layout.plainBelow
    then positional digits x.exponent
    else scientific digits leading
  if x.negative then '-' :: body else body

end Layout

end Decimal

end LedgerWire
