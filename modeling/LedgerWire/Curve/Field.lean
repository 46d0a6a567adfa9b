namespace LedgerWire.Curve

def prime : Nat := 2 ^ 255 - 19

namespace Field

def add (a b : Nat) : Nat := (a + b) % prime

def sub (a b : Nat) : Nat := (a + (prime - b % prime)) % prime

def mul (a b : Nat) : Nat := a * b % prime

def neg (a : Nat) : Nat := sub 0 a

def powBits : (bits a exponent : Nat) → Nat
  | 0, _, _               => 1
  | bits + 1, a, exponent =>
    let root := powBits bits a (exponent / 2)
    let square := mul root root
    if exponent % 2 = 1 then mul square a else square

def pow (a exponent : Nat) : Nat :=
  powBits 255 a exponent

def inv (a : Nat) : Nat :=
  pow a (prime - 2)

def sqrtMinusOne : Nat :=
  0x2b8324804fc1df0b2b4d00993dfbd7a72f431806ad2fe478c4ee1b274a0ea0b0

-- The even square root of `u / v`, if that is a square. The candidate is right up to a factor that
-- is a fourth root of one. If it is off by minus one, the root of minus one mends it; if it is off
-- by anything else, the quotient is no square.
def sqrtRatio? (u v : Nat) : Option Nat :=
  let cube := mul (mul v v) v
  let candidate := mul (mul u cube)
    (pow (mul u (mul (mul cube cube) v)) ((prime - 5) / 8))
  let check := mul v (mul candidate candidate)
  let even (r : Nat) : Nat := if r % 2 = 1 then neg r else r
  if check = u then some (even candidate)
  else if check = neg u then some (even (mul candidate sqrtMinusOne))
  else none

end Field

end LedgerWire.Curve
