import LedgerWire.Bytes.Basic
import LedgerWire.Curve.Field

namespace LedgerWire.Curve

open LedgerWire.Curve.Field

structure Point where
  x : Nat
  y : Nat
  z : Nat
  t : Nat
  deriving DecidableEq, Repr

def order : Nat :=
  2 ^ 252 + 27742317777372353535851937790883648493

namespace Point

def coefficient : Nat :=
  0x52036cee2b6ffe738cc740797779e89800700a4d4141d8ab75eb4dca135978a3

def zero : Point :=
  ⟨0, 1, 1, 0⟩

def ofAffine (x y : Nat) : Point :=
  ⟨x, y, 1, mul x y⟩

def base : Point :=
  ofAffine
    0x216936d3cd6e53fec0a4e231fdd6dc5c692cc7609525a7b2c9562d608f25d51a
    0x6666666666666666666666666666666666666666666666666666666666666658

def add (p q : Point) : Point :=
  let a := mul (sub p.y p.x) (sub q.y q.x)
  let b := mul (Field.add p.y p.x) (Field.add q.y q.x)
  let c := mul (mul p.t (mul 2 coefficient)) q.t
  let d := mul (mul 2 p.z) q.z
  let e := sub b a
  let f := sub d c
  let g := Field.add d c
  let h := Field.add b a
  ⟨mul e f, mul g h, mul f g, mul e h⟩

def neg (p : Point) : Point :=
  ⟨Field.neg p.x, p.y, p.z, Field.neg p.t⟩

def smulBits : (bits n : Nat) → Point → Point
  | 0, _, _        => zero
  | bits + 1, n, p =>
    let half := smulBits bits (n / 2) p
    let double := half.add half
    if n % 2 = 1 then double.add p else double

def smul (p : Point) (n : Nat) : Point :=
  smulBits 256 n p

def toBytes (p : Point) : Bytes.Sized 32 :=
  let scale := inv p.z
  let x := mul p.x scale
  let y := mul p.y scale
  ⟨Bytes.ofNatLE 32 (y + 2 ^ 255 * (x % 2)), by simp⟩

-- The point that 32 bytes stand for, if their `y` belongs to the curve. The sign bit beside `x = 0`
-- changes nothing, and a `y` of the prime or more is reduced.
def ofBytes? (bs : Bytes.Sized 32) : Option Point := do
  let n := Bytes.toNatLE bs.val
  let y := n % 2 ^ 255 % prime
  let square := mul y y
  let x ← sqrtRatio? (sub square 1) (Field.add (mul coefficient square) 1)
  return ofAffine (if n / 2 ^ 255 = 1 then Field.neg x else x) y

end Point

end LedgerWire.Curve
