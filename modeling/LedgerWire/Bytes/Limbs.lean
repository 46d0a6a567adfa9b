import LedgerWire.Bytes.Basic

namespace LedgerWire

def limbsValue : List UInt32 → Nat
  | []            => 0
  | limb :: limbs => limb.toNat + 2 ^ 32 * limbsValue limbs

-- A number without leading zero limbs, so that zero has none at all.
structure Limbs where
  limbs : List UInt32
  trimmed : limbs.getLast? ≠ some 0
  deriving DecidableEq

namespace Limbs

def value (n : Limbs) : Nat :=
  limbsValue n.limbs

def trim : List UInt32 → List UInt32
  | []            => []
  | limb :: limbs =>
    match trim limbs with
    | []   => if limb = 0 then [] else [limb]
    | rest => limb :: rest

@[simp] theorem limbsValue_trim (limbs : List UInt32) : limbsValue (trim limbs) = limbsValue limbs := by
  induction limbs with
  | nil => rfl
  | cons limb limbs ih =>
    rw [trim, limbsValue, ← ih]
    split
    case h_1 none =>
      by_cases h : limb = 0 <;> simp [h, none, limbsValue]
    case h_2 => rw [limbsValue]

theorem getLast?_trim (limbs : List UInt32) : (trim limbs).getLast? ≠ some 0 := by
  induction limbs with
  | nil => simp [trim]
  | cons limb limbs ih =>
    rw [trim]
    split
    case h_1 => by_cases h : limb = 0 <;> simp [h]
    case h_2 some =>
      cases eq : trim limbs with
      | nil => exact absurd eq some
      | cons l ls => simpa [eq] using ih

def ofLimbs (limbs : List UInt32) : Limbs :=
  ⟨trim limbs, getLast?_trim limbs⟩

@[simp] theorem value_ofLimbs (limbs : List UInt32) : (ofLimbs limbs).value = limbsValue limbs :=
  limbsValue_trim limbs

def zero : Limbs :=
  ofLimbs []

def isZero (n : Limbs) : Bool :=
  n.limbs.isEmpty

theorem limbsValue_pos {limbs : List UInt32} (ne : limbs ≠ []) (last : limbs.getLast? ≠ some 0) :
    0 < limbsValue limbs := by
  induction limbs with
  | nil => contradiction
  | cons limb limbs ih =>
    cases limbs with
    | nil =>
      have : limb ≠ 0 := by simpa using last
      have : limb.toNat ≠ 0 := fun h => this (UInt32.toNat_inj.mp h)
      simp only [limbsValue]
      omega
    | cons l ls =>
      have := ih (by simp) (by simpa using last)
      simp only [limbsValue] at this ⊢
      omega

theorem value_pos {n : Limbs} (h : n.isZero = false) : 0 < n.value :=
  limbsValue_pos (by simpa [isZero] using h) n.trimmed

-- The quotient's limbs and the remainder. The far limb is divided first, and its remainder is
-- carried down to the next.
def divModLimbs (divisor : UInt64) : List UInt32 → List UInt32 × UInt64
  | []            => ([], 0)
  | limb :: limbs =>
    let (quotient, carry) := divModLimbs divisor limbs
    let part := carry * 0x100000000 + limb.toUInt64
    ((part / divisor).toUInt32 :: quotient, part % divisor)

theorem divModLimbs_spec {divisor : UInt64} (pos : 0 < divisor.toNat) (lt : divisor.toNat < 2 ^ 32)
    (limbs : List UInt32) :
    limbsValue limbs = divisor.toNat * limbsValue (divModLimbs divisor limbs).1
        + (divModLimbs divisor limbs).2.toNat
      ∧ (divModLimbs divisor limbs).2.toNat < divisor.toNat := by
  induction limbs with
  | nil => simp [divModLimbs, limbsValue, pos]
  | cons limb limbs ih =>
    obtain ⟨whole, carry_lt⟩ := ih
    simp only [divModLimbs, limbsValue]
    generalize (divModLimbs divisor limbs).1 = quotient at *
    generalize (divModLimbs divisor limbs).2 = carry at *
    have limb_lt := limb.toNat_lt
    -- The carry is below the divisor, so the two limbs together still fit 64 bits.
    have part : (carry * 0x100000000 + limb.toUInt64).toNat = carry.toNat * 2 ^ 32 + limb.toNat := by
      simp only [UInt64.toNat_add, UInt64.toNat_mul, UInt32.toNat_toUInt64, UInt64.reduceToNat]
      omega
    have part_lt : carry.toNat * 2 ^ 32 + limb.toNat < divisor.toNat * 2 ^ 32 := by omega
    have quot_lt : (carry.toNat * 2 ^ 32 + limb.toNat) / divisor.toNat < 2 ^ 32 :=
      (Nat.div_lt_iff_lt_mul pos).mpr (by omega)
    simp only [UInt64.toNat_toUInt32, UInt64.toNat_div, UInt64.toNat_mod, part,
      Nat.mod_eq_of_lt quot_lt]
    refine ⟨?_, Nat.mod_lt _ pos⟩
    have := Nat.div_add_mod (carry.toNat * 2 ^ 32 + limb.toNat) divisor.toNat
    rw [whole, Nat.mul_add divisor.toNat, ← Nat.mul_assoc, Nat.mul_comm divisor.toNat (2 ^ 32),
      Nat.mul_assoc]
    omega

def divMod (n : Limbs) (divisor : UInt32) : Limbs × UInt32 :=
  let (quotient, rem) := divModLimbs divisor.toUInt64 n.limbs
  (ofLimbs quotient, rem.toUInt32)

theorem value_eq_divMod (n : Limbs) {divisor : UInt32} (pos : 0 < divisor.toNat) :
    n.value = divisor.toNat * (n.divMod divisor).1.value + (n.divMod divisor).2.toNat
      ∧ (n.divMod divisor).2.toNat < divisor.toNat := by
  have divisor_lt := divisor.toNat_lt
  have ⟨whole, lt⟩ := @divModLimbs_spec divisor.toUInt64 (by simpa using pos)
    (by simpa using divisor_lt) n.limbs
  simp only [UInt32.toNat_toUInt64] at whole lt
  simp only [divMod, value_ofLimbs, UInt64.toNat_toUInt32]
  rw [Nat.mod_eq_of_lt (by omega)]
  exact ⟨whole, lt⟩

theorem value_divMod_fst (n : Limbs) {divisor : UInt32} (pos : 0 < divisor.toNat) :
    (n.divMod divisor).1.value = n.value / divisor.toNat := by
  have ⟨whole, lt⟩ := n.value_eq_divMod pos
  rw [whole, Nat.mul_add_div pos, Nat.div_eq_of_lt lt, Nat.add_zero]

theorem toNat_divMod_snd (n : Limbs) {divisor : UInt32} (pos : 0 < divisor.toNat) :
    (n.divMod divisor).2.toNat = n.value % divisor.toNat := by
  have ⟨whole, lt⟩ := n.value_eq_divMod pos
  rw [whole, Nat.mul_add_mod, Nat.mod_eq_of_lt lt]

-- The limbs times `factor`, plus a carry into the nearest limb.
def mulAddLimbs (factor carry : UInt64) : List UInt32 → List UInt32
  | []            => if carry = 0 then [] else [carry.toUInt32]
  | limb :: limbs =>
    let part := limb.toUInt64 * factor + carry
    part.toUInt32 :: mulAddLimbs factor (part / 0x100000000) limbs

theorem limbsValue_mulAddLimbs {factor carry : UInt64} (factor_lt : factor.toNat < 2 ^ 32)
    (carry_lt : carry.toNat < 2 ^ 32) (limbs : List UInt32) :
    limbsValue (mulAddLimbs factor carry limbs)
      = limbsValue limbs * factor.toNat + carry.toNat := by
  induction limbs generalizing carry with
  | nil =>
    by_cases h : carry = 0
    · simp [mulAddLimbs, h, limbsValue]
    · simp only [mulAddLimbs, h, if_false, limbsValue, UInt64.toNat_toUInt32]
      omega
  | cons limb limbs ih =>
    have limb_lt := limb.toNat_lt
    have bound : limb.toNat * factor.toNat ≤ (2 ^ 32 - 1) * (2 ^ 32 - 1) :=
      Nat.mul_le_mul (by omega) (by omega)
    have part : (limb.toUInt64 * factor + carry).toNat
        = limb.toNat * factor.toNat + carry.toNat := by
      simp only [UInt64.toNat_add, UInt64.toNat_mul, UInt32.toNat_toUInt64]
      omega
    have next : ((limb.toUInt64 * factor + carry) / 0x100000000).toNat
        = (limb.toNat * factor.toNat + carry.toNat) / 2 ^ 32 := by
      simp only [UInt64.toNat_div, part, UInt64.reduceToNat, Nat.reducePow]
    simp only [mulAddLimbs, limbsValue]
    rw [ih (by rw [next]; omega), UInt64.toNat_toUInt32, next, part, Nat.add_mul,
      Nat.mul_assoc (2 ^ 32)]
    generalize limb.toNat * factor.toNat = product at *
    generalize limbsValue limbs * factor.toNat = rest at *
    omega

def mulAdd (n : Limbs) (factor addend : UInt32) : Limbs :=
  ofLimbs (mulAddLimbs factor.toUInt64 addend.toUInt64 n.limbs)

@[simp] theorem value_mulAdd (n : Limbs) (factor addend : UInt32) :
    (n.mulAdd factor addend).value = n.value * factor.toNat + addend.toNat := by
  have factor_lt := factor.toNat_lt
  have addend_lt := addend.toNat_lt
  simp only [mulAdd, value_ofLimbs]
  rw [limbsValue_mulAddLimbs (by simpa using factor_lt) (by simpa using addend_lt)]
  simp [value]

def packLE : Bytes → List UInt32
  | []                       => []
  | [a]                      => [.ofNat (Bytes.toNatLE [a])]
  | [a, b]                   => [.ofNat (Bytes.toNatLE [a, b])]
  | [a, b, c]                => [.ofNat (Bytes.toNatLE [a, b, c])]
  | a :: b :: c :: d :: rest => .ofNat (Bytes.toNatLE [a, b, c, d]) :: packLE rest

def ofBytes (bs : Bytes) : Limbs :=
  ofLimbs (packLE bs.reverse)

def toBytes (n : Limbs) : Bytes :=
  (n.limbs.flatMap fun limb => Bytes.ofNatLE 4 limb.toNat).reverse.dropWhile (· == 0)

theorem limbsValue_packLE (bs : Bytes) : limbsValue (packLE bs) = Bytes.toNatLE bs := by
  fun_induction packLE bs with
  | case1 => rfl
  | case2 a =>
    have := a.toNat_lt
    simp only [limbsValue, Bytes.toNatLE, UInt32.toNat_ofNat']
    omega
  | case3 a b =>
    have := a.toNat_lt; have := b.toNat_lt
    simp only [limbsValue, Bytes.toNatLE, UInt32.toNat_ofNat']
    omega
  | case4 a b c =>
    have := a.toNat_lt; have := b.toNat_lt; have := c.toNat_lt
    simp only [limbsValue, Bytes.toNatLE, UInt32.toNat_ofNat']
    omega
  | case5 a b c d rest ih =>
    have := a.toNat_lt; have := b.toNat_lt; have := c.toNat_lt; have := d.toNat_lt
    simp only [limbsValue, Bytes.toNatLE, ih, UInt32.toNat_ofNat']
    omega

@[simp] theorem value_ofBytes (bs : Bytes) : (ofBytes bs).value = Bytes.toNatBE bs := by
  simp [ofBytes, limbsValue_packLE, Bytes.toNatBE]

end Limbs

end LedgerWire
