import LedgerWire.Proofs.Bytes.Numeral
import Mathlib.Data.Nat.Digits.Lemmas

namespace LedgerWire

-- Operations on words that fail where the word is too small for what they give.
namespace Word

def add? (a b : UInt64) : Option UInt64 :=
  if a.toNat + b.toNat < 2 ^ 64 then some (a + b) else none

def mul? (a b : UInt64) : Option UInt64 :=
  if a.toNat * b.toNat < 2 ^ 64 then some (a * b) else none

def limb? (a : UInt64) : Option UInt32 :=
  if a.toNat < 2 ^ 32 then some a.toUInt32 else none

variable {a b : UInt64}

theorem add?_of_lt (h : a.toNat + b.toNat < 2 ^ 64) : add? a b = some (a + b) := by
  rw [add?, if_pos h]

theorem mul?_of_lt (h : a.toNat * b.toNat < 2 ^ 64) : mul? a b = some (a * b) := by
  rw [mul?, if_pos h]

theorem limb?_of_lt (h : a.toNat < 2 ^ 32) : limb? a = some a.toUInt32 := by
  rw [limb?, if_pos h]

-- Where a word is wide enough, its arithmetic is that of numbers.
theorem toNat_add_of_lt (h : a.toNat + b.toNat < 2 ^ 64) : (a + b).toNat = a.toNat + b.toNat := by
  rw [UInt64.toNat_add, Nat.mod_eq_of_lt h]

theorem toNat_mul_of_lt (h : a.toNat * b.toNat < 2 ^ 64) : (a * b).toNat = a.toNat * b.toNat := by
  rw [UInt64.toNat_mul, Nat.mod_eq_of_lt h]

end Word

namespace Limbs

open Word

variable {n : Limbs} {limbs : List UInt32} {bs : Bytes}

-- Division as it is done, but for failing where something does not fit.
def divModLimbs? (divisor : UInt64) : List UInt32 → Option (List UInt32 × UInt64)
  | []            => some ([], 0)
  | limb :: limbs => do
    let (quotient, carry) ← divModLimbs? divisor limbs
    let part ← add? (← mul? carry 0x100000000) limb.toUInt64
    return ((← limb? (part / divisor)) :: quotient, part % divisor)

def divMod? (n : Limbs) (divisor : UInt32) : Option (Limbs × UInt32) := do
  let (quotient, rem) ← divModLimbs? divisor.toUInt64 n.limbs
  return (ofLimbs quotient, ← limb? rem)

-- The same for multiplication. What does not fit the limb of a part is carried on, so it is only
-- the last carry that has to fit one.
def mulAddLimbs? (factor carry : UInt64) : List UInt32 → Option (List UInt32)
  | []            => if carry = 0 then some [] else do return [← limb? carry]
  | limb :: limbs => do
    let part ← add? (← mul? limb.toUInt64 factor) carry
    return part.toUInt32 :: (← mulAddLimbs? factor (part / 0x100000000) limbs)

def mulAdd? (n : Limbs) (factor addend : UInt32) : Option Limbs := do
  return ofLimbs (← mulAddLimbs? factor.toUInt64 addend.toUInt64 n.limbs)

theorem divModLimbs?_eq {divisor : UInt64} (pos : 0 < divisor.toNat)
    (lt : divisor.toNat < 2 ^ 32) (limbs : List UInt32) :
    divModLimbs? divisor limbs = some (divModLimbs divisor limbs) := by
  induction limbs
  case nil => rfl
  case cons limb limbs hi =>
    have ⟨_, carry_lt⟩ := divModLimbs_spec pos lt limbs
    have limb_lt := limb.toNat_lt
    rcases hd : divModLimbs divisor limbs with ⟨quotient, carry⟩
    simp only [hd] at hi carry_lt
    -- The carry is below the divisor, so it leaves room for the next limb.
    have shift : (0x100000000 : UInt64).toNat = 2 ^ 32 := by decide
    have fits : carry.toNat * (0x100000000 : UInt64).toNat < 2 ^ 64 := by rw [shift]; omega
    have shifted := toNat_mul_of_lt fits
    have room : (carry * 0x100000000).toNat + limb.toUInt64.toNat < 2 ^ 64 := by
      rw [shifted, shift, UInt32.toNat_toUInt64]
      omega
    have part := toNat_add_of_lt room
    have digit : ((carry * 0x100000000 + limb.toUInt64) / divisor).toNat < 2 ^ 32 := by
      rw [UInt64.toNat_div, part, shifted, shift, UInt32.toNat_toUInt64,
        Nat.div_lt_iff_lt_mul pos]
      omega
    rw [divModLimbs?, divModLimbs, hd]
    refine Option.bind_eq_some_iff.mpr ⟨_, hi, ?_⟩
    refine Option.bind_eq_some_iff.mpr ⟨_, mul?_of_lt fits, ?_⟩
    refine Option.bind_eq_some_iff.mpr ⟨_, add?_of_lt room, ?_⟩
    exact Option.bind_eq_some_iff.mpr ⟨_, limb?_of_lt digit, rfl⟩

theorem divMod?_eq {divisor : UInt32} (pos : 0 < divisor.toNat) (n : Limbs) :
    n.divMod? divisor = some (n.divMod divisor) := by
  have pos : 0 < divisor.toUInt64.toNat := by simpa using pos
  have lt : divisor.toUInt64.toNat < 2 ^ 32 := by simpa using divisor.toNat_lt
  have ⟨_, rem_lt⟩ := divModLimbs_spec pos lt n.limbs
  rw [divMod?, divMod]
  refine Option.bind_eq_some_iff.mpr ⟨_, divModLimbs?_eq pos lt n.limbs, ?_⟩
  exact Option.bind_eq_some_iff.mpr ⟨_, limb?_of_lt <| Nat.lt_trans rem_lt lt, rfl⟩

theorem mulAddLimbs?_eq {factor carry : UInt64} (factor_lt : factor.toNat < 2 ^ 32)
    (carry_lt : carry.toNat < 2 ^ 32) (limbs : List UInt32) :
    mulAddLimbs? factor carry limbs = some (mulAddLimbs factor carry limbs) := by
  induction limbs generalizing carry
  case nil =>
    rw [mulAddLimbs?, mulAddLimbs, limb?_of_lt carry_lt]
    split <;> rfl
  case cons limb limbs hi =>
    have limb_lt := limb.toNat_lt
    have bound : limb.toNat * factor.toNat ≤ (2 ^ 32 - 1) * (2 ^ 32 - 1) :=
      Nat.mul_le_mul (by omega) (by omega)
    have fits : limb.toUInt64.toNat * factor.toNat < 2 ^ 64 := by
      rw [UInt32.toNat_toUInt64]
      omega
    have product := toNat_mul_of_lt fits
    have room : (limb.toUInt64 * factor).toNat + carry.toNat < 2 ^ 64 := by
      rw [product, UInt32.toNat_toUInt64]
      omega
    have part := toNat_add_of_lt room
    have next : ((limb.toUInt64 * factor + carry) / 0x100000000).toNat < 2 ^ 32 := by
      simp only [UInt64.toNat_div, part, product, UInt32.toNat_toUInt64, UInt64.reduceToNat]
      omega
    rw [mulAddLimbs?, mulAddLimbs]
    refine Option.bind_eq_some_iff.mpr ⟨_, mul?_of_lt fits, ?_⟩
    refine Option.bind_eq_some_iff.mpr ⟨_, add?_of_lt room, ?_⟩
    exact Option.bind_eq_some_iff.mpr ⟨_, hi next, rfl⟩

theorem mulAdd?_eq (n : Limbs) (factor addend : UInt32) :
    n.mulAdd? factor addend = some (n.mulAdd factor addend) := by
  have factor_lt : factor.toUInt64.toNat < 2 ^ 32 := by simpa using factor.toNat_lt
  have addend_lt : addend.toUInt64.toNat < 2 ^ 32 := by simpa using addend.toNat_lt
  rw [mulAdd?, mulAddLimbs?_eq factor_lt addend_lt]
  rfl

-- The number is kept in the limbs of the value, and in no more of them.
structure Holds (n : Limbs) (value : Nat) : Prop where
  spells  : n.value = value
  digits  : n.limbs.map UInt32.toNat = Nat.digits (2 ^ 32) value
  trimmed : n.limbs.getLast? ≠ some 0

theorem limbsValue_eq_ofDigits (limbs : List UInt32) :
    limbsValue limbs = Nat.ofDigits (2 ^ 32) (limbs.map UInt32.toNat) := by
  induction limbs
  case nil => rfl
  case cons limb limbs hi => rw [limbsValue, hi, List.map_cons, Nat.ofDigits_cons]

theorem Holds.of_value {value : Nat} (h : n.value = value) : n.Holds value where
  spells  := h
  trimmed := n.trimmed
  digits  := by
    have lt : ∀ d ∈ n.limbs.map UInt32.toNat, d < 2 ^ 32 := by
      simp only [List.forall_mem_map]
      exact fun limb _ => limb.toNat_lt
    have last : ∀ hn : n.limbs.map UInt32.toNat ≠ [], (n.limbs.map UInt32.toNat).getLast hn ≠ 0 := by
      intro hn hz
      rw [List.getLast_map, ← UInt32.toNat_zero, UInt32.toNat_inj] at hz
      exact n.trimmed <| List.getLast?_eq_some_getLast (by simpa using hn) ▸ congrArg some hz
    rw [← h, Limbs.value, limbsValue_eq_ofDigits, Nat.digits_ofDigits _ (by decide) _ lt last]

-- The bytes spell the value, and any others that do only have more zeros in front.
structure Shortest (bs : Bytes) (value : Nat) : Prop where
  spells  : Bytes.toNatBE bs = value
  leading : bs.head? ≠ some 0
  padded  : ∀ bs', Bytes.toNatBE bs' = value → ∃ zeros, bs' = List.replicate zeros 0 ++ bs

theorem toBytes_eq_nil_iff (n : Limbs) : n.toBytes = [] ↔ n.value = 0 := by
  have h : n.toBytes.places = [] ↔ (Nat.digits 256 n.value).reverse = [] := by rw [places_toBytes]
  rwa [Bytes.places, List.map_eq_nil_iff, List.reverse_eq_nil_iff,
    Nat.digits_eq_nil_iff_eq_zero] at h

theorem toNatBE_toBytes (n : Limbs) : Bytes.toNatBE n.toBytes = n.value := by
  rw [Bytes.toNatBE_eq_value, places_toBytes, Numeral.value, List.reverse_reverse,
    Nat.ofDigits_digits]

-- Bytes of one value differ in their zeros at most.
theorem eq_zeros_append_toBytes (h : bs.toNatBE = n.value) :
    bs = List.replicate (bs.takeWhile (· == 0)).length 0 ++ n.toBytes := by
  have rest : bs.dropWhile (· == 0) = n.toBytes := by
    apply Bytes.places_injective
    rw [Bytes.places_dropWhile, places_toBytes, h]
  have zeros : bs.takeWhile (· == 0) = List.replicate (bs.takeWhile (· == 0)).length 0 :=
    List.eq_replicate_iff.mpr ⟨rfl, fun b mem => by simpa using List.mem_takeWhile_imp mem⟩
  rw [← zeros, ← rest, List.takeWhile_append_dropWhile]

theorem shortest_toBytes (n : Limbs) : Shortest n.toBytes n.value where
  spells     := n.toNatBE_toBytes
  padded _ h := ⟨_, eq_zeros_append_toBytes h⟩
  leading    := by
    rw [toBytes]
    intro h
    have hd := List.head?_dropWhile_not (· == 0)
      (n.limbs.flatMap fun limb => Bytes.ofNatLE 4 limb.toNat).reverse
    rw [h] at hd
    simp at hd

-- Dividing, and multiplying and adding, give what they give on numbers, in the limbs that it takes
-- and no others, and would not have failed if every word on the way had been checked to hold what
-- is put into it. Bytes are read as the number that they spell, however many there are, and a number
-- is written in as few as can be.
theorem limbs_compute_exactly (n : Limbs) {divisor : UInt32} (pos : 1 ≤ divisor.toNat)
    (factor addend : UInt32) (bs : Bytes) :
    n.divMod? divisor = some (n.divMod divisor) ∧
    (n.divMod divisor).1.Holds (n.value / divisor.toNat) ∧
    (n.divMod divisor).2.toNat = n.value % divisor.toNat ∧
    n.mulAdd? factor addend = some (n.mulAdd factor addend) ∧
    (n.mulAdd factor addend).Holds (n.value * factor.toNat + addend.toNat) ∧
    (ofBytes bs).Holds bs.toNatBE ∧
    Shortest n.toBytes n.value ∧ (n.toBytes = [] ↔ n.value = 0) :=
  ⟨divMod?_eq pos n, .of_value <| n.value_divMod_fst pos, n.toNat_divMod_snd pos,
    n.mulAdd?_eq factor addend, .of_value <| n.value_mulAdd factor addend,
    .of_value <| value_ofBytes bs, n.shortest_toBytes, n.toBytes_eq_nil_iff⟩

theorem limbs_compute_exactly_at_the_bounds :
    let most : UInt32 := 0xffffffff
    let n := ofLimbs [most, 0, most]
    1 ≤ most.toNat ∧ n.divMod? most = some (ofLimbs [1, 0, 1], 0) ∧
      n.mulAdd? most most = some (ofLimbs [0, most, 1, 0xfffffffe]) ∧
      (ofBytes [0, 1, 0xff, 0xff, 0xff, 0xff, 0]).Holds (0x1ffffffff00) := by
  intro most n
  have h := @limbs_compute_exactly n most (by decide) most most [0, 1, 0xff, 0xff, 0xff, 0xff, 0]
  exact ⟨by decide, h.left.trans (by decide), h.right.right.right.left.trans (by decide),
    h.right.right.right.right.right.left⟩

end Limbs
end LedgerWire
