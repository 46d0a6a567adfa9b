import LedgerWire.Json.Parser
import LedgerWire.Json.Writer
import Mathlib.Data.List.TakeDrop

namespace LedgerWire.Json.Reader

-- Neither a digit nor one of the others is at the front of the text.
def Stops (others rest : List Char) : Prop :=
  ∀ c ∈ rest.head?, ¬c.isDigit ∧ c ∉ others

-- Nothing at the front of the text continues a number that is complete.
abbrev Ends : List Char → Prop :=
  Stops ['.', 'e', 'E']

namespace Stops

variable {others others' rest : List Char} {c : Char}

theorem nil : Stops others [] := nofun

theorem cons (hd : ¬c.isDigit) (ho : c ∉ others) : Stops others (c :: rest) := by
  intro c' mem
  cases mem
  exact ⟨hd, ho⟩

theorem mono (h : Stops others rest) (hs : others' ⊆ others) : Stops others' rest :=
  fun c mem => (h c mem).imp_right fun ho hm => ho (hs hm)

end Stops

-- Reading digits takes all that were written, if nothing behind them looks like another.
theorem digits_append {ds rest : List Char} (h : ∀ c ∈ ds, c.isDigit) (hr : Stops [] rest) :
    digits (ds ++ rest) = (ds, rest) := by
  rw [digits, List.span_eq_takeWhile_dropWhile, List.takeWhile_append_of_pos h,
    List.dropWhile_append_of_pos h]
  cases rest
  case nil => simp
  case cons c rest =>
    have ⟨hd, _⟩ := hr c rfl
    simp [hd]

theorem isDigit_toDigits (n : Nat) : ∀ c ∈ Nat.toDigits 10 n, c.isDigit :=
  fun _ => Nat.isDigit_of_mem_toDigits (by decide) (by decide)

-- What the text of a number is made of. The places are the digits behind the point.
structure Parts where
  negative : Bool
  whole : List Char
  places : List Char
  power : Option Int

namespace Parts

def pointText (places : List Char) : List Char :=
  if places.isEmpty then [] else '.' :: places

def powerText : Option Int → List Char
  | none   => []
  | some n => 'e' :: (if n < 0 then '-' else '+') :: Nat.toDigits 10 n.natAbs

def text (p : Parts) : List Char :=
  (if p.negative then ['-'] else []) ++ (p.whole ++ (pointText p.places ++ powerText p.power))

structure Digital (p : Parts) : Prop where
  nonempty : p.whole ≠ []
  whole : ∀ c ∈ p.whole, c.isDigit
  places : ∀ c ∈ p.places, c.isDigit

def decimal (p : Parts) : Decimal :=
  .ofDigits p.negative (valueOf (p.whole ++ p.places)) (p.power.getD 0 - p.places.length)

def int (p : Parts) : Int :=
  if p.negative then -valueOf p.whole else valueOf p.whole

end Parts

-- The number that the parts were written for.
def Parts.value (p : Parts) : Json :=
  if p.places = [] ∧ p.power = none then .int p.int else .decimal p.decimal

def parts (s : List Char) : Option (Parts × List Char) := do
  let (negative, s) := minus s
  let (whole, s) := digits s
  let (places, s) ← fraction s
  let (power, s) ← exponent s
  return (⟨negative, whole, places, power⟩, s)

open Parts

theorem exponent_powerText {rest : List Char} (power : Option Int)
    (hr : Stops ['e', 'E'] rest) : exponent (powerText power ++ rest) = some (power, rest) := by
  cases power
  case none =>
    rw [powerText, List.nil_append]
    unfold exponent
    split
    case h_1 => exact absurd (hr _ rfl).right (by decide)
    case h_2 => exact absurd (hr _ rfl).right (by decide)
    case h_3 => rfl
  case some n =>
    have hs : sign ((if n < 0 then '-' else '+') :: (Nat.toDigits 10 n.natAbs ++ rest)) =
        (decide (n < 0), Nat.toDigits 10 n.natAbs ++ rest) := by
      by_cases hn : n < 0 <;> simp [hn, sign, minus]
    have hd := digits_append (isDigit_toDigits n.natAbs) (hr.mono (List.nil_subset _))
    have hv : valueOf (Nat.toDigits 10 n.natAbs) = n.natAbs := Nat.ofDigitChars_ten_toDigits
    simp only [powerText, List.cons_append, exponent, hs, hd, List.isEmpty_iff, Nat.toDigits_ne_nil,
      if_false, hv, decide_eq_true_eq]
    split
    case isTrue  => rw [Int.ofNat_natAbs_of_nonpos (by omega), Int.neg_neg]
    case isFalse => rw [Int.natAbs_of_nonneg (by omega)]

theorem stops_powerText {rest : List Char} (power : Option Int) (hr : Stops ['.'] rest) :
    Stops ['.'] (powerText power ++ rest) := by
  cases power
  case none   => exact hr
  case some n => exact .cons (by decide) (by decide)

theorem fraction_pointText {places rest : List Char} (hp : ∀ c ∈ places, c.isDigit)
    (hr : Stops ['.'] rest) : fraction (pointText places ++ rest) = some (places, rest) := by
  rw [pointText]
  split
  case isTrue he =>
    rw [List.nil_append, List.isEmpty_iff.mp he]
    unfold fraction
    split
    case h_1 => exact absurd (hr _ rfl).right (by decide)
    case h_2 => rfl
  case isFalse he =>
    simp only [List.cons_append, fraction, digits_append hp (hr.mono (List.nil_subset _)), he]
    rfl

theorem stops_pointText {places rest : List Char} (hr : Stops [] rest) :
    Stops [] (pointText places ++ rest) := by
  rw [pointText]
  split
  case isTrue  => exact hr
  case isFalse => exact .cons (by decide) (by decide)

theorem minus_append {ds : List Char} (negative : Bool) (rest : List Char) (hn : ds ≠ [])
    (h : ∀ c ∈ ds, c.isDigit) :
    minus ((if negative then ['-'] else []) ++ (ds ++ rest)) = (negative, ds ++ rest) := by
  cases negative
  case true => rfl
  case false =>
    cases ds
    case nil => contradiction
    case cons d ds =>
      have hd := h d (.head _)
      rw [if_neg (by decide), List.nil_append, List.cons_append, minus]
      rintro _ he
      cases he
      exact absurd hd (by decide)

-- Each part ends where the next begins, because the next begins with a character of its own.
theorem parts_text {p : Parts} {rest : List Char} (h : p.Digital)
    (hr : Ends rest) : parts (p.text ++ rest) = some (p, rest) := by
  have hpoint : Stops ['.'] (powerText p.power ++ rest) :=
    stops_powerText _ <| hr.mono (by simp)
  have hm := minus_append p.negative (pointText p.places ++ (powerText p.power ++ rest)) h.nonempty
    h.whole
  have hwhole : Stops [] (pointText p.places ++ (powerText p.power ++ rest)) :=
    stops_pointText <| hpoint.mono (by simp)
  have hd := digits_append h.whole hwhole
  have hf := fraction_pointText h.places hpoint
  have he := exponent_powerText p.power <| hr.mono (by simp)
  simp only [Parts.text, List.append_assoc, parts, hm, hd, hf, he, Option.bind_eq_bind,
    Option.bind_some]
  rfl

-- A number is recognised by its first character.
theorem head_text {p : Parts} (h : p.Digital) (rest : List Char) :
    ∃ c, (p.text ++ rest).head? = some c ∧ (c.isDigit ∨ c = '-') := by
  rw [Parts.text]
  cases p.negative
  case true => exact ⟨'-', rfl, .inr rfl⟩
  case false =>
    obtain ⟨c, whole, hw⟩ := List.exists_cons_of_ne_nil h.nonempty
    have hd := h.whole c (hw ▸ .head _)
    exact ⟨c, by simp [hw], .inl hd⟩

theorem valueOf_toDigits (n : Nat) : valueOf (Nat.toDigits 10 n) = n :=
  Nat.ofDigitChars_ten_toDigits

-- The text of an integer has no point and no power, so it is read as an integer.
theorem exists_intParts (n : Int) :
    ∃ p : Parts, p.Digital ∧ writeInt n = p.text ∧ p.value = .int n := by
  cases n
  case ofNat n =>
    refine ⟨⟨false, Nat.toDigits 10 n, [], none⟩,
      ⟨Nat.toDigits_ne_nil, isDigit_toDigits n, nofun⟩, ?_⟩
    simp [writeInt, Parts.text, pointText, powerText, Parts.value, Parts.int, valueOf_toDigits]
  case negSucc n =>
    refine ⟨⟨true, Nat.toDigits 10 (n + 1), [], none⟩,
      ⟨Nat.toDigits_ne_nil, isDigit_toDigits (n + 1), nofun⟩, ?_⟩
    simp [writeInt, Parts.text, pointText, powerText, Parts.value, Parts.int, valueOf_toDigits,
      Int.negSucc_eq]

theorem valueOf_append_zeros (ds : List Char) (k : Nat) :
    valueOf (ds ++ List.replicate k '0') = valueOf ds * 10 ^ k := by
  rw [valueOf, Nat.ofDigitChars_append, Nat.ofDigitChars_replicate_zero, Nat.mul_comm, valueOf]

theorem valueOf_zeros_append (ds : List Char) (k : Nat) :
    valueOf (List.replicate k '0' ++ ds) = valueOf ds := by
  rw [valueOf, Nat.ofDigitChars_append, Nat.ofDigitChars_replicate_zero, Nat.mul_zero, valueOf]

theorem ofDigits_self (x : Decimal) : Decimal.ofDigits x.negative x.digits x.exponent = x := by
  rw [Decimal.ofDigits]
  obtain ⟨negative, digits, exponent, normal⟩ := x
  cases normal
  case inl hd =>
    have hz : digits ≠ 0 := by rintro rfl; exact hd rfl
    simp [hz, hd]
  case inr hz => simp [hz, Decimal.zero]

-- More zeros behind the digits are taken back by a smaller exponent.
theorem ofDigits_mul_pow (x : Decimal) (k : Nat) :
    Decimal.ofDigits x.negative (x.digits * 10 ^ k) (x.exponent - k) = x := by
  induction k
  case zero => simpa using ofDigits_self x
  case succ k hi =>
    by_cases hz : x.digits = 0
    case pos => simpa [hz, Decimal.ofDigits] using hi
    case neg =>
      have hm : x.digits * 10 ^ (k + 1) = x.digits * 10 ^ k * 10 := by
        rw [Nat.pow_succ, Nat.mul_assoc]
      have hp : x.digits * 10 ^ k * 10 ≠ 0 := by
        have h10 : 10 ^ k ≠ 0 := Nat.ne_of_gt <| Nat.pow_pos (by decide)
        exact Nat.mul_ne_zero (Nat.mul_ne_zero hz h10) (by decide)
      have he : x.exponent - (k + 1 : Nat) + 1 = x.exponent - k := by omega
      rw [hm, Decimal.ofDigits, dif_neg hp, dif_pos (Nat.mul_mod_left _ 10),
        Nat.mul_div_cancel _ (by decide), he, hi]

-- Digits that were laid out around a point, with `k` zeros added behind them. The digits on both
-- sides of the point spell the number again.
structure Pointed (ds : List Char) (exponent : Int) (whole places : List Char) (k : Nat) : Prop where
  text      : Decimal.Layout.positional ds exponent = whole ++ '.' :: places
  whole_ne  : whole ≠ []
  places_ne : places ≠ []
  digits    : ∀ c ∈ whole ++ places, c.isDigit
  value     : valueOf (whole ++ places) = valueOf ds * 10 ^ k
  shift     : -(places.length : Int) = exponent - k

theorem isDigit_zeros (k : Nat) : ∀ c ∈ List.replicate k '0', c.isDigit :=
  fun _ mem => List.eq_of_mem_replicate mem ▸ rfl

section

variable {ds : List Char} {exponent : Int}

theorem pointed_behind (hn : ds ≠ []) (hd : ∀ c ∈ ds, c.isDigit) (he : 0 ≤ exponent) :
    Pointed ds exponent (ds ++ List.replicate exponent.toNat '0') ['0'] (exponent.toNat + 1) where
  text      := by simp [Decimal.Layout.positional, he]
  whole_ne  := by simp [hn]
  places_ne := by simp
  digits    := List.forall_mem_append.mpr
    ⟨List.forall_mem_append.mpr ⟨hd, isDigit_zeros _⟩, isDigit_zeros 1⟩
  value     := by rw [List.append_assoc, ← List.replicate_succ', valueOf_append_zeros]
  shift     := by
    rw [List.length_singleton]
    omega

theorem pointed_within (hd : ∀ c ∈ ds, c.isDigit) (he : ¬0 ≤ exponent)
    (hw : 0 < ds.length + exponent) :
    Pointed ds exponent (ds.take (ds.length + exponent).toNat)
      (ds.drop (ds.length + exponent).toNat) 0 where
  text      := by simp [Decimal.Layout.positional, he, hw]
  whole_ne  := by
    have hl : 0 < ds.length := by omega
    simp [List.length_pos_iff.mp hl]
    omega
  places_ne := by
    simp
    omega
  digits    := by rwa [List.take_append_drop]
  value     := by rw [List.take_append_drop, Nat.pow_zero, Nat.mul_one]
  shift     := by
    rw [List.length_drop]
    omega

theorem pointed_before (hn : ds ≠ []) (hd : ∀ c ∈ ds, c.isDigit) (he : ¬0 ≤ exponent)
    (hw : ¬0 < ds.length + exponent) :
    Pointed ds exponent ['0'] (List.replicate (-(ds.length + exponent)).toNat '0' ++ ds) 0 where
  text      := by simp [Decimal.Layout.positional, he, hw]
  whole_ne  := by simp
  places_ne := by simp [hn]
  digits    := List.forall_mem_append.mpr
    ⟨isDigit_zeros 1, List.forall_mem_append.mpr ⟨isDigit_zeros _, hd⟩⟩
  value     := by
    rw [← List.append_assoc, ← List.replicate_one, List.replicate_append_replicate,
      valueOf_zeros_append, Nat.pow_zero, Nat.mul_one]
  shift     := by
    rw [List.length_append, List.length_replicate]
    omega

-- The point stands behind all digits, among them, or before all of them.
theorem exists_pointed (hn : ds ≠ []) (hd : ∀ c ∈ ds, c.isDigit) (exponent : Int) :
    ∃ whole places k, Pointed ds exponent whole places k := by
  by_cases he : 0 ≤ exponent
  case pos => exact ⟨_, _, _, pointed_behind hn hd he⟩
  case neg =>
    by_cases hw : 0 < ds.length + exponent
    case pos => exact ⟨_, _, _, pointed_within hd he hw⟩
    case neg => exact ⟨_, _, _, pointed_before hn hd he hw⟩

end

theorem exists_scientific {ds : List Char} (hn : ds ≠ []) (leading : Int) :
    ∃ whole places : List Char, Decimal.Layout.scientific ds leading =
        whole ++ (pointText places ++ powerText (some leading)) ∧
      whole ≠ [] ∧ whole ++ places = ds ∧ places.length = ds.length - 1 := by
  match ds, hn with
  | [d], _           => exact ⟨[d], [], rfl, by simp, rfl, rfl⟩
  | d :: d' :: ds, _ => exact ⟨[d], d' :: ds, rfl, by simp, rfl, rfl⟩

-- The digits of the decimal may have more zeros on either side of them.
theorem value_eq {p : Parts} {x : Decimal} (hp : p.places ≠ [] ∨ p.power ≠ none)
    (hn : p.negative = x.negative) (k : Nat)
    (hv : valueOf (p.whole ++ p.places) = x.digits * 10 ^ k)
    (he : p.power.getD 0 - p.places.length = x.exponent - k) : p.value = .decimal x := by
  rw [Parts.value, if_neg (not_and_or.mpr hp), Parts.decimal, hn, hv, he, ofDigits_mul_pow]

theorem exists_decimalParts (l : Decimal.Layout) (x : Decimal) :
    ∃ p : Parts, p.Digital ∧ l.write x = p.text ∧ p.value = .decimal x := by
  have hd := isDigit_toDigits x.digits
  have hn : Nat.toDigits 10 x.digits ≠ [] := Nat.toDigits_ne_nil
  have hv := valueOf_toDigits x.digits
  have hl : 0 < (Nat.toDigits 10 x.digits).length := Nat.length_toDigits_pos
  simp only [Decimal.Layout.write]
  generalize Nat.toDigits 10 x.digits = ds at *
  generalize hle : x.exponent + ds.length - 1 = leading
  have hs (body : List Char) : (if x.negative then '-' :: body else body) =
      (if x.negative then ['-'] else []) ++ body := by
    split <;> rfl
  rw [hs]
  by_cases hplain : l.plainFrom ≤ leading ∧ leading < l.plainBelow
  case pos =>
    rw [if_pos hplain]
    have ⟨whole, places, k, h⟩ := exists_pointed hn hd x.exponent
    have ⟨hwd, hpd⟩ := List.forall_mem_append.mp h.digits
    refine ⟨⟨x.negative, whole, places, none⟩, ⟨h.whole_ne, hwd, hpd⟩, ?_,
      value_eq (.inl h.places_ne) rfl k ?_ ?_⟩
    case refine_1 => simp [Parts.text, pointText, powerText, h.text, h.places_ne]
    case refine_2 => exact hv ▸ h.value
    case refine_3 => simpa using h.shift
  case neg =>
    rw [if_neg hplain]
    have ⟨whole, places, ht, hw, hc, he⟩ := exists_scientific hn leading
    have ⟨hwd, hpd⟩ := List.forall_mem_append.mp (hc ▸ hd)
    refine ⟨⟨x.negative, whole, places, some leading⟩, ⟨hw, hwd, hpd⟩, ?_,
      value_eq (.inr (by simp)) rfl 0 ?_ ?_⟩
    case refine_1 => rw [ht, Parts.text]
    case refine_2 => rw [hc, hv, Nat.pow_zero, Nat.mul_one]
    case refine_3 =>
      rw [Option.getD_some, he]
      omega

end LedgerWire.Json.Reader
