import LedgerWire.Proofs.Base58.Spelling
import Mathlib.Data.Nat.Digits.Lemmas

namespace LedgerWire

namespace Numeral

variable {b d e n : Nat} {ds : List Nat}

theorem value_lt (hb : 1 < b) (h : ∀ d ∈ ds, d < b) : value b ds < b ^ ds.length := by
  have := Nat.ofDigits_lt_base_pow_length hb (l := ds.reverse) (by simpa using h)
  rwa [List.length_reverse] at this

-- The numeral of the number in base `b` begins with the digit.
def Leads (b d n : Nat) : Prop :=
  ∃ k, d * b ^ k ≤ n ∧ n < (d + 1) * b ^ k

theorem leads_value (hb : 1 < b) (h : ∀ d ∈ ds, d < b) : Leads b d (value b (d :: ds)) := by
  have hv := value_lt hb h
  refine ⟨ds.length, ?_⟩
  rw [value_cons, Nat.add_mul]
  omega

-- The digit tells between which powers of the base the number lies.
theorem log_eq {k : Nat} (hl : d * b ^ k ≤ n) (hu : n < (d + 1) * b ^ k) (h0 : 0 < d) (hd : d < b) :
    Nat.log b n = k := by
  have hlower : b ^ k ≤ n := Nat.le_trans (Nat.le_mul_of_pos_left _ h0) hl
  have hupper : n < b ^ (k + 1) := by
    rw [Nat.pow_succ']
    exact Nat.lt_of_lt_of_le hu (Nat.mul_le_mul_right _ hd)
  exact Nat.log_eq_of_pow_le_of_lt_pow hlower hupper

-- So it is what the lower one leaves of the number.
theorem Leads.eq_div (h : Leads b d n) (h0 : 0 < d) (hd : d < b) : d = n / b ^ Nat.log b n := by
  obtain ⟨k, hl, hu⟩ := h
  rw [log_eq hl hu h0 hd]
  exact (Nat.div_eq_of_lt_le hl hu).symm

theorem Leads.unique (h : Leads b d n) (h' : Leads b e n) (h0 : 0 < d) (hd : d < b) (h0' : 0 < e)
    (he : e < b) : d = e := by
  rw [h.eq_div h0 hd, h'.eq_div h0' he]

end Numeral

namespace Base58

open Numeral (Leads)

variable {b : UInt8} {bs : Bytes} {d : Nat}

theorem toNatBE_cons (b : UInt8) (bs : Bytes) :
    b.toNat * 256 ^ bs.length ≤ Bytes.toNatBE (b :: bs) ∧
      Bytes.toNatBE (b :: bs) < (b.toNat + 1) * 256 ^ bs.length := by
  have hl : bs.places.length = bs.length := by rw [Bytes.places, List.length_map]
  have hv := Numeral.value_lt (by decide) bs.places_lt
  rw [Bytes.toNatBE_eq_value, Bytes.places, List.map_cons, Numeral.value_cons, ← Bytes.places,
    Nat.add_mul, ← hl]
  omega

theorem toNat_ne_zero (hb : b ≠ 0) : b.toNat ≠ 0 :=
  fun h => hb <| UInt8.toNat_inj.mp h

theorem zeros_places_cons (hb : b ≠ 0) : Numeral.zeros (Bytes.places (b :: bs)) = 0 := by
  simp [Numeral.zeros, Bytes.places, toNat_ne_zero hb]

theorem exists_leading (bs : Bytes) (hb : b ≠ 0) : ∃ e, 0 < e ∧ e < 58 ∧
    Leads 58 e (Bytes.toNatBE (b :: bs)) ∧ (encodeChars (b :: bs)).head? = some (symbol e) := by
  rw [encodeChars_eq, zeros_places_cons hb, ← Bytes.toNatBE_eq_value]
  have hv := Numeral.value_write 58 0 (Bytes.toNatBE (b :: bs))
  have hn := Numeral.zeros_write (b := 58) (by decide) 0 (Bytes.toNatBE (b :: bs))
  have hl : ∀ e ∈ Numeral.write 58 0 (Bytes.toNatBE (b :: bs)), e < 58 :=
    fun e mem => Numeral.lt_of_mem_write (by decide) mem
  generalize Numeral.write 58 0 (Bytes.toNatBE (b :: bs)) = es at hv hn hl
  cases es
  case nil =>
    have hp := (toNatBE_cons b bs).left
    have hpos : 0 < b.toNat * 256 ^ bs.length :=
      Nat.mul_pos (Nat.pos_of_ne_zero <| toNat_ne_zero hb) (Nat.pow_pos (by decide))
    rw [← hv] at hp
    exact absurd hp (Nat.not_le.mpr hpos)
  case cons e es =>
    obtain ⟨he, hes⟩ := List.forall_mem_cons.mp hl
    refine ⟨e, Nat.pos_of_ne_zero fun h => ?_, he, ?_, rfl⟩
    · simp [Numeral.zeros, h] at hn
    · exact hv ▸ Numeral.leads_value (by decide) hes

theorem head?_encodeChars_eq_iff (hb : b ≠ 0) (h0 : 0 < d) (hd : d < 58) :
    (encodeChars (b :: bs)).head? = some (symbol d) ↔ Leads 58 d (Bytes.toNatBE (b :: bs)) := by
  have ⟨e, h0', he, hl, hh⟩ := exists_leading bs hb
  rw [hh, Option.some_inj]
  constructor
  case mp  => exact fun h => symbol_injOn e he d hd h ▸ hl
  case mpr => exact fun h => congrArg symbol <| hl.unique h h0' he h0 hd

-- A text has a symbol for each zero in front and one for each digit of the number.
theorem length_encodeChars (bs : Bytes) :
    (encodeChars bs).length = Numeral.zeros bs.places + (Nat.digits 58 bs.toNatBE).length := by
  rw [encodeChars_eq, List.length_map, Numeral.write, List.length_append, List.length_replicate,
    List.length_reverse, Bytes.toNatBE_eq_value]

-- The first byte and the number of the others fix how long a text is and which symbol comes first,
-- if what they leave open lies between neighbouring multiples of one power of 58.
theorem encode_of_bounds {k : Nat} (h0 : 0 < d) (hd : d < 58)
    (hl : d * 58 ^ k ≤ b.toNat * 256 ^ bs.length)
    (hu : (b.toNat + 1) * 256 ^ bs.length ≤ (d + 1) * 58 ^ k) :
    (encode (b :: bs)).length = k + 1 ∧ (encode (b :: bs)).toList.head? = some (symbol d) := by
  have ⟨hbl, hbu⟩ := toNatBE_cons b bs
  have hnl := Nat.le_trans hl hbl
  have hnu := Nat.lt_of_lt_of_le hbu hu
  have hk : 0 < 58 ^ k := Nat.pow_pos (by decide)
  have hb : b ≠ 0 := by
    rintro rfl
    rw [UInt8.toNat_zero, Nat.zero_mul] at hl
    exact absurd (Nat.mul_pos h0 hk) (Nat.not_lt.mpr hl)
  rw [encode, String.length_ofList, String.toList_ofList, length_encodeChars, zeros_places_cons hb,
    head?_encodeChars_eq_iff hb h0 hd]
  refine ⟨?_, k, hnl, hnu⟩
  have hn : Bytes.toNatBE (b :: bs) ≠ 0 :=
    Nat.ne_of_gt <| Nat.lt_of_lt_of_le (Nat.mul_pos h0 hk) hnl
  rw [Nat.length_digits 58 _ (by decide) hn, Numeral.log_eq hnl hnu h0 hd, Nat.zero_add]

-- So a version, a payload and a trailer of fixed lengths do, whatever the payload and trailer are.
theorem encode_of_version {k n m : Nat} {version : UInt8} (payload : Bytes.Sized n)
    (trailer : Bytes.Sized m) (h0 : 0 < d) (hd : d < 58)
    (hl : d * 58 ^ k ≤ version.toNat * 256 ^ (n + m))
    (hu : (version.toNat + 1) * 256 ^ (n + m) ≤ (d + 1) * 58 ^ k) :
    (encode (version :: payload.val ++ trailer.val)).length = k + 1 ∧
      (encode (version :: payload.val ++ trailer.val)).toList.head? = some (symbol d) := by
  have hlen : (payload.val ++ trailer.val).length = n + m := by
    rw [List.length_append, payload.property, trailer.property]
  exact encode_of_bounds h0 hd (hlen ▸ hl) (hlen ▸ hu)

theorem head?_encode_zero (bs : Bytes) : (encode (0 :: bs)).toList.head? = some zeroSymbol := by
  have hz : Numeral.zeros (Bytes.places (0 :: bs)) = Numeral.zeros bs.places + 1 := rfl
  rw [encode, String.toList_ofList, encodeChars_eq, hz, Numeral.write, List.replicate_succ]
  rfl

end Base58
end LedgerWire
