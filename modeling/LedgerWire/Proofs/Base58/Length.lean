import LedgerWire.Proofs.Base58.Leading
import Mathlib.Data.Nat.Digits.Lemmas

namespace LedgerWire.Base58

variable {bs : Bytes} {n : Nat}

theorem length_digits_le (n : Nat) : (Nat.digits 256 n).length ≤ (Nat.digits 58 n).length := by
  rw [Nat.digits_length_le_iff (by decide)]
  have hn : n < 58 ^ (Nat.digits 58 n).length := Nat.lt_base_pow_length_digits (by decide)
  exact Nat.lt_of_lt_of_le hn <| Nat.pow_le_pow_left (by decide) _

theorem pow_le_pow (k : Nat) : 58 ^ (k + 4) ≤ 256 ^ (k + 3) := by
  induction k
  case zero => decide
  case succ k hi => exact Nat.mul_le_mul hi (by decide : 58 ≤ 256)

theorem length_digits_lt (h : 4 ≤ (Nat.digits 256 n).length) :
    (Nat.digits 256 n).length < (Nat.digits 58 n).length := by
  obtain ⟨k, hk⟩ := Nat.exists_eq_add_of_le' h
  have hn : 256 ^ (k + 3) ≤ n := (Nat.lt_digits_length_iff (by decide) n).mp (by omega)
  rw [hk, Nat.lt_digits_length_iff (by decide)]
  exact Nat.le_trans (pow_le_pow k) hn

-- A hundred bytes are fewer than 138 digits.
theorem pow_lt_pow (k : Nat) : 256 ^ k < 58 ^ (138 * k / 100 + 1) := by
  refine (Nat.pow_lt_pow_iff_left (n := 100) (by decide)).mp ?_
  calc (256 ^ k) ^ 100
    _ = (256 ^ 100) ^ k := by rw [← Nat.pow_mul, ← Nat.pow_mul, Nat.mul_comm]
    _ ≤ (58 ^ 138) ^ k := Nat.pow_le_pow_left (by decide) k
    _ = 58 ^ (138 * k) := (Nat.pow_mul ..).symm
    _ < 58 ^ ((138 * k / 100 + 1) * 100) := Nat.pow_lt_pow_right (by decide) (by omega)
    _ = (58 ^ (138 * k / 100 + 1)) ^ 100 := Nat.pow_mul ..

theorem length_digits_le_mul (n : Nat) :
    (Nat.digits 58 n).length ≤ 138 * (Nat.digits 256 n).length / 100 + 1 := by
  rw [Nat.digits_length_le_iff (by decide)]
  have hn : n < 256 ^ (Nat.digits 256 n).length := Nat.lt_base_pow_length_digits (by decide)
  exact Nat.lt_trans hn (pow_lt_pow _)

theorem length_eq_zeros_add (bs : Bytes) :
    bs.length = Numeral.zeros bs.places + (Nat.digits 256 bs.toNatBE).length := by
  have hw := congrArg List.length (Numeral.write_of_lt (b := 256) (by decide) bs.places_lt)
  rw [Numeral.write, List.length_append, List.length_replicate, List.length_reverse,
    ← Bytes.toNatBE_eq_value, Bytes.places, List.length_map] at hw
  exact hw.symm

theorem length_encode (bs : Bytes) : (encode bs).length =
    Numeral.zeros bs.places + (Nat.digits 58 bs.toNatBE).length := by
  rw [encode, String.length_ofList, length_encodeChars]

theorem length_le_encode (bs : Bytes) : bs.length ≤ (encode bs).length := by
  rw [length_encode, length_eq_zeros_add]
  exact Nat.add_le_add_left (length_digits_le _) _

theorem length_encode_le (bs : Bytes) : (encode bs).length ≤ 138 * bs.length / 100 + 1 := by
  have hd := length_digits_le_mul bs.toNatBE
  rw [length_encode, length_eq_zeros_add]
  omega

theorem length_lt_encode (h : Numeral.zeros bs.places + 4 ≤ bs.length) :
    bs.length < (encode bs).length := by
  rw [length_eq_zeros_add] at h
  have hd := length_digits_lt (Nat.le_of_add_le_add_left h)
  rw [length_encode, length_eq_zeros_add]
  exact Nat.add_lt_add_left hd _

end LedgerWire.Base58
