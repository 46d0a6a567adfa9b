import LedgerWire.Bytes.Limbs
import Mathlib.Data.List.TakeWhile
import Mathlib.Data.Nat.Digits.Defs

namespace LedgerWire

namespace Numeral

variable {b : Nat} {ds : List Nat}

def value (b : Nat) (ds : List Nat) : Nat :=
  Nat.ofDigits b ds.reverse

def zeros (ds : List Nat) : Nat :=
  (ds.takeWhile (· = 0)).length

def write (b zeros value : Nat) : List Nat :=
  List.replicate zeros 0 ++ (Nat.digits b value).reverse

theorem value_cons (b d : Nat) (ds : List Nat) :
    value b (d :: ds) = d * b ^ ds.length + value b ds := by
  rw [value, List.reverse_cons, Nat.ofDigits_append, List.length_reverse, Nat.ofDigits_singleton,
    Nat.mul_comm, Nat.add_comm, value]

theorem value_zero_cons (b : Nat) (ds : List Nat) : value b (0 :: ds) = value b ds := by
  rw [value_cons, Nat.zero_mul, Nat.zero_add]

-- The zeros in front are all that the number forgets.
theorem dropWhile_zero (hb : 1 < b) (h : ∀ d ∈ ds, d < b) :
    ds.dropWhile (· = 0) = (Nat.digits b (value b ds)).reverse := by
  induction ds
  case nil => simp [value]
  case cons d ds hi =>
    by_cases hd : d = 0
    case pos =>
      subst hd
      simpa [value_zero_cons] using hi fun d mem => h d <| .tail _ mem
    case neg =>
      rw [value, Nat.digits_ofDigits b hb (d :: ds).reverse]
      case w₁ => exact fun d mem => h d <| List.mem_reverse.mp mem
      case w₂ => simpa using hd
      simp [hd]

theorem takeWhile_zero (ds : List Nat) : ds.takeWhile (· = 0) = List.replicate (zeros ds) 0 := by
  rw [List.eq_replicate_iff]
  refine ⟨rfl, fun d mem => ?_⟩
  simpa using List.mem_takeWhile_imp mem

-- So a numeral is determined by its zeros and its value.
theorem write_of_lt (hb : 1 < b) (h : ∀ d ∈ ds, d < b) : write b (zeros ds) (value b ds) = ds := by
  rw [write, ← takeWhile_zero, ← dropWhile_zero hb h, List.takeWhile_append_dropWhile]

theorem value_write (b zeros value : Nat) : Numeral.value b (write b zeros value) = value := by
  induction zeros
  case zero => simp [write, Numeral.value, Nat.ofDigits_digits]
  case succ zeros hi => rwa [write, List.replicate_succ, List.cons_append, value_zero_cons]

theorem lt_of_mem_write (hb : 1 < b) {zeros value d : Nat} (mem : d ∈ write b zeros value) :
    d < b := by
  cases List.mem_append.mp mem
  case inl mem => exact List.eq_of_mem_replicate mem ▸ Nat.zero_lt_of_lt hb
  case inr mem => exact Nat.digits_lt_base hb <| List.mem_reverse.mp mem

theorem zeros_write (hb : 1 < b) (zeros value : Nat) :
    Numeral.zeros (write b zeros value) = zeros := by
  -- The numeral is written with the zeros it has, and its value is known. Only the zeros affect the
  -- length then.
  have h := write_of_lt hb fun d (mem : d ∈ write b zeros value) => lt_of_mem_write hb mem
  rw [value_write] at h
  simpa [write] using congrArg List.length h

end Numeral

namespace Bytes

-- The digits of a byte string in base 256.
def places (bs : Bytes) : List Nat :=
  bs.map UInt8.toNat

theorem places_lt (bs : Bytes) : ∀ d ∈ bs.places, d < 256 := by
  simp only [places, List.forall_mem_map]
  exact fun b _ => b.toNat_lt

theorem places_injective : Function.Injective places :=
  fun _ _ => (List.map_inj_right fun _ _ => UInt8.toNat_inj.mp).mp

theorem toNatLE_eq_ofDigits (bs : Bytes) : toNatLE bs = Nat.ofDigits 256 (bs.map UInt8.toNat) := by
  induction bs
  case nil => rfl
  case cons b bs hi => rw [toNatLE, hi, List.map_cons, Nat.ofDigits_cons]

theorem toNatBE_eq_value (bs : Bytes) : toNatBE bs = Numeral.value 256 bs.places := by
  rw [toNatBE, toNatLE_eq_ofDigits, Numeral.value, places, List.map_reverse]

theorem toNatLE_append (bs bs' : Bytes) :
    toNatLE (bs ++ bs') = toNatLE bs + 256 ^ bs.length * toNatLE bs' := by
  simp only [toNatLE_eq_ofDigits, List.map_append, Nat.ofDigits_append, List.length_map]

theorem beq_zero_eq : (fun b : UInt8 => b == 0) = fun b => decide (b.toNat = 0) := by
  funext b
  rw [Bool.eq_iff_iff]
  simp [← UInt8.toNat_inj]

theorem zeros_places (bs : Bytes) : Numeral.zeros bs.places = (bs.takeWhile (· == 0)).length := by
  rw [Numeral.zeros, places, List.takeWhile_map, List.length_map, beq_zero_eq]
  rfl

theorem places_dropWhile (bs : Bytes) :
    places (bs.dropWhile (· == 0)) = (Nat.digits 256 bs.toNatBE).reverse := by
  rw [toNatBE_eq_value, ← Numeral.dropWhile_zero (by decide) bs.places_lt, places, places,
    List.dropWhile_map, beq_zero_eq]
  rfl

end Bytes

namespace Limbs

theorem toNatLE_flatMap (limbs : List UInt32) :
    Bytes.toNatLE (limbs.flatMap fun limb => Bytes.ofNatLE 4 limb.toNat) = limbsValue limbs := by
  induction limbs
  case nil => rfl
  case cons limb limbs hi =>
    rw [List.flatMap_cons, Bytes.toNatLE_append, hi, Bytes.length_ofNatLE,
      Bytes.toNatLE_ofNatLE limb.toNat_lt]
    rfl

theorem places_toBytes (n : Limbs) : n.toBytes.places = (Nat.digits 256 n.value).reverse := by
  rw [toBytes, Bytes.places_dropWhile, Bytes.toNatBE, List.reverse_reverse, toNatLE_flatMap, value]

end Limbs
end LedgerWire
