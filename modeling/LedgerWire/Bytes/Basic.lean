-- Powers of numbers are those of the core library, also where monoids bring powers of their own.
attribute [instance (2000), default_instance 20000] instPowNat

namespace LedgerWire

abbrev Bytes := List UInt8

namespace Bytes

def toNatLE : Bytes → Nat
  | []      => 0
  | b :: bs => b.toNat + 256 * toNatLE bs

def ofNatLE : (count n : Nat) → Bytes
  | 0, _         => []
  | count + 1, n => UInt8.ofNat n :: ofNatLE count (n / 256)

def toNatBE (bs : Bytes) : Nat :=
  toNatLE bs.reverse

def ofNatBE (count n : Nat) : Bytes :=
  (ofNatLE count n).reverse

@[simp] theorem length_ofNatLE (count n : Nat) : (ofNatLE count n).length = count := by
  induction count generalizing n with
  | zero => rfl
  | succ count ih => simp [ofNatLE, ih]

@[simp] theorem length_ofNatBE (count n : Nat) : (ofNatBE count n).length = count := by
  simp [ofNatBE]

theorem toNatLE_ofNatLE {count n : Nat} (h : n < 256 ^ count) : toNatLE (ofNatLE count n) = n := by
  induction count generalizing n with
  | zero => simp_all [ofNatLE, toNatLE]
  | succ count ih =>
    have lt : n / 256 < 256 ^ count := by
      rw [Nat.pow_succ] at h
      omega
    simp only [ofNatLE, toNatLE, ih lt, UInt8.toNat_ofNat']
    omega

def ofText (text : String) : Bytes :=
  text.toUTF8.data.toList

def toText? (bs : Bytes) : Option String :=
  String.fromUTF8? ⟨bs.toArray⟩

abbrev Sized (n : Nat) := { bs : Bytes // bs.length = n }

namespace Sized

def ofBytes? (n : Nat) (bs : Bytes) : Option (Sized n) :=
  if h : bs.length = n then some ⟨bs, h⟩ else none

theorem ofBytes?_val {n : Nat} (bs : Sized n) : ofBytes? n bs.val = some bs :=
  dif_pos bs.property

theorem ofBytes?_eq_none {n : Nat} {bs : Bytes} (h : bs.length ≠ n) : ofBytes? n bs = none :=
  dif_neg h

def initial {n : Nat} (m : Nat) (bs : Sized n) (le : m ≤ n := by decide) : Sized m :=
  ⟨bs.val.take m, by simp [bs.property, le]⟩

end Sized

end Bytes

end LedgerWire
