import LedgerWire.Bytes.Basic

namespace LedgerWire.Hex

-- The case of the letters among the digits.
inductive Letters where
  | lower
  | upper
  deriving DecidableEq, Repr

def Letters.first : Letters → Char
  | .lower => 'a'
  | .upper => 'A'

def digit (letters : Letters) (n : Nat) : Char :=
  if n < 10 then Char.ofNat ('0'.toNat + n) else Char.ofNat (letters.first.toNat + (n - 10))

def value? (c : Char) : Option Nat :=
  if '0' ≤ c ∧ c ≤ '9' then some (c.toNat - '0'.toNat)
  else if 'a' ≤ c ∧ c ≤ 'f' then some (c.toNat - 'a'.toNat + 10)
  else if 'A' ≤ c ∧ c ≤ 'F' then some (c.toNat - 'A'.toNat + 10)
  else none

def encodeChars (letters : Letters) : Bytes → List Char
  | []      => []
  | b :: bs => digit letters (b.toNat / 16) :: digit letters (b.toNat % 16) :: encodeChars letters bs

def encode (letters : Letters) (bs : Bytes) : String :=
  String.ofList (encodeChars letters bs)

abbrev lower : Bytes → String := encode .lower

abbrev upper : Bytes → String := encode .upper

def decodeChars? : List Char → Option Bytes
  | []             => some []
  | [_]            => none
  | hi :: lo :: cs => do
    let hi ← value? hi
    let lo ← value? lo
    let bs ← decodeChars? cs
    return UInt8.ofNat (16 * hi + lo) :: bs

def decode? (text : String) : Option Bytes :=
  decodeChars? text.toList

@[simp] theorem length_encodeChars (letters : Letters) (bs : Bytes) :
    (encodeChars letters bs).length = 2 * bs.length := by
  induction bs with
  | nil => rfl
  | cons b bs ih => simp [encodeChars, ih]; omega

theorem value?_digit (letters : Letters) : ∀ n < 16, value? (digit letters n) = some n := by
  cases letters <;> decide

theorem decodeChars?_encodeChars (letters : Letters) (bs : Bytes) :
    decodeChars? (encodeChars letters bs) = some bs := by
  induction bs with
  | nil => rfl
  | cons b bs ih =>
    have hi := value?_digit letters (b.toNat / 16) (by have := b.toNat_lt; omega)
    have lo := value?_digit letters (b.toNat % 16) (by omega)
    have whole : UInt8.ofNat (16 * (b.toNat / 16) + b.toNat % 16) = b := by
      rw [Nat.div_add_mod]
      exact UInt8.ofNat_toNat
    simp only [encodeChars, decodeChars?, hi, lo, ih]
    exact congrArg (fun c => some (c :: bs)) whole

theorem decode?_encode (letters : Letters) (bs : Bytes) :
    decode? (encode letters bs) = some bs := by
  simp [decode?, encode, decodeChars?_encodeChars]

end LedgerWire.Hex
