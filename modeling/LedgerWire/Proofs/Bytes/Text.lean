import LedgerWire.Bytes.Hex

namespace LedgerWire

namespace Hex

-- The digits of either case.
def Letters.digits : Letters → List Char
  | .lower => "0123456789abcdef".toList
  | .upper => "0123456789ABCDEF".toList

-- The text has so many digits, all in the given case, and is read as the bytes.
structure Spells (letters : Letters) (count : Nat) (bs : Bytes) (text : String) : Prop where
  length : text.length = count
  digits : ∀ c ∈ text.toList, c ∈ letters.digits
  reads  : decode? text = some bs

theorem digit_mem_digits (letters : Letters) : ∀ n < 16, digit letters n ∈ letters.digits := by
  cases letters <;> decide +kernel

theorem mem_digits_of_mem_encodeChars {letters : Letters} {bs : Bytes} {c : Char}
    (mem : c ∈ encodeChars letters bs) : c ∈ letters.digits := by
  induction bs
  case nil => cases mem
  case cons b bs hi =>
    have hb := b.toNat_lt
    simp only [encodeChars, List.mem_cons] at mem
    rcases mem with rfl | rfl | mem
    · exact digit_mem_digits letters _ (by omega)
    · exact digit_mem_digits letters _ (by omega)
    · exact hi mem

theorem spells_encode (letters : Letters) {n : Nat} (bs : Bytes.Sized n) :
    Spells letters (2 * n) bs.val (encode letters bs.val) where
  length := by rw [encode, String.length_ofList, length_encodeChars, bs.property]
  digits := by
    rw [encode, String.toList_ofList]
    exact fun c mem => mem_digits_of_mem_encodeChars mem
  reads  := decode?_encode letters bs.val

end Hex

namespace Bytes

theorem ofText_injective : Function.Injective ofText := by
  intro s t h
  exact String.toByteArray_inj.mp <| ByteArray.ext <| Array.toList_inj.mp h

theorem toText?_ofText (text : String) : toText? (ofText text) = some text := by
  rw [toText?, ofText, Array.toArray_toList]
  exact dif_pos text.isValidUTF8

theorem toText?_eq_some_iff {bs : Bytes} {text : String} :
    toText? bs = some text ↔ bs = ofText text := by
  constructor
  case mp =>
    intro h
    rw [toText?, String.fromUTF8?] at h
    split at h
    case isTrue valid =>
      injection h with h
      subst h
      rfl
    case isFalse => contradiction
  case mpr =>
    intro h
    exact h ▸ toText?_ofText text

theorem ofText_eq (text : String) : ofText text = text.toList.flatMap String.utf8EncodeChar := by
  have h := congrArg (·.data.toList) (String.utf8Encode_toList (b := text))
  rw [ofText]
  refine h.symm.trans ?_
  simp [List.utf8Encode]

-- The bytes come first in any comparison, whatever follows them on either side.
def Precedes (bs bs' : Bytes) : Prop :=
  ∀ rest rest', bs ++ rest < bs' ++ rest'

namespace Precedes

variable {bs bs' : Bytes} {b b' : UInt8}

theorem of_lt (h : b < b') (bs bs' : Bytes) : Precedes (b :: bs) (b' :: bs') :=
  fun _ _ => List.cons_lt_cons_iff.mpr <| .inl h

theorem append_right (h : Precedes bs bs') (more more' : Bytes) :
    Precedes (bs ++ more) (bs' ++ more') := by
  intro rest rest'
  rw [List.append_assoc, List.append_assoc]
  exact h _ _

theorem append_left (h : Precedes bs bs') (common : Bytes) :
    Precedes (common ++ bs) (common ++ bs') := by
  intro rest rest'
  rw [List.append_assoc, List.append_assoc]
  exact List.append_left_lt (h _ _)

end Precedes

-- How many bytes follow the first one of a character.
def trailing (code : Nat) : Nat :=
  if code < 0x80 then 0 else if code < 0x800 then 1 else if code < 0x10000 then 2 else 3

-- The first byte tells that number, and holds the bits that the others leave.
def leading (code : Nat) : Nat :=
  [0, 0xc0, 0xe0, 0xf0].getD (trailing code) 0 + code / 64 ^ trailing code

-- The other bytes hold six bits each.
def groups : (count code : Nat) → Bytes
  | 0, _            => []
  | count + 1, code => groups count (code / 64) ++ [UInt8.ofNat (code % 64 + 0x80)]

theorem ofNat_lt {m n : Nat} (h : m < n) (hn : n < 256) : UInt8.ofNat m < UInt8.ofNat n := by
  rw [UInt8.lt_iff_toNat_lt, UInt8.toNat_ofNat', UInt8.toNat_ofNat']
  omega

theorem precedes_groups {count m n : Nat} (h : m < n) (he : m / 64 ^ count = n / 64 ^ count) :
    Precedes (groups count m) (groups count n) := by
  induction count generalizing m n
  case zero =>
    rw [Nat.pow_zero, Nat.div_one, Nat.div_one] at he
    omega
  case succ count hi =>
    rw [groups, groups]
    -- Either a group before the last one tells the codes apart, or the last one does.
    have hq : m / 64 ≤ n / 64 := Nat.div_le_div_right (Nat.le_of_lt h)
    cases Nat.lt_or_eq_of_le hq
    case inl hl =>
      refine (hi hl ?_).append_right _ _
      rwa [Nat.div_div_eq_div_mul, Nat.div_div_eq_div_mul, ← Nat.pow_succ']
    case inr hq =>
      rw [hq]
      exact (Precedes.of_lt (ofNat_lt (by omega) (by omega)) [] []).append_left _

theorem code_lt (c : Char) : c.toNat < 0x110000 := by
  have hv := c.valid
  simp only [UInt32.isValidChar, Nat.isValidChar, Char.toNat_val] at hv
  omega

theorem encodeChar_eq (c : Char) : String.utf8EncodeChar c =
    UInt8.ofNat (leading c.toNat) :: groups (trailing c.toNat) c.toNat := by
  have hc := code_lt c
  simp only [String.utf8EncodeChar, Char.toNat_val]
  split
  case isTrue =>
    have ht : trailing c.toNat = 0 := by grind [trailing]
    simp [leading, ht, groups]
  split
  case isTrue =>
    have ht : trailing c.toNat = 1 := by grind [trailing]
    have hl : leading c.toNat = c.toNat / 64 % 32 + 0xc0 := by
      simp [leading, ht]
      omega
    simp [hl, ht, groups]
  split
  case isTrue =>
    have ht : trailing c.toNat = 2 := by grind [trailing]
    have hl : leading c.toNat = c.toNat / 4096 % 16 + 0xe0 := by
      simp [leading, ht]
      omega
    simp [hl, ht, groups]
  case isFalse =>
    have ht : trailing c.toNat = 3 := by grind [trailing]
    have hl : leading c.toNat = c.toNat / 262144 % 8 + 0xf0 := by
      simp [leading, ht]
      omega
    simp [hl, ht, groups, Nat.div_div_eq_div_mul]

-- Of a greater code the first byte is greater, or only the bits that it leaves to the others are.
theorem leading_lt_or {m n : Nat} (h : m < n) (hn : n < 0x110000) :
    leading m < leading n ∨ leading m = leading n ∧ trailing m = trailing n ∧
      m / 64 ^ trailing m = n / 64 ^ trailing n := by
  simp only [leading, trailing]
  repeat' split
  all_goals
    simp
    omega

theorem leading_lt {n : Nat} (hn : n < 0x110000) : leading n < 256 := by
  simp only [leading, trailing]
  repeat' split
  all_goals
    simp
    omega

theorem precedes_of_lt {c d : Char} (h : c < d) :
    Precedes (String.utf8EncodeChar c) (String.utf8EncodeChar d) := by
  have hd := code_lt d
  have hc : c.toNat < d.toNat := h
  rw [encodeChar_eq, encodeChar_eq]
  cases leading_lt_or hc hd
  case inl hl => exact .of_lt (ofNat_lt hl (leading_lt hd)) _ _
  case inr h =>
    obtain ⟨hl, ht, he⟩ := h
    rw [← ht] at he
    rw [← hl, ← ht]
    exact (precedes_groups hc he).append_left [_]

theorem flatMap_encodeChar_lt {cs ds : List Char} (h : cs < ds) :
    cs.flatMap String.utf8EncodeChar < ds.flatMap String.utf8EncodeChar := by
  induction cs generalizing ds
  case nil =>
    cases ds
    case nil => exact absurd h (List.not_lt_nil _)
    case cons d ds =>
      rw [List.flatMap_cons, encodeChar_eq]
      exact List.nil_lt_cons ..
  case cons c cs hi =>
    cases ds
    case nil => exact absurd h (List.not_lt_nil _)
    case cons d ds =>
      rw [List.flatMap_cons, List.flatMap_cons]
      cases List.cons_lt_cons_iff.mp h
      case inl h => exact precedes_of_lt h _ _
      case inr h => exact h.left ▸ List.append_left_lt (hi h.right)

theorem ofText_lt {s t : String} (h : s < t) : ofText s < ofText t := by
  rw [ofText_eq, ofText_eq]
  exact flatMap_encodeChar_lt h

theorem ofText_lt_iff {s t : String} : ofText s < ofText t ↔ s < t := by
  constructor
  case mp =>
    intro h
    by_cases hs : s < t
    case pos => exact hs
    case neg =>
      by_cases he : t = s
      case pos => exact absurd (he ▸ h) (List.lt_irrefl _)
      case neg => exact absurd h (List.lt_asymm <| ofText_lt <| Std.lt_of_le_of_ne hs he)
  case mpr => exact ofText_lt

end Bytes
end LedgerWire
