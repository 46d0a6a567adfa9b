import LedgerWire.Proofs.Base58.Length

namespace LedgerWire.Base58

-- Symbols in a buffer that has room for so many of them and cannot grow.
structure Buffer (capacity : Nat) where
  symbols : List Char
  fits    : symbols.length ≤ capacity

namespace Buffer

variable {capacity : Nat} {cs : List Char}

def empty (capacity : Nat) : Buffer capacity :=
  ⟨[], Nat.zero_le _⟩

def holding? (capacity : Nat) (cs : List Char) : Option (Buffer capacity) :=
  if h : cs.length ≤ capacity then some ⟨cs, h⟩ else none

def push? (buffer : Buffer capacity) (c : Char) : Option (Buffer capacity) :=
  if h : buffer.symbols.length < capacity then
    some ⟨buffer.symbols ++ [c], by rwa [List.length_append]⟩
  else none

def pushAll? (buffer : Buffer capacity) (cs : List Char) : Option (Buffer capacity) :=
  cs.foldlM push? buffer

-- Puts a symbol into the buffer for each digit of the number, as long division yields them.
def pushDigits? (buffer : Buffer capacity) (n : Limbs) : Option (Buffer capacity) :=
  if n.isZero then some buffer
  else do
    let buffer ← buffer.push? (symbol (n.divMod base).2.toNat)
    buffer.pushDigits? (n.divMod base).1
termination_by n.value
decreasing_by
  have := Limbs.value_pos (Bool.eq_false_iff.mpr ‹¬n.isZero = true›)
  rw [Limbs.value_divMod_fst n (by decide)]
  exact Nat.div_lt_self this (by decide)

theorem pushAll?_cons (buffer : Buffer capacity) (c : Char) (cs : List Char) :
    buffer.pushAll? (c :: cs) = buffer.push? c >>= fun buffer => buffer.pushAll? cs :=
  rfl

theorem holding?_of_le (h : cs.length ≤ capacity) : holding? capacity cs = some ⟨cs, h⟩ :=
  dif_pos h

theorem holding?_of_lt (h : capacity < cs.length) : holding? capacity cs = none :=
  dif_neg <| Nat.not_le.mpr h

theorem push?_eq (buffer : Buffer capacity) (c : Char) :
    buffer.push? c = holding? capacity (buffer.symbols ++ [c]) := by
  simp only [push?, holding?, List.length_append, List.length_singleton, Nat.lt_iff_add_one_le]

-- Symbols are only added, so it does not matter where in the middle there is no room any more.
theorem holding?_bind_pushAll? (cs more : List Char) :
    (holding? capacity cs >>= fun buffer => buffer.pushAll? more) =
      holding? capacity (cs ++ more) := by
  induction more generalizing cs
  case nil =>
    rw [List.append_nil]
    exact bind_pure _
  case cons c more hi =>
    by_cases h : cs.length ≤ capacity
    case pos =>
      rw [List.append_cons, ← hi, holding?_of_le h, ← push?_eq ⟨cs, h⟩]
      exact pushAll?_cons ⟨cs, h⟩ c more
    case neg =>
      have h := Nat.not_le.mp h
      have hl : capacity < (cs ++ c :: more).length := by
        rw [List.length_append]
        exact Nat.lt_add_right _ h
      rw [holding?_of_lt h, holding?_of_lt hl]
      rfl

theorem pushAll?_eq (buffer : Buffer capacity) (cs : List Char) :
    buffer.pushAll? cs = holding? capacity (buffer.symbols ++ cs) := by
  rw [← holding?_bind_pushAll?, holding?_of_le buffer.fits]
  rfl

theorem pushDigits?_eq (buffer : Buffer capacity) (n : Limbs) :
    buffer.pushDigits? n = buffer.pushAll? ((digits n).map symbol) := by
  fun_induction digits n generalizing buffer
  case case1 n hz =>
    rw [pushDigits?, if_pos hz]
    rfl
  case case2 n hz hi =>
    rw [pushDigits?, if_neg hz, List.map_cons, pushAll?_cons]
    exact bind_congr hi

end Buffer

-- Encoding as it is done, but for failing where there is no room for a symbol.
def encodeWithin? (capacity : Nat) (bs : Bytes) : Option String := do
  let buffer ← (Buffer.empty capacity).pushDigits? (.ofBytes bs)
  let buffer ← buffer.pushAll? ((leadingZeros bs).map fun _ => zeroSymbol)
  return String.ofList buffer.symbols.reverse

theorem encodeChars_eq_reverse (bs : Bytes) :
    encodeChars bs = ((digits (.ofBytes bs)).map symbol ++
      (leadingZeros bs).map fun _ => zeroSymbol).reverse := by
  rw [List.reverse_append, List.map_const', List.reverse_replicate, encodeChars, List.map_const']

theorem encodeWithin?_eq (capacity : Nat) (bs : Bytes) : encodeWithin? capacity bs =
    if (encode bs).length ≤ capacity then some (encode bs) else none := by
  have hr := encodeChars_eq_reverse bs
  have hl := congrArg List.length hr
  rw [List.length_reverse] at hl
  have he : (Buffer.empty capacity).symbols = [] := rfl
  rw [encodeWithin?, Buffer.pushDigits?_eq, Buffer.pushAll?_eq, ← bind_assoc,
    Buffer.holding?_bind_pushAll?, he, List.nil_append, encode, String.length_ofList, hl, hr]
  split
  case isTrue h =>
    rw [Buffer.holding?_of_le h]
    rfl
  case isFalse h =>
    rw [Buffer.holding?_of_lt <| Nat.not_le.mp h]
    rfl

variable {bs : Bytes} {m : Nat}

theorem length_encode_zero_cons (bs : Bytes) :
    (encode (0 :: bs)).length = (encode bs).length + 1 := by
  have hz : Numeral.zeros (Bytes.places (0 :: bs)) = Numeral.zeros bs.places + 1 := rfl
  have hv : Bytes.toNatBE (0 :: bs) = bs.toNatBE := by
    rw [Bytes.toNatBE_eq_value, Bytes.toNatBE_eq_value]
    exact Numeral.value_zero_cons ..
  rw [length_encode, length_encode, hz, hv, Nat.add_right_comm]

theorem length_encode_zeros (n : Nat) : (encode (List.replicate n 0)).length = n := by
  induction n
  case zero => cbv
  case succ n hi => rw [List.replicate_succ, length_encode_zero_cons, hi]

theorem toNatBE_lt (bs : Bytes) : bs.toNatBE < 256 ^ bs.length := by
  have hv := Numeral.value_lt (by decide) bs.places_lt
  rwa [← Bytes.toNatBE_eq_value, Bytes.places, List.length_map] at hv

-- No text is longer than the numbers of so many bytes make it. A zero in front is no exception: it
-- is one byte and one symbol, and a byte has more values than a symbol.
theorem pow_lt_of_lt_length (h : m < (encode bs).length) : 58 ^ m < 256 ^ bs.length := by
  induction bs generalizing m
  case nil =>
    rw [← List.replicate_zero, length_encode_zeros] at h
    contradiction
  case cons b bs hi =>
    by_cases hb : b = 0
    case pos =>
      subst hb
      rw [length_encode_zero_cons] at h
      rw [List.length_cons]
      cases m
      case zero => exact Nat.one_lt_pow (Nat.succ_ne_zero _) (by decide)
      case succ m =>
        have hm := hi <| Nat.lt_of_succ_lt_succ h
        exact Nat.mul_lt_mul_of_lt_of_le hm (by decide) (by decide)
    case neg =>
      rw [length_encode, zeros_places_cons hb, Nat.zero_add,
        Nat.lt_digits_length_iff (by decide)] at h
      exact Nat.lt_of_le_of_lt h (toNatBE_lt _)

theorem toNatBE_greatest (n : Nat) : Bytes.toNatBE (List.replicate n 255) + 1 = 256 ^ n := by
  rw [Bytes.toNatBE_eq_value, Bytes.places, List.map_replicate]
  induction n
  case zero => rfl
  case succ n hi =>
    rw [List.replicate_succ, Numeral.value_cons, List.length_replicate, Nat.add_assoc, hi,
      ← Nat.succ_mul, Nat.pow_succ']
    rfl

theorem length_encode_le_greatest (bs : Bytes) :
    (encode bs).length ≤ (encode (List.replicate bs.length 255)).length := by
  refine le_of_forall_lt fun m h => ?_
  have hm := pow_lt_of_lt_length h
  rw [← toNatBE_greatest, Nat.lt_add_one_iff] at hm
  rw [length_encode]
  exact Nat.lt_add_left _ <| (Nat.lt_digits_length_iff (by decide) _).mpr hm

-- The room that is reserved is enough, whatever the bytes are. Their text has one symbol a byte or
-- more, and just that if all of them are zeros. It is never longer than the bound, and never longer
-- than the text of as many of the greatest bytes.
theorem reserved_room_suffices (bs : Bytes) :
    encodeWithin? (138 * bs.length / 100 + 1) bs = some (encode bs) ∧
    bs.length ≤ (encode bs).length ∧ (encode bs).length ≤ 138 * bs.length / 100 + 1 ∧
    (encode (List.replicate bs.length 0)).length = bs.length ∧
    (encode bs).length ≤ (encode (List.replicate bs.length 255)).length := by
  have hle := length_encode_le bs
  refine ⟨?_, length_le_encode bs, hle, length_encode_zeros _, length_encode_le_greatest bs⟩
  rw [encodeWithin?_eq, if_pos hle]

-- The bound is met, also behind a zero.
example : (encode [0, 255, 255, 255]).length = 138 * 4 / 100 + 1 := by cbv

end LedgerWire.Base58
