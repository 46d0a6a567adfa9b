import LedgerWire.Base58.Basic
import LedgerWire.Proofs.Bytes.Numeral
import Mathlib.Tactic.Ring

namespace LedgerWire.Base58

theorem symbol_injOn : ∀ d < 58, ∀ d' < 58, symbol d = symbol d' → d = d' := by
  decide +kernel

theorem digit?_symbol {d : Nat} (h : d < 58) : digit? (symbol d) = some d := by
  have : ∀ d < 58, digit? (symbol d) = some d := by decide +kernel
  exact this d h

theorem symbol_digit? {c : Char} {d : Nat} (h : digit? c = some d) : d < 58 ∧ symbol d = c := by
  have ⟨hd, hc, _⟩ := List.idxOf?_eq_some_iff.mp h
  have hl : alphabet.length = 58 := by decide +kernel
  refine ⟨hl ▸ hd, ?_⟩
  rw [symbol, List.getD_eq_getElem?_getD, List.getElem?_eq_getElem hd, hc, Option.getD_some]

-- Long division yields the digits from the least significant on.
theorem digits_eq (n : Limbs) : digits n = Nat.digits 58 n.value := by
  fun_induction digits n
  case case1 n hz =>
    have hv : n.value = 0 := by rw [Limbs.value, List.isEmpty_iff.mp hz, limbsValue]
    rw [hv, Nat.digits_zero]
  case case2 n hz hi =>
    have hb : 0 < base.toNat := by decide
    have hv := Limbs.value_pos (Bool.eq_false_iff.mpr hz)
    rw [hi, n.toNat_divMod_snd hb, n.value_divMod_fst hb, Nat.digits_def' (by decide) hv]
    rfl

theorem encodeChars_eq (bs : Bytes) :
    encodeChars bs =
      (Numeral.write 58 (Numeral.zeros bs.places) (Numeral.value 256 bs.places)).map symbol := by
  rw [encodeChars, digits_eq, Limbs.value_ofBytes, Bytes.toNatBE_eq_value, leadingZeros,
    Bytes.zeros_places, Numeral.write, List.map_append, List.map_reverse, List.map_replicate,
    List.map_const']
  rfl

-- No symbol but the first of the alphabet spells a zero.
theorem zeros_symbols {ds : List Nat} (h : ∀ d ∈ ds, d < 58) :
    ((ds.map symbol).takeWhile (· == zeroSymbol)).length = Numeral.zeros ds := by
  induction ds
  case nil => rfl
  case cons d ds hi =>
    have hi := hi fun d mem => h d <| .tail _ mem
    have hz : (symbol d == zeroSymbol) = decide (d = 0) := by
      rw [beq_eq_decide, decide_eq_decide]
      exact ⟨symbol_injOn d (h d <| .head _) 0 (by decide), fun he => he ▸ rfl⟩
    rw [Numeral.zeros] at hi ⊢
    rw [List.map_cons, List.takeWhile_cons, List.takeWhile_cons, hz]
    split
    case isTrue  => rw [List.length_cons, List.length_cons, hi]
    case isFalse => rfl

-- Reading goes on with the number of the digits read so far.
theorem read_symbols {ds : List Nat} (h : ∀ d ∈ ds, d < 58) (n : Limbs) (position : Nat) :
    ∃ m, read n position (ds.map symbol) = .ok m ∧
      m.value = n.value * 58 ^ ds.length + Numeral.value 58 ds := by
  induction ds generalizing n position
  case nil => exact ⟨n, rfl, by simp [Numeral.value]⟩
  case cons d ds hi =>
    have hd := h d <| .head _
    obtain ⟨m, hr, hm⟩ :=
      hi (fun d mem => h d <| .tail _ mem) (n.mulAdd base (.ofNat d)) (position + 1)
    refine ⟨m, by rw [List.map_cons, read, digit?_symbol hd]; exact hr, ?_⟩
    have hu : (UInt32.ofNat d).toNat = d := UInt32.toNat_ofNat_of_lt' (Nat.lt_trans hd (by decide))
    rw [hm, Limbs.value_mulAdd, hu, Numeral.value_cons, List.length_cons, Nat.pow_succ']
    simp only [base, UInt32.reduceToNat]
    ring

theorem symbols_of_read {n m : Limbs} {position : Nat} {cs : List Char}
    (h : read n position cs = .ok m) :
    ∃ ds : List Nat, (∀ d ∈ ds, d < 58) ∧ cs = ds.map symbol := by
  induction cs generalizing n position
  case nil => exact ⟨[], nofun, rfl⟩
  case cons c cs hi =>
    rw [read] at h
    split at h
    case h_2 => cases h
    case h_1 d hd =>
      have ⟨ds, hl, hc⟩ := hi h
      have ⟨hd, hs⟩ := symbol_digit? hd
      exact ⟨d :: ds, List.forall_mem_cons.mpr ⟨hd, hl⟩, by rw [List.map_cons, hs, hc]⟩

theorem decodeChars_symbols {ds : List Nat} (h : ∀ d ∈ ds, d < 58) : ∃ bs,
    decodeChars (ds.map symbol) = .ok bs ∧
      bs.places = Numeral.write 256 (Numeral.zeros ds) (Numeral.value 58 ds) := by
  have ⟨m, hr, hm⟩ := read_symbols h .zero 0
  refine ⟨_, by rw [decodeChars, hr]; rfl, ?_⟩
  have hz : Limbs.zero.value = 0 := rfl
  rw [hz, Nat.zero_mul, Nat.zero_add] at hm
  rw [Bytes.places, List.map_append, List.map_const', zeros_symbols h, List.map_replicate,
    ← Bytes.places, Limbs.places_toBytes, hm]
  rfl

theorem decodeChars_eq_ok_iff (cs : List Char) (bs : Bytes) :
    decodeChars cs = .ok bs ↔ cs = encodeChars bs := by
  rw [encodeChars_eq]
  constructor
  case mp =>
    intro h
    cases hr : read .zero 0 cs
    case error error =>
      rw [decodeChars, hr] at h
      cases h
    case ok n =>
      -- The text spells digits, and the bytes it is decoded to have their zeros and their value. So
      -- it is the digits that these bytes are spelled with.
      obtain ⟨ds, hl, rfl⟩ := symbols_of_read hr
      have ⟨bs', hd, hp⟩ := decodeChars_symbols hl
      cases h.symm.trans hd
      rw [hp, Numeral.zeros_write (by decide), Numeral.value_write,
        Numeral.write_of_lt (by decide) hl]
  case mpr =>
    rintro rfl
    -- The spelling has the zeros and the value of the bytes, and no other bytes have both.
    generalize hn : Numeral.write 58 _ _ = ds
    have hl : ∀ d ∈ ds, d < 58 := fun d mem => Numeral.lt_of_mem_write (by decide) (hn ▸ mem)
    have ⟨bs', hd, hp⟩ := decodeChars_symbols hl
    rw [← hn, Numeral.zeros_write (by decide), Numeral.value_write,
      Numeral.write_of_lt (by decide) bs.places_lt] at hp
    exact Bytes.places_injective hp ▸ hd

theorem decode_eq_ok_iff (text : String) (bs : Bytes) :
    decode text = .ok bs ↔ text = encode bs := by
  rw [decode, decodeChars_eq_ok_iff, encode, ← String.toList_inj, String.toList_ofList]

end LedgerWire.Base58
