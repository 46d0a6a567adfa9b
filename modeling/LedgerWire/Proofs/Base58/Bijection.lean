import LedgerWire.Proofs.Base58.Spelling

namespace LedgerWire.Base58

variable {c s : Char} {cs : List Char} {position start : Nat} {n : Limbs} {error : Error}

theorem digit?_eq_none_iff : digit? c = none ↔ c ∉ alphabet :=
  List.idxOf?_eq_none_iff

-- The character is the first one that is no symbol. Positions count characters from zero.
structure FirstForeign (cs : List Char) (c : Char) (position : Nat) : Prop where
  found   : cs[position]? = some c
  foreign : c ∉ alphabet
  symbols : ∀ s ∈ cs.take position, s ∈ alphabet

namespace FirstForeign

theorem cons_iff_of_mem (h : s ∈ alphabet) :
    FirstForeign (s :: cs) c position ↔ ∃ p, position = p + 1 ∧ FirstForeign cs c p := by
  constructor
  case mp =>
    intro ⟨hc, hf, hs⟩
    cases position
    case zero => cases hc; exact absurd h hf
    case succ p =>
      exact ⟨p, rfl, hc, hf, fun s mem => hs s <| .tail _ mem⟩
  case mpr =>
    rintro ⟨p, rfl, hc, hf, hs⟩
    exact ⟨hc, hf, List.forall_mem_cons.mpr ⟨h, hs⟩⟩

theorem cons_iff_of_not_mem (h : s ∉ alphabet) :
    FirstForeign (s :: cs) c position ↔ c = s ∧ position = 0 := by
  constructor
  case mp =>
    intro ⟨hc, _, hs⟩
    cases position
    case zero   => exact ⟨(Option.some.inj hc).symm, rfl⟩
    case succ p => exact absurd (hs s <| .head _) h
  case mpr =>
    rintro ⟨rfl, rfl⟩
    exact ⟨rfl, h, nofun⟩

theorem exists_iff : (∃ c position, FirstForeign cs c position) ↔ ¬∀ s ∈ cs, s ∈ alphabet := by
  induction cs
  case nil => simpa using fun c position (h : FirstForeign [] c position) => nomatch h.found
  case cons s cs hi =>
    rw [List.forall_mem_cons]
    by_cases hs : s ∈ alphabet
    case pos =>
      simp only [cons_iff_of_mem hs, hs, true_and, ← hi]
      exact exists_congr fun c => ⟨fun ⟨_, p, _, h⟩ => ⟨p, h⟩, fun ⟨p, h⟩ => ⟨_, p, rfl, h⟩⟩
    case neg => simp [cons_iff_of_not_mem hs, hs]

end FirstForeign

-- Reading stops at the first character that is no symbol, wherever it started to count.
theorem read_eq_error_iff : read n start cs = .error error ↔
    ∃ c position, FirstForeign cs c position ∧ error = .invalidCharacter c (start + position) := by
  induction cs generalizing n start
  case nil =>
    refine iff_of_false nofun fun ⟨_, _, h, _⟩ => ?_
    cases h.found
  case cons s cs hi =>
    rw [read]
    split
    case h_1 d hd =>
      have hs : s ∈ alphabet := by
        by_contra hn
        simp [digit?_eq_none_iff.mpr hn] at hd
      rw [hi]
      simp only [FirstForeign.cons_iff_of_mem hs]
      constructor
      case mp =>
        rintro ⟨c, p, h, he⟩
        exact ⟨c, _, ⟨p, rfl, h⟩, by rw [he, Nat.add_assoc, Nat.add_comm 1]⟩
      case mpr =>
        rintro ⟨c, _, ⟨p, rfl, h⟩, he⟩
        exact ⟨c, p, h, by rw [he, Nat.add_assoc, Nat.add_comm 1]⟩
    case h_2 hd =>
      simp [FirstForeign.cons_iff_of_not_mem (digit?_eq_none_iff.mp hd), eq_comm]

theorem decode_eq_error_iff (text : String) : decode text = .error error ↔
    ∃ c position, FirstForeign text.toList c position ∧ error = .invalidCharacter c position := by
  have hr := @read_eq_error_iff text.toList 0 .zero error
  simp only [Nat.zero_add] at hr
  rw [← hr, decode, decodeChars]
  cases read .zero 0 text.toList
  case ok    => constructor <;> rintro ⟨⟩
  case error => constructor <;> rintro ⟨⟩ <;> rfl

theorem exists_decode_iff (text : String) :
    (∃ bs, decode text = .ok bs) ↔ ∀ c ∈ text.toList, c ∈ alphabet := by
  rw [← not_iff_not, ← FirstForeign.exists_iff]
  cases hd : decode text
  case ok bs =>
    refine iff_of_false (not_not.mpr ⟨bs, rfl⟩) fun ⟨c, position, h⟩ => ?_
    cases hd.symm.trans <| (decode_eq_error_iff text).mpr ⟨c, position, h, rfl⟩
  case error error =>
    have ⟨c, position, h, _⟩ := (decode_eq_error_iff text).mp hd
    exact iff_of_true nofun ⟨c, position, h⟩

theorem toList_encode (bs : Bytes) : (encode bs).toList =
    List.replicate (bs.takeWhile (· == 0)).length zeroSymbol ++
      (Nat.digits 58 bs.toNatBE).reverse.map symbol := by
  rw [encode, String.toList_ofList, encodeChars, digits_eq, Limbs.value_ofBytes, leadingZeros,
    List.map_const', List.map_reverse]

-- A byte string is spelled with a zero symbol for each zero byte in front, and then with the
-- shortest numeral of its value. Spelling is undone by reading, and reading by spelling. What cannot
-- be read are the texts with a foreign character, and they are refused for the first of them.
theorem spells_byte_strings (bs : Bytes) (text : String) :
    (encode bs).toList = List.replicate (bs.takeWhile (· == 0)).length zeroSymbol ++
      (Nat.digits 58 bs.toNatBE).reverse.map symbol ∧
    decode (encode bs) = .ok bs ∧
    ((∃ bs, decode text = .ok bs) ↔ ∀ c ∈ text.toList, c ∈ alphabet) ∧
    (∀ bs, decode text = .ok bs → encode bs = text) ∧
    ∀ error, decode text = .error error ↔ ∃ c position,
      FirstForeign text.toList c position ∧ error = .invalidCharacter c position := by
  refine ⟨toList_encode bs, (decode_eq_ok_iff _ bs).mpr rfl, exists_decode_iff text, ?_,
    fun error => decode_eq_error_iff text⟩
  exact fun bs h => ((decode_eq_ok_iff text bs).mp h).symm

end LedgerWire.Base58
