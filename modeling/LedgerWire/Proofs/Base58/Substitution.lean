import LedgerWire.Proofs.Base58.Bijection
import LedgerWire.Proofs.Base58.Framing
import LedgerWire.Proofs.Base58.Length

namespace LedgerWire.Base58

variable {bs payload : Bytes} {version : UInt8} {c d : Char} {i position : Nat}

-- The text with another character at the position, if the position is in the text.
def substitute (text : String) (i : Nat) (c : Char) : String :=
  .ofList (text.toList.set i c)

theorem length_substitute (text : String) (i : Nat) (c : Char) :
    (substitute text i c).length = text.length := by
  rw [substitute, String.length_ofList, List.length_set, String.length_toList]

theorem mem_alphabet_of_encode (bs : Bytes) : ∀ s ∈ (encode bs).toList, s ∈ alphabet :=
  exists_decode_iff _ |>.mp ⟨bs, (decode_eq_ok_iff _ bs).mpr rfl⟩

-- The substituted character is the only one that can be foreign.
theorem firstForeign_set_iff {cs : List Char} (hs : ∀ s ∈ cs, s ∈ alphabet) (hi : i < cs.length) :
    FirstForeign (cs.set i c) d position ↔ c ∉ alphabet ∧ d = c ∧ position = i := by
  constructor
  case mp =>
    intro ⟨hd, hf, _⟩
    rw [List.getElem?_set] at hd
    split at hd
    case isTrue hp =>
      cases hd
      exact ⟨hf, rfl, hp.symm⟩
    case isFalse => exact absurd (hs d <| List.mem_of_getElem? hd) hf
  case mpr =>
    rintro ⟨hf, rfl, rfl⟩
    refine ⟨List.getElem?_set_self hi, hf, fun s mem => hs s ?_⟩
    rw [List.take_set_of_le (Nat.le_refl _)] at mem
    exact List.mem_of_mem_take mem

theorem decode_substitute_eq_error_iff {error : Error} (hi : i < (encode bs).length) :
    decode (substitute (encode bs) i c) = .error error ↔
      c ∉ alphabet ∧ error = .invalidCharacter c i := by
  rw [← String.length_toList] at hi
  rw [decode_eq_error_iff, substitute, String.toList_ofList]
  simp only [firstForeign_set_iff (mem_alphabet_of_encode bs) hi]
  constructor
  case mp  => rintro ⟨_, _, ⟨hf, rfl, rfl⟩, he⟩; exact ⟨hf, he⟩
  case mpr => exact fun ⟨hf, he⟩ => ⟨_, _, ⟨hf, rfl, rfl⟩, he⟩

theorem zeros_places_zero (bs : Bytes) :
    Numeral.zeros (Bytes.places (0 :: bs)) = Numeral.zeros bs.places + 1 :=
  rfl

-- Two zeros in front are the most that a frame of six bytes has. The only frame that could have more
-- is that of one zero byte under version zero, and its checksum does not begin with a zero.
theorem zeros_frame_le (version b : UInt8) :
    Numeral.zeros (Bytes.places (frame version [b])) ≤ 2 := by
  by_cases hv : version = 0
  case neg =>
    rw [frame, List.cons_append, zeros_places_cons hv]
    decide
  case pos =>
    subst hv
    by_cases hb : b = 0
    case neg =>
      rw [frame, List.cons_append, zeros_places_zero, List.cons_append, zeros_places_cons hb]
      decide
    case pos =>
      subst hb
      decide +kernel

-- No text of six characters or fewer frames a payload, and no longer one decodes to too few bytes.
theorem length_encodeCheck_ge (version : UInt8) (hp : payload ≠ []) :
    7 ≤ (encodeCheck version payload).length := by
  have hl : (frame version payload).length = payload.length + 5 := length_frame version payload
  have hle := length_le_encode (frame version payload)
  rw [encodeCheck]
  rcases payload with _ | ⟨b, _ | ⟨b', bs⟩⟩
  case nil => exact absurd rfl hp
  case cons.nil =>
    rw [List.length_singleton] at hl
    have hz := zeros_frame_le version b
    have hlt := @length_lt_encode (frame version [b]) (by omega)
    omega
  case cons.cons =>
    rw [List.length_cons, List.length_cons] at hl
    omega

theorem length_of_decode {text : String} (h : decode text = .ok bs) (hl : 7 ≤ text.length) :
    5 ≤ bs.length := by
  rw [(decode_eq_ok_iff text bs).mp h] at hl
  have hle := length_encode_le bs
  omega

-- Enough bytes are a version, a payload and a trailer, whatever they are.
theorem exists_trailer (hl : 5 ≤ bs.length) : ∃ version payload trailer,
    bs = version :: payload ++ trailer ∧ trailer.length = checksumLength := by
  have hs := (bs.take_append_drop (bs.length - checksumLength)).symm
  have ht : (bs.drop (bs.length - checksumLength)).length = checksumLength := by
    rw [List.length_drop, checksumLength]
    omega
  cases hb : bs.take (bs.length - checksumLength)
  case nil =>
    have hn := congrArg List.length hb
    rw [List.length_take, List.length_nil, checksumLength] at hn
    omega
  case cons version payload => exact ⟨version, payload, _, hb ▸ hs, ht⟩

theorem substitute_ne {text : String} (hi : i < text.length) (hc : text.toList[i]? ≠ some c) :
    substitute text i c ≠ text := by
  intro h
  rw [← String.length_toList] at hi
  have hl : text.toList.set i c = text.toList := by
    rw [← String.toList_ofList (l := text.toList.set i c)]
    exact congrArg String.toList h
  exact hc <| hl ▸ List.getElem?_set_self hi

theorem decodeCheck_of_decode {text : String} (h : decode text = .ok bs) :
    decodeCheck text = unframe bs := by
  rw [decodeCheck, h]
  rfl

theorem decodeCheck_of_error {text : String} {error : Error} (h : decode text = .error error) :
    decodeCheck text = .error error := by
  rw [decodeCheck, h]
  rfl

theorem exists_decode_substitute (version : UInt8) (hp : payload ≠ [])
    (hi : i < (encodeCheck version payload).length) (hc : c ∈ alphabet) :
    ∃ version' payload' trailer,
      decode (substitute (encodeCheck version payload) i c) =
        .ok (version' :: payload' ++ trailer) ∧ trailer.length = checksumLength := by
  cases hd : decode (substitute (encodeCheck version payload) i c)
  case error error =>
    rw [encodeCheck] at hi hd
    exact absurd hc (decode_substitute_eq_error_iff hi |>.mp hd).left
  case ok bs =>
    have hl := length_encodeCheck_ge version hp
    rw [← length_substitute _ i c] at hl
    obtain ⟨version', payload', trailer, rfl, ht⟩ := exists_trailer (length_of_decode hd hl)
    exact ⟨version', payload', trailer, rfl, ht⟩

-- A text with one character replaced does not decode to what it was written for, and it is never
-- refused for its length. If the new character is foreign, it is named with its position, and else
-- it is the checksum that decides: either it does not fit the bytes that the text now spells, or the
-- text is that of another version and payload whose checksum happens to be these four bytes.
theorem substitutions_are_noticed (version : UInt8) (payload : Bytes) (i : Nat) (c : Char)
    (hp : payload ≠ []) (hi : i < (encodeCheck version payload).length)
    (hc : (encodeCheck version payload).toList[i]? ≠ some c) :
    let text := substitute (encodeCheck version payload) i c
    decodeCheck text ≠ .ok (version, payload) ∧
    (∀ length least, decodeCheck text ≠ .error (.tooShort length least)) ∧
    (∀ d position, decodeCheck text = .error (.invalidCharacter d position) ↔
      c ∉ alphabet ∧ d = c ∧ position = i) ∧
    (c ∈ alphabet → ∃ version' payload' trailer,
      decode text = .ok (version' :: payload' ++ trailer) ∧ trailer.length = checksumLength ∧
      if (checksum (version' :: payload')).val = trailer then
        decodeCheck text = .ok (version', payload') ∧
          (version', payload') ≠ (version, payload) ∧ encodeCheck version' payload' = text
      else
        decodeCheck text =
          .error (.checksumMismatch (checksum (version' :: payload')).val trailer)) := by
  intro text
  have hn : decodeCheck text ≠ .ok (version, payload) := by
    rw [ne_eq, decodeCheck_eq_ok_iff]
    exact substitute_ne hi hc
  by_cases ha : c ∈ alphabet
  case neg =>
    have he : decodeCheck text = .error (.invalidCharacter c i) :=
      decodeCheck_of_error <| decode_substitute_eq_error_iff hi |>.mpr ⟨ha, rfl⟩
    refine ⟨hn, fun _ _ => ?_, fun d position => ?_, fun h => absurd h ha⟩
    · rw [he]
      nofun
    · rw [he]
      simp [ha, eq_comm]
  case pos =>
    obtain ⟨version', payload', trailer, hd, ht⟩ := exists_decode_substitute version hp hi ha
    have he := (decodeCheck_of_decode hd).trans (unframe_append ht)
    refine ⟨hn, fun _ _ => ?_, fun d position => ?_, fun _ => ⟨_, _, _, hd, ht, ?_⟩⟩
    · rw [he]
      split <;> nofun
    · rw [he]
      split <;> simp [ha]
    · split
      case isFalse h => rw [he, if_neg h]
      case isTrue h =>
        have hok := he.trans (if_pos h)
        refine ⟨hok, fun heq => hn ?_, (decodeCheck_eq_ok_iff ..).mp hok |>.symm⟩
        rw [hok, heq]

-- Here a zero symbol becomes a digit, and the text spells one byte fewer than before. Without any
-- payload, as few as four bytes could be left.
theorem substitutions_are_noticed_in_front :
    let text := encodeCheck 0 [0, 0]
    text.toList[0]? ≠ some 'p' ∧ 'p' ∈ alphabet ∧
      decodeCheck (substitute text 0 'p') ≠ .ok (0, [0, 0]) ∧
      ∀ length least, decodeCheck (substitute text 0 'p') ≠ .error (.tooShort length least) := by
  have hc : (encodeCheck 0 [0, 0]).toList[0]? ≠ some 'p' := by decide +kernel
  have h := substitutions_are_noticed 0 [0, 0] 0 'p' (by decide) (by decide +kernel) hc
  exact ⟨hc, by decide +kernel, h.left, h.right.left⟩

end LedgerWire.Base58
