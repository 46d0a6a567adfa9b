import LedgerWire.Base58.Checked
import LedgerWire.Proofs.Base58.Spelling

namespace LedgerWire.Base58

variable {bs payload : Bytes} {version : UInt8}

theorem length_frame (version : UInt8) (payload : Bytes) :
    (frame version payload).length = payload.length + 1 + checksumLength := by
  rw [frame, List.length_append, List.length_cons, (checksum _).property]

-- The trailer has a fixed length, so bytes fall apart where they were put together, and it is the
-- checksum alone that decides.
theorem unframe_append {trailer : Bytes} (ht : trailer.length = checksumLength) :
    unframe (version :: payload ++ trailer) =
      if (checksum (version :: payload)).val = trailer then .ok (version, payload)
      else .error (.checksumMismatch (checksum (version :: payload)).val trailer) := by
  have hl : (version :: payload ++ trailer).length - checksumLength =
      (version :: payload).length := by
    rw [List.length_append, ht, Nat.add_sub_cancel]
  have hb : (version :: payload ++ trailer).take (version :: payload).length = version :: payload :=
    List.take_left ..
  have hd : (version :: payload ++ trailer).drop (version :: payload).length = trailer :=
    List.drop_left ..
  have hn : ¬(version :: payload ++ trailer).length < leastChecked := by
    rw [List.length_append, ht, List.length_cons, leastChecked]
    omega
  simp only [unframe, hl, hb, hd, if_neg hn, ne_eq, ite_not]

theorem unframe_frame (version : UInt8) (payload : Bytes) :
    unframe (frame version payload) = .ok (version, payload) := by
  rw [frame, unframe_append (checksum _).property, if_pos rfl]

theorem eq_frame_of_unframe (h : unframe bs = .ok (version, payload)) :
    bs = frame version payload := by
  simp only [unframe] at h
  split at h
  case isTrue => cases h
  case isFalse =>
    split at h
    case isTrue => cases h
    case isFalse hc =>
      split at h
      case h_2 => cases h
      case h_1 hb =>
        cases h
        rw [← List.take_append_drop (bs.length - checksumLength) bs, frame, ← hb, not_not.mp hc]

theorem decodeCheck_encode (bs : Bytes) : decodeCheck (encode bs) = unframe bs := by
  rw [decodeCheck, (decode_eq_ok_iff _ bs).mpr rfl]
  rfl

theorem exists_unframe {text : String} (h : decodeCheck text = .ok (version, payload)) :
    ∃ bs, text = encode bs ∧ unframe bs = .ok (version, payload) := by
  rw [decodeCheck] at h
  cases hd : decode text
  case error error =>
    rw [hd] at h
    cases h
  case ok bs =>
    rw [hd] at h
    exact ⟨bs, (decode_eq_ok_iff text bs).mp hd, h⟩

theorem decodeCheck_encodeCheck (version : UInt8) (payload : Bytes) :
    decodeCheck (encodeCheck version payload) = .ok (version, payload) := by
  rw [encodeCheck, decodeCheck_encode, unframe_frame]

-- So a text fixes both its version and its payload.
theorem encodeCheck_inj {version' : UInt8} {payload' : Bytes}
    (h : encodeCheck version payload = encodeCheck version' payload') :
    version = version' ∧ payload = payload' := by
  have hd := decodeCheck_encodeCheck version payload
  rw [h, decodeCheck_encodeCheck] at hd
  cases hd
  exact ⟨rfl, rfl⟩

-- SHA-256 could be any function here: what is checked is the whole frame.
theorem decodeCheck_eq_ok_iff (text : String) (version : UInt8) (payload : Bytes) :
    decodeCheck text = .ok (version, payload) ↔ text = encodeCheck version payload := by
  constructor
  case mp =>
    intro h
    rw [decodeCheck] at h
    cases hd : decode text
    case error error =>
      rw [hd] at h
      cases h
    case ok bs =>
      rw [hd] at h
      rw [encodeCheck, ← eq_frame_of_unframe h]
      exact (decode_eq_ok_iff text bs).mp hd
  case mpr =>
    intro h
    rw [decodeCheck, (decode_eq_ok_iff text _).mpr h]
    exact unframe_frame version payload

end LedgerWire.Base58
