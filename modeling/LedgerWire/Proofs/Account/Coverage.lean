import LedgerWire.Account.Transaction
import LedgerWire.Proofs.Bytes.Text
import LedgerWire.Proofs.Json.Paths

namespace LedgerWire

-- Two byte strings that a hash does not tell apart.
structure Digest.Collision {α : Type} (hash : Bytes → α) (bs bs' : Bytes) : Prop where
  differ : bs ≠ bs'
  equal  : hash bs = hash bs'

theorem Digest.eq_iff_eq_or_collision {α : Type} (hash : Bytes → α) (bs bs' : Bytes) :
    hash bs = hash bs' ↔ bs = bs' ∨ Collision hash bs bs' := by
  constructor
  case mp  => exact fun h => or_iff_not_imp_left.mpr fun hn => ⟨hn, h⟩
  case mpr =>
    intro h
    cases h
    case inl h => rw [h]
    case inr h => exact h.equal

namespace Transaction

variable {tx tx' : Fields}

def covered (tx : Fields) : Bytes :=
  Bytes.ofText (Json.object (tx.erase signatureField)).canonical

-- But for the order in which fields stand, the transactions have the same values under all keys
-- other than that of the signature.
def Agree (tx tx' : Fields) : Prop :=
  ∀ key, key ≠ signatureField → Option.Rel Json.Reorders (tx.get? key) (tx'.get? key)

theorem signingDigest_eq_iff : signingDigest tx = signingDigest tx' ↔
    covered tx = covered tx' ∨ Digest.Collision Digest.sha512 (covered tx) (covered tx') :=
  Digest.eq_iff_eq_or_collision ..

theorem reorders_erase_iff (h : (Json.object tx).DistinctKeys) (h' : (Json.object tx').DistinctKeys)
    (key : String) :
    (Json.object (tx.erase key)).Reorders (.object (tx'.erase key)) ↔
      ∀ k, k ≠ key → Option.Rel Json.Reorders (tx.get? k) (tx'.get? k) := by
  rw [← Json.sorted_eq_iff (h.erase key) (h'.erase key), Json.sorted, Json.sorted,
    Json.object.injEq, Fields.sortedFields_eq_iff]
  refine forall_congr' fun k => ?_
  rw [Fields.get?_erase, Fields.get?_erase]
  split
  case isTrue he  => exact iff_of_true rfl fun hn => absurd he hn
  case isFalse hn =>
    rw [imp_iff_right hn]
    exact (Json.rel_reorders_iff (fun _ => h.field) (fun _ => h'.field)).symm

theorem covered_eq_iff (h : (Json.object tx).DistinctKeys) (h' : (Json.object tx').DistinctKeys) :
    covered tx = covered tx' ↔ Agree tx tx' := by
  rw [covered, covered, Bytes.ofText_injective.eq_iff, Json.canonical_eq_iff_sorted,
    Json.sorted_eq_iff (h.erase _) (h'.erase _), reorders_erase_iff h h', Agree]

-- What stands inside a field is agreed on with the field.
theorem Agree.inside (ha : Agree tx tx') (h : (Json.object tx).DistinctKeys)
    (h' : (Json.object tx').DistinctKeys) {key : String} (hk : key ≠ signatureField)
    (path : List Json.Step) :
    Option.Rel Json.Reorders ((Json.object tx).at? (.field key :: path))
      ((Json.object tx').at? (.field key :: path)) := by
  have hr := (reorders_erase_iff h h' signatureField).mpr ha
  have hi := hr.inside (h.erase _) (h'.erase _) (.field key :: path)
  simpa only [Json.at?, Json.child?, Fields.get?_erase_of_ne _ hk] using hi

-- Equal digests mean that the transactions agree or that the hash has a collision at exactly the
-- bytes it was given. Agreeing leaves out the signature at the top and nothing else: a field of its
-- name further down is compared like any other, and a text under the signer's key in every letter.
theorem signingDigest_covers_fields
    (h : (Json.object tx).DistinctKeys) (h' : (Json.object tx').DistinctKeys) :
    (signingDigest tx = signingDigest tx' ↔
      Agree tx tx' ∨ Digest.Collision Digest.sha512 (covered tx) (covered tx')) ∧
    (Agree tx tx' → ∀ key, key ≠ signatureField → ∀ path,
      let found := (Json.object tx).at? (.field key :: path)
      let found' := (Json.object tx').at? (.field key :: path)
      Option.Rel Json.Reorders found found' ∧
      ∀ value, value.Leaf → (found = some value ↔ found' = some value)) := by
  refine ⟨?_, fun ha key hk path => ?_⟩
  case refine_1 => rw [signingDigest_eq_iff, covered_eq_iff h h']
  case refine_2 =>
    have hi := ha.inside h h' hk path
    exact ⟨hi, fun value => Json.eq_some_iff_of_leaf hi⟩

theorem signingDigest_covers_fields_by_letter_and_depth :
    let tx (signer inner : String) : Fields := [
      (signerField, .string signer), ("Memo", .object [(signatureField, .string inner)]),
      (signatureField, .string "00")
    ]
    (∀ signer inner, (Json.object (tx signer inner)).DistinctKeys) ∧
    ¬Agree (tx "ED0a" "1f") (tx "ED0A" "1f") ∧ ¬Agree (tx "ED0a" "1f") (tx "ED0a" "1F") := by
  intro tx
  have h (signer inner : String) : (Json.object (tx signer inner)).DistinctKeys :=
    (Json.hasDistinctKeys_iff _).mp rfl
  have hl : signingDigest (tx "ED0a" "1f") ≠ signingDigest (tx "ED0A" "1f") := by decide +kernel
  have hd : signingDigest (tx "ED0a" "1f") ≠ signingDigest (tx "ED0a" "1F") := by decide +kernel
  refine ⟨h, fun ha => hl ?_, fun ha => hd ?_⟩
  case refine_1 => exact (signingDigest_covers_fields (h ..) (h ..)).left.mpr (.inl ha)
  case refine_2 => exact (signingDigest_covers_fields (h ..) (h ..)).left.mpr (.inl ha)

end Transaction
end LedgerWire
