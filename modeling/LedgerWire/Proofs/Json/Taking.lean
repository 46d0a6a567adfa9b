import LedgerWire.Proofs.Json.Lookup
import LedgerWire.Proofs.Json.Reading

namespace LedgerWire

namespace Json

open Reader

-- If the reader of values takes this one, it takes it whole.
def Takes (item : List Char → Option (Json × List Char)) (escape : Char → List Char) (v : Json) :
    Prop :=
  ∀ rest w s, Ends rest → item (write escape v ++ rest) = some (w, s) → s = rest

variable {escape : Char → List Char}

-- Where a number ends depends on its parts only.
theorem parts_of_number {s rest : List Char} {w : Json} (h : number s = some (w, rest)) :
    ∃ p, parts s = some (p, rest) := by
  rw [number] at h
  simp only at h
  split at h
  case isTrue => cases h
  case isFalse =>
    obtain ⟨⟨places, s₁⟩, hf, h⟩ := Option.bind_eq_some_iff.mp h
    obtain ⟨⟨power, s₂⟩, he, h⟩ := Option.bind_eq_some_iff.mp h
    obtain ⟨value, hv, h⟩ := Option.bind_eq_some_iff.mp h
    cases h
    exact ⟨_, by simp only [parts, hf, he, Option.bind_eq_bind, Option.bind_some]; rfl⟩

theorem takes_number {v : Json} (hv : v.lead = '0') (depth : Nat) :
    Takes (value depth) escape v := by
  intro rest w s hr h
  have ⟨p, hd, ht, _⟩ := @exists_parts escape v hv
  have ⟨c, hc, hn⟩ := head_text hd rest
  have hb : c ≠ '[' ∧ c ≠ '{' := by constructor <;> rintro rfl <;> exact absurd hn (by decide)
  rw [ht, value_of_scalar (by simp [hc, hb.left]) (by simp [hc, hb.right]),
    scalar_of_number hc hn] at h
  have ⟨_, hp⟩ := parts_of_number h
  rw [parts_text hd hr] at hp
  cases hp
  rfl

section

variable {item : List Char → Option (Json × List Char)}

theorem items_takes {vs ws : List Json} {fuel : Nat} {rest s : List Char}
    (h : ∀ v ∈ vs, Takes item escape v) (hn : vs ≠ [])
    (hr : items item fuel (separated (write escape) vs ++ ']' :: rest) = some (ws, s)) :
    s = rest := by
  induction vs generalizing fuel ws
  case nil => contradiction
  case cons v vs hi =>
    cases fuel
    case zero => cases hr
    case succ fuel =>
      have hd : Delimits ']' (continued (write escape) vs ++ ']' :: rest) :=
        delimits_continued vs rest
      rw [separated_cons, List.append_assoc, items, skipBlanks_write] at hr
      obtain ⟨⟨w, t⟩, hw, hr⟩ := Option.bind_eq_some_iff.mp hr
      obtain rfl := h v (.head _) _ _ _ (hd.ends (by decide) (by decide)) hw
      cases vs
      case nil => cases hr; rfl
      case cons v' vs =>
        simp only [continued, List.isEmpty_cons, Bool.false_eq_true, if_false, List.cons_append,
          skipBlanks_cons (c := ',') (by decide)] at hr
        obtain ⟨⟨_, _⟩, ht, hr⟩ := Option.bind_eq_some_iff.mp hr
        cases hr
        exact hi (fun v mem => h v (.tail _ mem)) (by simp) ht

-- A field as it is read: its key is the same, and its value is what is read of the one written.
def ReadAs (item : List Char → Option (Json × List Char)) (escape : Char → List Char)
    (f e : String × Json) : Prop :=
  e.1 = f.1 ∧ ∃ rest, Ends rest ∧ item (write escape f.2 ++ rest) = some (e.2, rest)

theorem field_takes (he : Readable escape) {f e : String × Json} (h : Takes item escape f.2)
    {rest s : List Char} (hr : Ends rest)
    (hf : field item (writeField escape f ++ rest) = some (e, s)) :
    s = rest ∧ ReadAs item escape f e := by
  rw [writeField, writeString] at hf
  simp only [List.cons_append, List.append_assoc, List.nil_append] at hf
  rw [field] at hf
  simp only [he.string, Option.bind_eq_bind, Option.bind_some,
    skipBlanks_cons (c := ':') (by decide), skipBlanks_write] at hf
  obtain ⟨⟨w, t⟩, hw, hf⟩ := Option.bind_eq_some_iff.mp hf
  cases hf
  obtain rfl := h _ _ _ hr hw
  exact ⟨rfl, rfl, _, hr, hw⟩

theorem fields_takes (he : Readable escape) {fs es : Fields} {fuel : Nat} {rest s : List Char}
    (h : ∀ f ∈ fs, Takes item escape f.2) (hn : fs ≠ [])
    (hr : fields item fuel (separated (writeField escape) fs ++ '}' :: rest) = some (es, s)) :
    s = rest ∧ List.Forall₂ (ReadAs item escape) fs es := by
  induction fs generalizing fuel es
  case nil => contradiction
  case cons f fs hi =>
    cases fuel
    case zero => cases hr
    case succ fuel =>
      have hd : Delimits '}' (continued (writeField escape) fs ++ '}' :: rest) :=
        delimits_continued fs rest
      rw [separated_cons, List.append_assoc, Reader.fields, skipBlanks_writeField] at hr
      obtain ⟨⟨e, t⟩, hf, hr⟩ := Option.bind_eq_some_iff.mp hr
      obtain ⟨rfl, hra⟩ := field_takes he (h f (.head _)) (hd.ends (by decide) (by decide)) hf
      cases fs
      case nil => cases hr; exact ⟨rfl, .cons hra .nil⟩
      case cons f' fs =>
        simp only [continued, List.isEmpty_cons, Bool.false_eq_true, if_false, List.cons_append,
          skipBlanks_cons (c := ',') (by decide)] at hr
        obtain ⟨⟨_, _⟩, ht, hr⟩ := Option.bind_eq_some_iff.mp hr
        cases hr
        obtain ⟨hs, hes⟩ := hi (fun f mem => h f (.tail _ mem)) (by simp) ht
        exact ⟨hs, .cons hra hes⟩

theorem array_takes {vs : List Json} (h : ∀ v ∈ vs, Takes item escape v) {rest s : List Char}
    {w : Json} (hr : Reader.array item (separated (write escape) vs ++ ']' :: rest) = some (w, s)) :
    s = rest := by
  cases vs
  case nil => cases hr; rfl
  case cons v vs =>
    have hs := @skipBlanks_write escape v (continued (write escape) vs ++ ']' :: rest)
    rw [separated_cons, List.append_assoc, Reader.array, hs] at hr
    split at hr
    case h_1 he => exact absurd (congrArg List.head? he) (head_write_ne v _)
    case h_2 =>
      obtain ⟨⟨_, _⟩, ht, hr⟩ := Option.bind_eq_some_iff.mp hr
      cases hr
      rw [← List.append_assoc, ← separated_cons] at ht
      exact items_takes h (by simp) ht

theorem object_takes (he : Readable escape) {fs : Fields} (h : ∀ f ∈ fs, Takes item escape f.2)
    {rest s : List Char} {w : Json}
    (hr : Reader.object item (separated (writeField escape) fs ++ '}' :: rest) = some (w, s)) :
    s = rest ∧ ∃ es, w = .object (Fields.ofEntries es) ∧ List.Forall₂ (ReadAs item escape) fs es := by
  cases fs
  case nil => cases hr; exact ⟨rfl, [], rfl, .nil⟩
  case cons f fs =>
    have hs := @skipBlanks_writeField escape f (continued (writeField escape) fs ++ '}' :: rest)
    rw [separated_cons, List.append_assoc, Reader.object, hs] at hr
    split at hr
    case h_1 heq => exact absurd (congrArg List.head? heq) (head_writeField_ne f _)
    case h_2 =>
      obtain ⟨⟨es, _⟩, ht, hr⟩ := Option.bind_eq_some_iff.mp hr
      cases hr
      rw [← List.append_assoc, ← separated_cons] at ht
      obtain ⟨hs, hes⟩ := fields_takes he h (by simp) ht
      exact ⟨hs, es, rfl, hes⟩

end

theorem takes_write (he : Readable escape) (v : Json) (depth : Nat) :
    Takes (value depth) escape v := by
  induction v using induct generalizing depth
  case int n     => exact takes_number rfl depth
  case decimal x => exact takes_number rfl depth
  all_goals intro rest w s hr h
  case null =>
    rw [value_of_scalar (by simp [write]) (by simp [write])] at h
    cases h
    rfl
  case bool b =>
    cases b <;> rw [value_of_scalar (by simp [write]) (by simp [write])] at h <;> cases h <;> rfl
  case string text =>
    rw [value_of_scalar (by simp [write, writeString]) (by simp [write, writeString])] at h
    simp only [write, writeString, List.cons_append, List.append_assoc, List.nil_append, scalar,
      he.string] at h
    cases h
    rfl
  case array items hi =>
    rw [write, writeItems_eq] at h
    simp only [List.cons_append, List.append_assoc, List.nil_append] at h
    cases depth
    case zero       => cases h
    case succ depth => exact array_takes (fun v mem => hi v mem depth) h
  case object fields hi =>
    rw [write, writeFields_eq] at h
    simp only [List.cons_append, List.append_assoc, List.nil_append] at h
    cases depth
    case zero       => cases h
    case succ depth => exact (object_takes he (fun f mem => hi f mem depth) h).left

end Json

open Json (ReadAs readable_escape)

-- The entries of a frame that arrives are those of the one that was sent, as they are read.
theorem Frame.exists_entries {fields frame : Fields} (h : ofText? fields.text = some frame) :
    ∃ entries, frame = .ofEntries entries ∧
      List.Forall₂ (ReadAs (Json.Reader.value 126) Json.escape) fields entries := by
  obtain ⟨v, hp, hv⟩ := Option.bind_eq_some_iff.mp h
  obtain ⟨⟨w, s⟩, hr, he⟩ := Option.bind_eq_some_iff.mp hp
  have hs := @Json.skipBlanks_write Json.escape (.object fields) []
  rw [List.append_nil] at hs
  simp only [Fields.text, Json.text, String.toList_ofList, hs] at hr
  simp only [Json.write, Json.writeFields_eq, List.cons_append] at hr
  obtain ⟨_, entries, hw, hes⟩ := Json.object_takes readable_escape
    (fun f _ => Json.takes_write readable_escape f.2 126) hr
  obtain ⟨_, he⟩ := Option.ite_none_right_eq_some.mp he
  cases he
  cases hw
  cases hv
  exact ⟨entries, rfl, hes⟩

namespace Fields

variable {fields entries : Fields} {key : String} {depth : Nat}

theorem map_fst_of_readAs
    (h : List.Forall₂ (ReadAs (Json.Reader.value depth) Json.escape) fields entries) :
    entries.map (·.1) = fields.map (·.1) := by
  induction h
  case nil           => rfl
  case cons hf _ hfs => rw [List.map_cons, List.map_cons, hf.left, hfs]

theorem get?_int_of_readAs {n : Int} (hl : -2 ^ 63 ≤ n) (hu : n < 2 ^ 64)
    (h : List.Forall₂ (ReadAs (Json.Reader.value depth) Json.escape) fields entries)
    (hg : fields.get? key = some (.int n)) : entries.get? key = some (.int n) := by
  induction h
  case nil => exact hg
  case cons f e fs es hf _ hi =>
    have ⟨hk, rest, hr, hv⟩ := hf
    rw [get?_cons] at hg ⊢
    rw [hk]
    split at hg
    case isFalse hn => rw [if_neg hn]; exact hi hg
    case isTrue he =>
      rw [Option.some.inj hg, (Json.Portable.int hl hu).reads readable_escape rest hr] at hv
      rw [if_pos he, (Prod.mk.inj <| Option.some.inj hv).left]

end Fields

-- An integer in a frame that is sent is in the frame that arrives, if any frame arrives.
theorem Frame.get?_int_of_ofText? {fields frame : Fields} (ho : fields.Ordered) {key : String}
    {n : Int} (hl : -2 ^ 63 ≤ n) (hu : n < 2 ^ 64) (hg : fields.get? key = some (.int n))
    (h : ofText? fields.text = some frame) : frame.get? key = some (.int n) := by
  obtain ⟨entries, rfl, hes⟩ := exists_entries h
  have hk : (fields.map (·.1)).Pairwise (· < ·) := List.pairwise_map.mpr ho
  rw [(Fields.Ordered.of_keys _ (Fields.map_fst_of_readAs hes) hk).ofEntries]
  exact Fields.get?_int_of_readAs hl hu hes hg

end LedgerWire
