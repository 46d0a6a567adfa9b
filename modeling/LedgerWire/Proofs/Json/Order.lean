import LedgerWire.Proofs.Json.Writing
import Mathlib.Logic.Relation

namespace LedgerWire

namespace Fields

variable {fields fields' : Fields} {key : String} {value : Json} {f : String × Json}

def Ordered (fields : Fields) : Prop :=
  fields.Pairwise (·.1 < ·.1)

theorem mem_insert (h : f ∈ fields.insert key value) : f = (key, value) ∨ f ∈ fields := by
  induction fields
  case nil => exact .inl <| List.mem_singleton.mp h
  case cons g fields hi =>
    rw [insert] at h
    split at h
    case isTrue => exact List.mem_cons.mp h
    case isFalse =>
      split at h
      case isTrue => exact List.mem_cons.mp h |>.imp_right (.tail _ ·)
      case isFalse =>
        cases List.mem_cons.mp h
        case inl h => exact .inr <| h ▸ .head _
        case inr h => exact hi h |>.imp_right (.tail _ ·)

theorem insert_perm (h : key ∉ fields.map (·.1)) :
    (fields.insert key value).Perm ((key, value) :: fields) := by
  induction fields
  case nil => exact .refl _
  case cons g fields hi =>
    simp only [List.map_cons, List.mem_cons, not_or] at h
    rw [insert]
    split
    case isTrue => exact .refl _
    case isFalse =>
      rw [if_neg h.left]
      exact .trans (.cons g (hi h.right)) (.swap ..)

theorem Ordered.insert (h : fields.Ordered) (key : String) (value : Json) :
    (fields.insert key value).Ordered := by
  induction fields
  case nil => exact List.pairwise_singleton ..
  case cons g fields hi =>
    have ⟨hg, hf⟩ := List.pairwise_cons.mp h
    rw [Fields.insert]
    split
    case isTrue hk =>
      refine List.pairwise_cons.mpr ⟨fun f mem => ?_, h⟩
      cases mem
      case head => exact hk
      case tail mem => exact String.lt_trans hk (hg f mem)
    case isFalse hk =>
      split
      case isTrue he => exact List.pairwise_cons.mpr ⟨he ▸ hg, hf⟩
      case isFalse he =>
        refine List.pairwise_cons.mpr ⟨fun f mem => ?_, hi hf⟩
        cases mem_insert mem
        case inl hm => exact hm ▸ Std.lt_of_le_of_ne hk (Ne.symm he)
        case inr hm => exact hg f hm

-- There is only one order in which keys can rise.
theorem Ordered.eq_of_perm (h : fields.Ordered) (h' : fields'.Ordered) (hp : fields.Perm fields') :
    fields = fields' :=
  hp.eq_of_pairwise (fun _ _ _ _ hl hg => absurd (String.lt_trans hl hg) (String.lt_irrefl _)) h h'

end Fields

namespace Json

def sortedField (field : String × Json) : String × Json :=
  (field.1, field.2.sorted)

theorem sortedItems_eq (items : List Json) : sortedItems items = items.map sorted := by
  induction items
  case nil => rfl
  case cons item items hi => rw [sortedItems, hi, List.map_cons]

theorem sortedFields_eq (fields : Fields) :
    sortedFields fields =
      (fields.map sortedField).foldr (fun f fs => Fields.insert fs f.1 f.2) [] := by
  induction fields
  case nil => rfl
  case cons field fields hi => rw [sortedFields, hi, List.map_cons, List.foldr_cons, sortedField]

theorem ordered_sortedFields (fields : Fields) : Fields.Ordered (sortedFields fields) := by
  induction fields
  case nil => exact .nil
  case cons field fields hi => exact hi.insert ..

theorem keys_sortedField (fields : Fields) :
    (fields.map sortedField).map (·.1) = fields.map (·.1) := by
  rw [List.map_map]
  rfl

-- No field is lost: inserting replaces a field only if the key is there already.
theorem sortedFields_perm {fields : Fields} (h : (fields.map (·.1)).Nodup) :
    (sortedFields fields).Perm (fields.map sortedField) := by
  induction fields
  case nil => exact .refl _
  case cons field fields hi =>
    have ⟨hk, hn⟩ := List.nodup_cons.mp h
    have hp := hi hn
    rw [← keys_sortedField, ← (hp.map _).mem_iff] at hk
    exact (Fields.insert_perm hk).trans (.cons _ hp)

theorem sortedFields_eq_of_perm {fields fields' : Fields} (h : (fields.map (·.1)).Nodup)
    (hp : fields.Perm fields') : sortedFields fields = sortedFields fields' := by
  have h' := (hp.map _).nodup_iff.mp h
  refine (ordered_sortedFields fields).eq_of_perm (ordered_sortedFields fields') ?_
  exact (sortedFields_perm h).trans <| (hp.map sortedField).trans (sortedFields_perm h').symm

-- No object at any depth has two fields of one key.
inductive DistinctKeys : Json → Prop
  | null : DistinctKeys null
  | bool (b : Bool) : DistinctKeys (bool b)
  | int (n : Int) : DistinctKeys (int n)
  | decimal (x : Decimal) : DistinctKeys (decimal x)
  | string (s : String) : DistinctKeys (string s)
  | array {items : List Json} : (∀ v ∈ items, DistinctKeys v) → DistinctKeys (array items)
  | object {fields : Fields} : (fields.map (·.1)).Nodup → (∀ f ∈ fields, DistinctKeys f.2) →
    DistinctKeys (object fields)

mutual

-- Whether the keys are distinct, by looking at every object.
def hasDistinctKeys : Json → Bool
  | array items   => haveDistinctKeys items
  | object fields => decide (fields.map (·.1)).Nodup && fieldsHaveDistinctKeys fields
  | _             => true

def haveDistinctKeys : List Json → Bool
  | []            => true
  | item :: items => item.hasDistinctKeys && haveDistinctKeys items

def fieldsHaveDistinctKeys : List (String × Json) → Bool
  | []                 => true
  | (_, value) :: rest => value.hasDistinctKeys && fieldsHaveDistinctKeys rest

end

theorem haveDistinctKeys_eq (items : List Json) :
    haveDistinctKeys items = items.all hasDistinctKeys := by
  induction items
  case nil => rfl
  case cons item items hi => rw [haveDistinctKeys, hi, List.all_cons]

theorem fieldsHaveDistinctKeys_eq (fields : Fields) :
    fieldsHaveDistinctKeys fields = fields.all (·.2.hasDistinctKeys) := by
  induction fields
  case nil => rfl
  case cons field fields hi => rw [fieldsHaveDistinctKeys, hi, List.all_cons]

theorem hasDistinctKeys_iff (v : Json) : v.hasDistinctKeys ↔ v.DistinctKeys := by
  induction v using induct
  case array items hi =>
    rw [hasDistinctKeys, haveDistinctKeys_eq, List.all_eq_true]
    constructor
    case mp  => exact fun h => .array fun v mem => (hi v mem).mp (h v mem)
    case mpr =>
      intro h
      cases h
      case array h => exact fun v mem => (hi v mem).mpr (h v mem)
  case object fields hi =>
    rw [hasDistinctKeys, fieldsHaveDistinctKeys_eq, Bool.and_eq_true, decide_eq_true_eq,
      List.all_eq_true]
    constructor
    case mp  => exact fun h => .object h.left fun f mem => (hi f mem).mp (h.right f mem)
    case mpr =>
      intro h
      cases h
      case object hn h => exact ⟨hn, fun f mem => (hi f mem).mpr (h f mem)⟩
  all_goals exact ⟨fun _ => by constructor, fun _ => rfl⟩

instance (v : Json) : Decidable v.DistinctKeys :=
  decidable_of_iff _ v.hasDistinctKeys_iff

-- The fields of one object, which may be the value itself or stand anywhere in it, are reordered.
inductive Reorder : Json → Json → Prop
  | here {fields fields' : Fields} : fields.Perm fields' → Reorder (object fields) (object fields')
  | item {v w : Json} (before after : List Json) : Reorder v w →
    Reorder (array (before ++ v :: after)) (array (before ++ w :: after))
  | field {v w : Json} (before : Fields) (key : String) (after : Fields) : Reorder v w →
    Reorder (object (before ++ (key, v) :: after)) (object (before ++ (key, w) :: after))

def Reorders : Json → Json → Prop :=
  Relation.ReflTransGen Reorder

variable {v w : Json}

namespace Reorder

theorem symm (h : Reorder v w) : Reorder w v := by
  induction h
  case here hp           => exact .here hp.symm
  case item before after _ hi => exact .item before after hi
  case field before key after _ hi => exact .field before key after hi

theorem distinctKeys (h : Reorder v w) (hv : v.DistinctKeys) : w.DistinctKeys := by
  induction h
  case here hp =>
    cases hv
    case object hn hf =>
      exact .object ((hp.map _).nodup_iff.mp hn) fun f mem => hf f <| hp.mem_iff.mpr mem
  case item before after _ hi =>
    cases hv
    case array hv =>
      simp only [List.forall_mem_append, List.forall_mem_cons] at hv
      refine .array <|
        List.forall_mem_append.mpr ⟨hv.left, List.forall_mem_cons.mpr ⟨?_, hv.right.right⟩⟩
      exact hi hv.right.left
  case field before key after _ hi =>
    cases hv
    case object hn hf =>
      simp only [List.forall_mem_append, List.forall_mem_cons] at hf
      refine .object (by simpa using hn) <|
        List.forall_mem_append.mpr ⟨hf.left, List.forall_mem_cons.mpr ⟨?_, hf.right.right⟩⟩
      exact hi hf.right.left

theorem sorted_eq (h : Reorder v w) (hv : v.DistinctKeys) : v.sorted = w.sorted := by
  induction h
  case here hp =>
    cases hv
    case object hn _ => rw [sorted, sorted, sortedFields_eq_of_perm hn hp]
  case item before after _ hi =>
    cases hv
    case array hv =>
      have hs := hi <| hv _ <| List.mem_append_right _ <| .head _
      simp only [sorted, sortedItems_eq, List.map_append, List.map_cons, hs]
  case field before key after _ hi =>
    cases hv
    case object _ hf =>
      have hs := hi <| hf _ <| List.mem_append_right _ <| .head _
      simp only [sorted, sortedFields_eq, List.map_append, List.map_cons, sortedField, hs]

end Reorder

namespace Reorders

theorem symm (h : Reorders v w) : Reorders w v := by
  induction h
  case refl => exact .refl
  case tail _ step hi => exact .head step.symm hi

theorem sorted_eq (h : Reorders v w) (hv : v.DistinctKeys) : v.sorted = w.sorted := by
  have hd : w.DistinctKeys ∧ v.sorted = w.sorted := by
    induction h
    case refl => exact ⟨hv, rfl⟩
    case tail _ step hi =>
      exact ⟨step.distinctKeys hi.left, hi.right.trans (step.sorted_eq hi.left)⟩
  exact hd.right

-- The items before these are sorted already.
theorem items {items : List Json} (h : ∀ v ∈ items, Reorders v v.sorted) (before : List Json) :
    Reorders (array (before ++ items)) (array (before ++ items.map Json.sorted)) := by
  induction items generalizing before
  case nil => exact .refl
  case cons item items hi =>
    have ⟨hv, hvs⟩ := List.forall_mem_cons.mp h
    have hhead := hv.lift (fun v => array (before ++ v :: items))
      fun _ _ => Reorder.item before items
    have htail := hi hvs (before ++ [item.sorted])
    simp only [List.append_assoc, List.singleton_append] at htail
    exact hhead.trans htail

theorem fields {fields : Fields} (h : ∀ f ∈ fields, Reorders f.2 f.2.sorted) (before : Fields) :
    Reorders (object (before ++ fields)) (object (before ++ fields.map sortedField)) := by
  induction fields generalizing before
  case nil => exact .refl
  case cons field fields hi =>
    have ⟨hv, hvs⟩ := List.forall_mem_cons.mp h
    have hhead := hv.lift (fun v => object (before ++ (field.1, v) :: fields))
      fun _ _ => Reorder.field before field.1 fields
    have htail := hi hvs (before ++ [sortedField field])
    simp only [List.append_assoc, List.singleton_append] at htail
    exact hhead.trans htail

-- Sorting is reordering, from the innermost objects outwards.
theorem sorted (h : v.DistinctKeys) : Reorders v v.sorted := by
  induction h
  case array items _ hi =>
    rw [Json.sorted, sortedItems_eq]
    exact .items hi []
  case object fields hn _ hi =>
    rw [Json.sorted]
    exact (Reorders.fields hi []).tail (.here (sortedFields_perm hn).symm)
  all_goals exact .refl

end Reorders

theorem sorted_eq_iff (hv : v.DistinctKeys) (hw : w.DistinctKeys) :
    v.sorted = w.sorted ↔ Reorders v w := by
  constructor
  case mp =>
    intro h
    have hs := Reorders.sorted hw
    exact (Reorders.sorted hv).trans <| h ▸ hs.symm
  case mpr => exact fun h => h.sorted_eq hv

-- The text determines the sorted value.
theorem sorted_of_canonical (h : v.canonical = w.canonical) : v.sorted = w.sorted :=
  write_injective readable_guardedEscape <| String.ofList_injective h

theorem canonical_eq_iff (hv : v.DistinctKeys) (hw : w.DistinctKeys) :
    v.canonical = w.canonical ↔ Reorders v w := by
  rw [← sorted_eq_iff hv hw]
  exact ⟨sorted_of_canonical, fun h => by rw [canonical, canonical, h]⟩

theorem canonical_eq_iff_at_depth :
    let v := object [("b", array [object [("y", int 1), ("x", string "<")]]), ("a", null)]
    let w := object [("a", null), ("b", array [object [("x", string "<"), ("y", int 1)]])]
    v.DistinctKeys ∧ w.DistinctKeys ∧ v.canonical = w.canonical ∧ Reorders v w := by
  intro v w
  have hv : v.DistinctKeys := by decide +kernel
  have hw : w.DistinctKeys := by decide +kernel
  have hc : v.canonical = w.canonical := by decide +kernel
  exact ⟨hv, hw, hc, (canonical_eq_iff hv hw).mp hc⟩

end Json
end LedgerWire
