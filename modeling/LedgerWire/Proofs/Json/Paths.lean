import LedgerWire.Proofs.Json.Lookup
import LedgerWire.Proofs.Json.Order
import Mathlib.Data.List.Nodup

namespace LedgerWire

namespace Fields

variable {fields fields' : Fields} {key : String} {value : Json}

theorem mem_of_get? (h : fields.get? key = some value) : (key, value) ∈ fields := by
  induction fields
  case nil => cases h
  case cons field fields hi =>
    rw [get?_cons] at h
    split at h
    case isTrue hk =>
      cases h
      exact hk ▸ .head _
    case isFalse => exact .tail _ (hi h)

theorem get?_of_mem (hn : (fields.map (·.1)).Nodup) (mem : (key, value) ∈ fields) :
    fields.get? key = some value := by
  induction fields
  case nil => cases mem
  case cons field fields hi =>
    have ⟨hf, hn⟩ := List.nodup_cons.mp hn
    rw [get?_cons]
    cases mem
    case head => rw [if_pos rfl]
    case tail mem =>
      have hk : key ≠ field.1 := fun he => hf <| List.mem_map.mpr ⟨_, mem, he⟩
      rw [if_neg hk, hi hn mem]

theorem get?_ne_none_of_mem {f : String × Json} (mem : f ∈ fields) : fields.get? f.1 ≠ none :=
  fun h => by simpa using List.lookup_eq_none_iff.mp h f mem

theorem Ordered.nodup_keys (h : fields.Ordered) : (fields.map (·.1)).Nodup :=
  List.pairwise_map.mpr <| h.imp Std.ne_of_lt

-- Fields in order are determined by what is found under the keys.
theorem Ordered.ext (h : fields.Ordered) (h' : fields'.Ordered)
    (hg : ∀ key, fields.get? key = fields'.get? key) : fields = fields' := by
  refine h.eq_of_perm h' ?_
  have hn := h.nodup_keys
  have hn' := h'.nodup_keys
  refine (List.perm_ext_iff_of_nodup (.of_map _ hn) (.of_map _ hn')).mpr ?_
  intro (key, value)
  constructor
  case mp  => exact fun mem => mem_of_get? <| hg key ▸ get?_of_mem hn mem
  case mpr => exact fun mem => mem_of_get? <| hg key ▸ get?_of_mem hn' mem

theorem get?_sortedFields (fields : Fields) (key : String) :
    Fields.get? (Json.sortedFields fields) key = (fields.get? key).map Json.sorted := by
  induction fields
  case nil => rfl
  case cons field fields hi =>
    rw [Json.sortedFields.eq_def, get?_insert, hi, get?_cons]
    split <;> rfl

theorem sortedFields_eq_iff : Json.sortedFields fields = Json.sortedFields fields' ↔
    ∀ key, (fields.get? key).map Json.sorted = (fields'.get? key).map Json.sorted := by
  simp only [← get?_sortedFields]
  constructor
  case mp  => exact fun h _ => by rw [h]
  case mpr => exact (Json.ordered_sortedFields fields).ext (Json.ordered_sortedFields fields')

end Fields

namespace Json

variable {v w value : Json} {o o' : Option Json}

-- One level into a value: by position into an array, by key into an object.
inductive Step where
  | item (index : Nat)
  | field (key : String)
  deriving Repr, DecidableEq

def child? : Json → Step → Option Json
  | array items, .item index => items[index]?
  | object fields, .field key => Fields.get? fields key
  | _, _ => none

-- The value that a path leads to.
def at? (value : Json) : List Step → Option Json
  | []           => some value
  | step :: path => (value.child? step).bind (at? · path)

theorem child?_sorted (v : Json) (step : Step) :
    v.sorted.child? step = (v.child? step).map sorted := by
  cases v <;> cases step <;> try rfl
  case array.item items index => rw [sorted, sortedItems_eq, child?, child?, List.getElem?_map]
  case object.field fields key => exact Fields.get?_sortedFields fields key

theorem at?_sorted (v : Json) (path : List Step) :
    v.sorted.at? path = (v.at? path).map sorted := by
  induction path generalizing v
  case nil => rfl
  case cons step path hi =>
    rw [at?, at?, child?_sorted]
    cases v.child? step
    case none   => rfl
    case some w => exact hi w

namespace DistinctKeys

theorem field {fields : Fields} (h : (Json.object fields).DistinctKeys) {key : String}
    (hg : fields.get? key = some w) : w.DistinctKeys := by
  cases h
  case object _ hf => exact hf _ (Fields.mem_of_get? hg)

theorem child (hv : v.DistinctKeys) {step : Step} (h : v.child? step = some w) :
    w.DistinctKeys := by
  cases v <;> cases step <;> try cases h
  case object.field => exact hv.field h
  case array.item   =>
    cases hv
    case array hi => exact hi w (List.mem_of_getElem? h)

theorem inside (hv : v.DistinctKeys) {path : List Step} (h : v.at? path = some w) :
    w.DistinctKeys := by
  induction path generalizing v
  case nil => exact Option.some.inj h ▸ hv
  case cons step path hi =>
    have ⟨u, hu, hw⟩ := Option.bind_eq_some_iff.mp h
    exact hi (hv.child hu) hw

theorem erase {fields : Fields} (h : (Json.object fields).DistinctKeys) (key : String) :
    (Json.object (fields.erase key)).DistinctKeys := by
  cases h
  case object hn hf =>
    refine .object (hn.sublist <| List.filter_sublist.map _) fun f mem => hf f ?_
    exact List.mem_of_mem_filter mem

end DistinctKeys

theorem rel_reorders_iff (h : ∀ v ∈ o, v.DistinctKeys) (h' : ∀ v ∈ o', v.DistinctKeys) :
    Option.Rel Reorders o o' ↔ o.map sorted = o'.map sorted := by
  cases o <;> cases o'
  case none.none     => exact iff_of_true .none rfl
  case none.some     => exact iff_of_false nofun nofun
  case some.none     => exact iff_of_false nofun nofun
  case some.some v w =>
    rw [Option.map_some, Option.map_some, Option.some.injEq, sorted_eq_iff (h v rfl) (h' w rfl)]
    exact ⟨fun | .some h => h, .some⟩

theorem canonical_eq_iff_sorted : v.canonical = w.canonical ↔ v.sorted = w.sorted :=
  ⟨sorted_of_canonical, fun h => by rw [canonical, canonical, h]⟩

-- Two values that are the same but for the order of fields are so at every depth.
theorem Reorders.inside (h : Reorders v w) (hv : v.DistinctKeys) (hw : w.DistinctKeys)
    (path : List Step) : Option.Rel Reorders (v.at? path) (w.at? path) := by
  refine (rel_reorders_iff (fun _ => hv.inside) (fun _ => hw.inside)).mpr ?_
  rw [← at?_sorted, ← at?_sorted, h.sorted_eq hv]

-- Nothing stands inside the value.
def Leaf (value : Json) : Prop :=
  ∀ step, value.child? step = none

-- Reordering needs something to reorder.
theorem Reorder.eq_of_leaf (h : Reorder v w) (hl : v.Leaf) : v = w := by
  cases h
  case here fields fields' hp =>
    cases fields
    case nil           => rw [hp.nil_eq]
    case cons field fs => exact absurd (hl (.field field.1)) (Fields.get?_ne_none_of_mem <| .head _)
  case item v _ before after _ =>
    have hi : (array (before ++ v :: after)).child? (.item before.length) = some v := by
      simp [child?]
    cases hi.symm.trans (hl _)
  case field v _ before key after _ =>
    have mem : (key, v) ∈ before ++ (key, v) :: after := List.mem_append_right _ (.head _)
    exact absurd (hl (.field key)) (Fields.get?_ne_none_of_mem mem)

theorem Reorders.eq_of_leaf (h : Reorders v w) (hl : v.Leaf) : v = w := by
  induction h
  case refl => rfl
  case tail _ step hi =>
    subst hi
    exact step.eq_of_leaf hl

theorem eq_some_iff_of_leaf (h : Option.Rel Reorders o o') (hl : value.Leaf) :
    o = some value ↔ o' = some value := by
  cases h
  case none => rfl
  case some v w h =>
    simp only [Option.some.injEq]
    constructor
    case mp =>
      rintro rfl
      exact (h.eq_of_leaf hl).symm
    case mpr =>
      rintro rfl
      exact (h.symm.eq_of_leaf hl).symm

end Json
end LedgerWire
