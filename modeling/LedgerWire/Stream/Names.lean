namespace LedgerWire.Stream

structure Names where
  toList : List String
  ascending : toList.Pairwise (· < ·)
  deriving DecidableEq, Repr

namespace Names

-- Puts a name in its place, unless it is there.
def place (name : String) : List String → List String
  | [] => [name]
  | n :: ns =>
    if name < n then name :: n :: ns
    else if name = n then n :: ns
    else n :: place name ns

theorem mem_place {name n : String} {ns : List String} : n ∈ place name ns ↔ n = name ∨ n ∈ ns := by
  induction ns with
  | nil => simp [place]
  | cons m ms ih => grind [place]

theorem pairwise_place {name : String} {ns : List String} (h : ns.Pairwise (· < ·)) :
    (place name ns).Pairwise (· < ·) := by
  induction ns with
  | nil => simp [place]
  | cons m ms ih =>
    obtain ⟨least, rest⟩ := List.pairwise_cons.mp h
    rw [place]
    split
    case isTrue lt =>
      refine List.pairwise_cons.mpr ⟨fun n mem => ?_, h⟩
      rcases List.mem_cons.mp mem with rfl | mem
      · exact lt
      · exact String.lt_trans lt (least n mem)
    case isFalse nlt =>
      split
      case isTrue => exact h
      case isFalse ne =>
        refine List.pairwise_cons.mpr ⟨fun n mem => ?_, ih rest⟩
        rcases mem_place.mp mem with rfl | mem
        · exact String.not_le.mp fun le => ne (String.le_antisymm le (String.not_lt.mp nlt))
        · exact least n mem

def empty : Names := ⟨[], .nil⟩

instance : Membership String Names := ⟨fun names name => name ∈ names.toList⟩

instance (name : String) (names : Names) : Decidable (name ∈ names) :=
  inferInstanceAs (Decidable (name ∈ names.toList))

def insert (names : Names) (name : String) : Names :=
  ⟨place name names.toList, pairwise_place names.ascending⟩

def erase (names : Names) (name : String) : Names :=
  ⟨names.toList.filter (· ≠ name), names.ascending.filter _⟩

theorem mem_toList {names : Names} {name : String} : name ∈ names.toList ↔ name ∈ names :=
  .rfl

@[simp] theorem not_mem_empty (name : String) : name ∉ empty :=
  List.not_mem_nil

@[simp] theorem mem_insert {names : Names} {name n : String} :
    n ∈ names.insert name ↔ n = name ∨ n ∈ names :=
  mem_place

@[simp] theorem mem_erase {names : Names} {name n : String} :
    n ∈ names.erase name ↔ n ∈ names ∧ n ≠ name := by
  simp [← mem_toList, erase, List.mem_filter]

def insertAll (names : Names) (more : List String) : Names :=
  more.foldl insert names

def eraseAll (names : Names) (fewer : List String) : Names :=
  fewer.foldl erase names

@[simp] theorem mem_insertAll {names : Names} {more : List String} {n : String} :
    n ∈ names.insertAll more ↔ n ∈ more ∨ n ∈ names := by
  induction more generalizing names with
  | nil => simp [insertAll]
  | cons m ms ih =>
    rw [insertAll, List.foldl_cons, ← insertAll, ih, mem_insert, List.mem_cons, or_left_comm, or_assoc]

@[simp] theorem mem_eraseAll {names : Names} {fewer : List String} {n : String} :
    n ∈ names.eraseAll fewer ↔ n ∈ names ∧ n ∉ fewer := by
  induction fewer generalizing names with
  | nil => simp [eraseAll]
  | cons m ms ih =>
    rw [eraseAll, List.foldl_cons, ← eraseAll, ih, mem_erase, List.mem_cons, not_or, and_assoc]

end Names

end LedgerWire.Stream
