import LedgerWire.Json.Basic

namespace LedgerWire.Fields

variable (fields : Fields) (key k : String) (value : Json)

theorem get?_cons (field : String × Json) :
    get? (field :: fields) k = if k = field.1 then some field.2 else fields.get? k := by
  rw [get?, List.lookup_cons]
  split
  case h_1 h => rw [if_pos (by simpa using h)]
  case h_2 h => rw [if_neg (by simpa using h), get?]

theorem get?_insert :
    (fields.insert key value).get? k = if k = key then some value else fields.get? k := by
  induction fields
  case nil => rw [insert, get?_cons]
  case cons field fields hi =>
    rw [insert]
    split
    case isTrue => rw [get?_cons]
    case isFalse => split <;> grind [get?_cons]

@[simp] theorem get?_insert_self : (fields.insert key value).get? key = some value := by
  rw [get?_insert, if_pos rfl]

variable {key k} in
theorem get?_insert_of_ne (h : k ≠ key) : (fields.insert key value).get? k = fields.get? k := by
  rw [get?_insert, if_neg h]

theorem get?_erase : (fields.erase key).get? k = if k = key then none else fields.get? k := by
  rw [erase]
  induction fields
  case nil => simp [get?]
  case cons field fields hi =>
    rw [List.filter_cons]
    split <;> grind [get?_cons]

variable {key k} in
theorem get?_erase_of_ne (h : k ≠ key) : (fields.erase key).get? k = fields.get? k := by
  rw [get?_erase, if_neg h]

-- What was put under a key goes with whatever else stood under it.
theorem erase_insert : (fields.insert key value).erase key = fields.erase key := by
  simp only [erase]
  induction fields
  case nil => simp [insert]
  case cons field fields hi =>
    rw [insert]
    split
    case isTrue => simp [List.filter_cons]
    case isFalse =>
      split
      case isTrue he => simp [he]
      case isFalse => rw [List.filter_cons, List.filter_cons, hi]

-- Of two values put under one key the later stays.
theorem insert_insert (value' : Json) :
    (fields.insert key value).insert key value' = fields.insert key value' := by
  induction fields
  case nil => simp [insert]
  case cons field fields hi =>
    rw [insert, insert]
    split
    case isTrue => simp [insert]
    case isFalse hl =>
      split
      case isTrue     => simp [insert]
      case isFalse hn => rw [insert, if_neg hl, if_neg hn, hi]

variable {fields key} in
theorem erase_of_get?_eq_none (h : fields.get? key = none) : fields.erase key = fields := by
  refine List.filter_eq_self.mpr fun field mem => ?_
  have hn : key ≠ field.1 := by simpa using List.lookup_eq_none_iff.mp h field mem
  exact decide_eq_true hn.symm

end LedgerWire.Fields
