import LedgerWire.Link.Frame
import LedgerWire.Proofs.Json.Lookup
import LedgerWire.Proofs.Json.Order

namespace LedgerWire

namespace Fields

variable {fields : Fields} {key : String}

theorem insert_last (h : ∀ f ∈ fields, f.1 < key) (value : Json) :
    fields.insert key value = fields ++ [(key, value)] := by
  induction fields
  case nil => rfl
  case cons g fields hi =>
    have hg := h g (.head _)
    rw [insert, if_neg (String.lt_asymm hg), if_neg (fun he => String.lt_irrefl _ (he ▸ hg)),
      hi fun f mem => h f (.tail _ mem), List.cons_append]

-- Fields that are in order were put there one behind the other.
theorem Ordered.ofEntries (h : fields.Ordered) : Fields.ofEntries fields = fields := by
  have loop (kept todo : Fields) (h : (kept ++ todo).Ordered) :
      todo.foldl (fun fields f => Fields.insert fields f.1 f.2) kept =
        kept ++ todo := by
    induction todo generalizing kept
    case nil => simp
    case cons f todo hi =>
      obtain ⟨key, value⟩ := f
      obtain ⟨_, _, hf⟩ := List.pairwise_append.mp h
      have hl := insert_last (fun g mem => hf g mem (key, value) (.head _)) value
      simp only [List.foldl_cons, hl]
      rw [hi _ (by simpa using h), List.append_assoc, List.singleton_append]
  exact loop [] fields h

-- Whether fields are in order does not depend on their values.
theorem Ordered.of_keys (keys : List String) (hk : fields.map (·.1) = keys)
    (h : keys.Pairwise (· < ·)) : fields.Ordered :=
  List.pairwise_map.mp (hk ▸ h)

-- To put down what stands there already changes nothing.
theorem Ordered.insert_of_get? {value : Json} (h : fields.Ordered)
    (hv : fields.get? key = some value) : fields.insert key value = fields := by
  induction fields
  case nil => contradiction
  case cons g fields hi =>
    have ⟨hg, hf⟩ := List.pairwise_cons.mp h
    rw [get?_cons] at hv
    rw [Fields.insert]
    split at hv
    case isTrue he =>
      cases hv
      rw [he, if_neg (String.lt_irrefl _), if_pos rfl]
    case isFalse he =>
      -- The key stands further behind, so it is not in front of the first.
      obtain ⟨before, after, rfl, _⟩ := List.lookup_eq_some_iff.mp hv
      have hk := hg (key, value) (by simp)
      rw [if_neg (String.lt_asymm hk), if_neg he, hi hf hv]

theorem Ordered.erase (h : fields.Ordered) (key : String) : (fields.erase key).Ordered :=
  h.sublist List.filter_sublist

end Fields

namespace Json

open Reader

-- Values that survive being written and read, nested at most so deep. Integers fit 64 bits with a
-- sign or without one, and fields are in the order in which `insert` leaves them.
inductive Portable : Nat → Json → Prop
  | null {depth : Nat} : Portable depth null
  | bool {depth : Nat} (b : Bool) : Portable depth (bool b)
  | int {depth : Nat} {n : Int} : -2 ^ 63 ≤ n → n < 2 ^ 64 → Portable depth (int n)
  | string {depth : Nat} (s : String) : Portable depth (string s)
  | array {depth : Nat} {items : List Json} : (∀ v ∈ items, Portable depth v) →
    Portable (depth + 1) (array items)
  | object {depth : Nat} {fields : Fields} : fields.Ordered → (∀ f ∈ fields, Portable depth f.2) →
    Portable (depth + 1) (object fields)

theorem Portable.mono {depth depth' : Nat} {v : Json} (h : Portable depth v)
    (hd : depth ≤ depth') : Portable depth' v := by
  induction h generalizing depth'
  case null          => exact .null
  case bool b        => exact .bool b
  case int hl hu     => exact .int hl hu
  case string s      => exact .string s
  case array hi      =>
    obtain ⟨_, rfl⟩ := Nat.exists_eq_succ_of_ne_zero (by omega : depth' ≠ 0)
    exact .array fun v mem => hi v mem (Nat.le_of_succ_le_succ hd)
  case object ho _ hi =>
    obtain ⟨_, rfl⟩ := Nat.exists_eq_succ_of_ne_zero (by omega : depth' ≠ 0)
    exact .object ho fun f mem => hi f mem (Nat.le_of_succ_le_succ hd)

theorem head_toDigits_ne {n : Nat} (h : n ≠ 0) : (Nat.toDigits 10 n).head? ≠ some '0' := by
  induction n using Nat.strongRecOn
  case ind n hi =>
    by_cases hn : n < 10
    case pos =>
      have digit : ∀ n < 10, n ≠ 0 → Nat.digitChar n ≠ '0' := by decide
      simpa [Nat.toDigits_of_lt_base hn] using digit n hn h
    case neg =>
      have hd := hi (n / 10) (by omega) (by omega)
      rw [Nat.toDigits_of_base_le (by decide) (by omega), List.head?_append_of_ne_nil]
      · exact hd
      · exact Nat.toDigits_ne_nil

-- The reader takes no zero in front of other digits, and none is written there.
theorem toDigits_no_leading_zero (n : Nat) :
    ¬((Nat.toDigits 10 n).head? = some '0' ∧ 1 < (Nat.toDigits 10 n).length) := by
  by_cases h : n = 0
  case pos => subst h; decide
  case neg => exact fun hc => head_toDigits_ne h hc.left

theorem writeInt_eq (n : Int) :
    writeInt n = (if n < 0 then ['-'] else []) ++ Nat.toDigits 10 n.natAbs := by
  cases n
  case ofNat n   => rw [if_neg (by simp)]; rfl
  case negSucc n => rw [if_pos (Int.negSucc_lt_zero n)]; rfl

theorem ofWhole?_natAbs {n : Int} (hl : -2 ^ 63 ≤ n) (hu : n < 2 ^ 64) :
    ofWhole? (decide (n < 0)) (Nat.toDigits 10 n.natAbs) = some (.int n) := by
  simp only [ofWhole?, valueOf_toDigits]
  by_cases hn : n < 0
  case pos =>
    rw [if_pos ⟨by simpa using hn, by omega, by omega⟩, Int.ofNat_natAbs_of_nonpos (by omega),
      Int.neg_neg]
  case neg =>
    rw [if_neg (by simp [hn]), if_pos ⟨by simp [hn], by omega⟩, Int.natAbs_of_nonneg (by omega)]

theorem number_writeInt {n : Int} (hl : -2 ^ 63 ≤ n) (hu : n < 2 ^ 64) {rest : List Char}
    (hr : Ends rest) : number (writeInt n ++ rest) = some (.int n, rest) := by
  have hd := isDigit_toDigits n.natAbs
  have hn : Nat.toDigits 10 n.natAbs ≠ [] := Nat.toDigits_ne_nil
  have hm := minus_append (decide (n < 0)) rest hn hd
  have hs := digits_append hd (hr.mono (by simp))
  have hf : fraction rest = some ([], rest) :=
    @fraction_pointText [] rest nofun (hr.mono (by simp))
  have he : exponent rest = some (none, rest) := exponent_powerText none (hr.mono (by simp))
  have hw : ofParts? (decide (n < 0)) (Nat.toDigits 10 n.natAbs) [] none = some (.int n) := by
    rw [ofParts?, if_pos (by simp), ofWhole?_natAbs hl hu]
  simp only [decide_eq_true_eq] at hm
  rw [writeInt_eq, List.append_assoc, number, hm]
  simp only [hs]
  rw [if_neg (not_or.mpr ⟨by simp, toDigits_no_leading_zero n.natAbs⟩)]
  simp only [hf, Option.bind_eq_bind, Option.bind_some, he, hw, pure]

section

variable {α : Type} {f : α → List Char}

-- Each member but the last is followed by a comma, so the text is long enough to count them all.
theorem length_le_separated (xs : List α) (c : Char) (rest : List Char) :
    xs.length ≤ (separated f xs ++ c :: rest).length := by
  suffices h : xs.length ≤ (separated f xs).length + 1 by
    rw [List.length_append, List.length_cons]
    omega
  induction xs
  case nil => simp
  case cons x xs hi =>
    rw [separated_cons, continued]
    cases xs
    case nil => simp
    case cons y ys =>
      simp only [List.isEmpty_cons, Bool.false_eq_true, if_false, List.length_append,
        List.length_cons] at hi ⊢
      omega

end

theorem skipBlanks_of_head {s : List Char} (h : ∀ c ∈ s.head?, ¬isBlank c) : skipBlanks s = s := by
  cases s
  case nil => rfl
  case cons c s => exact List.dropWhile_cons_of_neg (h c rfl)

variable {escape : Char → List Char}

-- No written value begins with a character that stands for no kind of value.
theorem head_write_ne_of_leadOf {c : Char} (h : leadOf c ∉ ['n', 't', 'f', '0', '"', '[', '{'])
    (v : Json) (rest : List Char) : (write escape v ++ rest).head? ≠ some c := by
  intro hc
  have hl := @lead_write escape v rest
  rw [hc, Option.map_some] at hl
  rw [Option.some.inj hl] at h
  rcases v with _ | ⟨_ | _⟩ | _ | _ | _ | _ | _ <;> simp [lead] at h

theorem skipBlanks_write (v : Json) (rest : List Char) :
    skipBlanks (write escape v ++ rest) = write escape v ++ rest := by
  refine skipBlanks_of_head fun c hc hb => head_write_ne_of_leadOf ?_ v rest hc
  simp only [isBlank, List.mem_cons, List.not_mem_nil, or_false, decide_eq_true_eq] at hb
  rcases hb with rfl | rfl | rfl | rfl <;> decide

theorem skipBlanks_cons {c : Char} (h : ¬isBlank c) (rest : List Char) :
    skipBlanks (c :: rest) = c :: rest :=
  skipBlanks_of_head fun _ hc => by cases hc; exact h

section

variable {item : List Char → Option (Json × List Char)}

-- The reader of values reads this one back, whatever follows it.
def Reads (item : List Char → Option (Json × List Char)) (escape : Char → List Char) (v : Json) :
    Prop :=
  ∀ rest, Ends rest → item (write escape v ++ rest) = some (v, rest)

theorem items_separated {vs : List Json} {fuel : Nat} (h : ∀ v ∈ vs, Reads item escape v)
    (hn : vs ≠ []) (hf : vs.length ≤ fuel) (rest : List Char) :
    items item fuel (separated (write escape) vs ++ ']' :: rest) = some (vs, rest) := by
  induction vs generalizing fuel
  case nil => contradiction
  case cons v vs hi =>
    cases fuel
    case zero => simp at hf
    case succ fuel =>
      have hd : Delimits ']' (continued (write escape) vs ++ ']' :: rest) :=
        delimits_continued vs rest
      have hv := h v (.head _) _ <| hd.ends (by decide) (by decide)
      rw [separated_cons, List.append_assoc, items, skipBlanks_write, hv]
      cases vs
      case nil => rfl
      case cons w ws =>
        have hw := hi (fun v mem => h v (.tail _ mem)) (by simp) (by simpa using hf)
        simp only [continued, List.isEmpty_cons, Bool.false_eq_true, if_false, List.cons_append,
          Option.bind_eq_bind, Option.bind_some, skipBlanks_cons (c := ',') (by decide), hw]
        rfl

theorem array_separated {vs : List Json} (h : ∀ v ∈ vs, Reads item escape v) (rest : List Char) :
    Reader.array item (separated (write escape) vs ++ ']' :: rest) = some (.array vs, rest) := by
  cases vs
  case nil => rfl
  case cons v vs =>
    have hs := @skipBlanks_write escape v (continued (write escape) vs ++ ']' :: rest)
    have hf := length_le_separated (f := write escape) (v :: vs) ']' rest
    have hi := items_separated h (by simp) hf rest
    rw [separated_cons, List.append_assoc] at hi ⊢
    rw [Reader.array, hs]
    split
    case h_1 he => exact absurd (congrArg List.head? he) (head_write_ne v _)
    case h_2 => rw [hi]; rfl

theorem field_writeField (he : Readable escape) {f : String × Json} (h : Reads item escape f.2)
    {rest : List Char} (hr : Ends rest) :
    field item (writeField escape f ++ rest) = some (f, rest) := by
  rw [writeField, writeString]
  simp only [List.cons_append, List.append_assoc, List.nil_append]
  rw [field]
  simp only [he.string, Option.bind_eq_bind, Option.bind_some,
    skipBlanks_cons (c := ':') (by decide), skipBlanks_write, h rest hr]
  rfl

theorem skipBlanks_writeField (f : String × Json) (rest : List Char) :
    skipBlanks (writeField escape f ++ rest) = writeField escape f ++ rest := by
  rw [writeField, writeString]
  exact skipBlanks_cons (c := '"') (by decide) _

theorem fields_separated (he : Readable escape) {fs : Fields} {fuel : Nat}
    (h : ∀ f ∈ fs, Reads item escape f.2) (hn : fs ≠ []) (hf : fs.length ≤ fuel)
    (rest : List Char) :
    fields item fuel (separated (writeField escape) fs ++ '}' :: rest) = some (fs, rest) := by
  induction fs generalizing fuel
  case nil => contradiction
  case cons f fs hi =>
    cases fuel
    case zero => simp at hf
    case succ fuel =>
      have hd : Delimits '}' (continued (writeField escape) fs ++ '}' :: rest) :=
        delimits_continued fs rest
      have hv := field_writeField he (h f (.head _)) <| hd.ends (by decide) (by decide)
      rw [separated_cons, List.append_assoc, Reader.fields, skipBlanks_writeField, hv]
      cases fs
      case nil => rfl
      case cons g gs =>
        have hg := hi (fun f mem => h f (.tail _ mem)) (by simp) (by simpa using hf)
        simp only [continued, List.isEmpty_cons, Bool.false_eq_true, if_false, List.cons_append,
          Option.bind_eq_bind, Option.bind_some, skipBlanks_cons (c := ',') (by decide), hg]
        rfl

theorem object_separated (he : Readable escape) {fs : Fields} (ho : fs.Ordered)
    (h : ∀ f ∈ fs, Reads item escape f.2) (rest : List Char) :
    Reader.object item (separated (writeField escape) fs ++ '}' :: rest) =
      some (.object fs, rest) := by
  cases fs
  case nil => rfl
  case cons f fs =>
    have hs := @skipBlanks_writeField escape f
      (continued (writeField escape) fs ++ '}' :: rest)
    have hf := length_le_separated (f := writeField escape) (f :: fs) '}' rest
    have hi := fields_separated he h (by simp) hf rest
    rw [separated_cons, List.append_assoc] at hi ⊢
    rw [Reader.object, hs]
    split
    case h_1 heq => exact absurd (congrArg List.head? heq) (head_writeField_ne f _)
    case h_2 => rw [hi]; simp [ho.ofEntries]

end

theorem value_of_scalar {s : List Char} (ha : s.head? ≠ some '[') (ho : s.head? ≠ some '{')
    (depth : Nat) : value depth s = scalar s := by
  cases depth
  case zero => rfl
  case succ depth =>
    rw [value]
    case x_2 => rintro _ rfl; exact ha rfl
    case x_3 => rintro _ rfl; exact ho rfl

theorem scalar_of_number {s : List Char} {c : Char} (hs : s.head? = some c)
    (h : c.isDigit ∨ c = '-') : scalar s = number s := by
  rw [scalar]
  all_goals
    rintro _ rfl
    cases hs
    exact absurd h (by decide)

theorem Portable.reads (he : Readable escape) {depth : Nat} {v : Json} (h : Portable depth v) :
    Reads (value depth) escape v := by
  induction h
  case null => exact fun rest _ => value_of_scalar (by simp [write]) (by simp [write]) _
  case bool b =>
    cases b <;> exact fun rest _ => value_of_scalar (by simp [write]) (by simp [write]) _
  case int depth n hl hu =>
    intro rest hr
    obtain ⟨p, hd, ht, _⟩ := exists_intParts n
    obtain ⟨c, hc, hn⟩ := ht ▸ head_text hd rest
    have hb : c ≠ '[' ∧ c ≠ '{' := by constructor <;> rintro rfl <;> exact absurd hn (by decide)
    rw [write, value_of_scalar (by simp [hc, hb.left]) (by simp [hc, hb.right]),
      scalar_of_number hc hn, number_writeInt hl hu hr]
  case string depth s =>
    intro rest _
    rw [value_of_scalar (by simp [write, writeString]) (by simp [write, writeString])]
    simp only [write, writeString, List.cons_append, List.append_assoc, List.nil_append, scalar,
      he.string]
    rfl
  case array depth items _ hi =>
    intro rest _
    rw [write, writeItems_eq]
    simp only [List.cons_append, List.append_assoc, List.nil_append, value]
    exact array_separated hi rest
  case object depth fields ho _ hi =>
    intro rest _
    rw [write, writeFields_eq]
    simp only [List.cons_append, List.append_assoc, List.nil_append, value]
    exact object_separated he ho hi rest

-- Either way of escaping leaves a text that is read.
theorem Portable.parseWithin?_write (he : Readable escape) {depth : Nat} {v : Json}
    (h : Portable depth v) :
    Json.parseWithin? depth (String.ofList (write escape v)) = some v := by
  have hr := h.reads he [] .nil
  have hs := @skipBlanks_write escape v []
  rw [List.append_nil] at hr hs
  simp only [Json.parseWithin?, String.toList_ofList, hs, hr]
  rfl

theorem Portable.parseWithin? {depth : Nat} {v : Json} (h : Portable depth v) :
    parseWithin? depth v.text = some v :=
  h.parseWithin?_write readable_escape

-- Putting a field into an object does not make it deeper, unless the field is deep itself.
theorem Portable.insert {depth : Nat} {fields : Fields} {value : Json}
    (h : Portable (depth + 1) (.object fields)) (hv : Portable depth value) (key : String) :
    Portable (depth + 1) (.object (fields.insert key value)) := by
  cases h
  case object ho hf =>
    refine .object (ho.insert ..) fun f mem => ?_
    cases Fields.mem_insert mem
    case inl he => exact he ▸ hv
    case inr mem => exact hf f mem

theorem Portable.erase {depth : Nat} {fields : Fields} (h : Portable (depth + 1) (.object fields))
    (key : String) : Portable (depth + 1) (.object (fields.erase key)) := by
  cases h
  case object ho hf => exact .object (ho.erase key) fun f mem => hf f (List.mem_of_mem_filter mem)

end Json

-- A frame that is sent arrives as it is.
theorem Frame.ofText?_text {fields : Fields} (h : Json.Portable Json.depthLimit (.object fields)) :
    ofText? fields.text = some fields := by
  rw [ofText?, Fields.text, Json.parse?, h.parseWithin?]
  rfl

end LedgerWire
