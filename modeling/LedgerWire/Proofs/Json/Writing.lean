import LedgerWire.Proofs.Json.Numbers
import LedgerWire.Proofs.Json.Strings

namespace LedgerWire.Json

-- Induction with a hypothesis for every item and every field.
theorem induct {P : Json → Prop} (null : P .null) (bool : ∀ b, P (.bool b)) (int : ∀ n, P (.int n))
    (decimal : ∀ x, P (.decimal x)) (string : ∀ s, P (.string s))
    (array : ∀ items, (∀ v ∈ items, P v) → P (.array items))
    (object : ∀ fields, (∀ f ∈ fields, P f.2) → P (.object fields)) (v : Json) : P v :=
  @Json.rec P (fun items => ∀ v ∈ items, P v) (fun fields => ∀ f ∈ fields, P f.2) (P ·.2)
    null bool int decimal string array object
    (List.forall_mem_nil _) (fun _ _ hv hvs => List.forall_mem_cons.mpr ⟨hv, hvs⟩)
    (List.forall_mem_nil _) (fun _ _ hf hfs => List.forall_mem_cons.mpr ⟨hf, hfs⟩)
    (fun _ _ hv => hv) v

-- The writing of `x` differs from any other writing, and from the beginning of any other.
def Apart {α : Type} (f : α → List Char) (Follows : List Char → Prop) (x : α) : Prop :=
  ∀ y r s, Follows r → Follows s → f x ++ r = f y ++ s → x = y ∧ r = s

section

variable {α : Type} {f : α → List Char} {close : Char}

-- The writings of the members with a comma between any two.
def separated (f : α → List Char) : List α → List Char
  | []      => []
  | [x]     => f x
  | x :: xs => f x ++ ',' :: separated f xs

def continued (f : α → List Char) (xs : List α) : List Char :=
  if xs.isEmpty then [] else ',' :: separated f xs

-- What follows a member is a comma or the end of the list.
def Delimits (close : Char) (rest : List Char) : Prop :=
  rest.head? = some ',' ∨ rest.head? = some close

theorem separated_cons (x : α) (xs : List α) : separated f (x :: xs) = f x ++ continued f xs := by
  cases xs <;> simp [separated, continued]

theorem delimits_continued (xs : List α) (rest : List Char) :
    Delimits close (continued f xs ++ close :: rest) := by
  cases xs
  case nil  => exact .inr rfl
  case cons => exact .inl rfl

theorem Delimits.ends {rest : List Char} (h : Delimits close rest) (hd : ¬close.isDigit)
    (hc : close ∉ ['.', 'e', 'E']) : Reader.Ends rest := by
  cases rest
  case nil => exact .nil
  case cons c rest =>
    cases h
    case inl h => cases h; exact .cons (by decide) (by decide)
    case inr h => cases h; exact .cons hd hc

-- A list tells where its members end, and where it ends itself. No member begins like the end of
-- the list, so an empty list is not taken for another.
theorem separated_inj (hcomma : close ≠ ',') (hclose : ∀ x rest, (f x ++ rest).head? ≠ some close)
    {xs ys : List α} {r s : List Char} (hf : ∀ x ∈ xs, Apart f (Delimits close) x)
    (h : separated f xs ++ close :: r = separated f ys ++ close :: s) : xs = ys ∧ r = s := by
  induction xs generalizing ys
  case nil =>
    cases ys
    case nil => simpa [separated] using h
    case cons y ys =>
      rw [separated_cons, List.append_assoc] at h
      exact absurd (congrArg List.head? h).symm (hclose y _)
  case cons x xs hi =>
    cases ys
    case nil =>
      rw [separated_cons, List.append_assoc] at h
      exact absurd (congrArg List.head? h) (hclose x _)
    case cons y ys =>
      rw [separated_cons, separated_cons, List.append_assoc, List.append_assoc] at h
      have ⟨hx, ht⟩ := hf x (.head _) y _ _ (delimits_continued xs r) (delimits_continued ys s) h
      subst hx
      -- Both lists go on behind the first member, or both end there.
      cases xs <;> cases ys
      case nil.nil => simpa [continued] using ht
      case nil.cons => simp [continued, hcomma] at ht
      case cons.nil => simp [continued, hcomma.symm] at ht
      case cons.cons =>
        simp only [continued, List.isEmpty_cons, Bool.false_eq_true, if_false, List.cons_append,
          List.cons.injEq, true_and] at ht
        have ⟨hxs, hrs⟩ := hi (fun x mem => hf x <| .tail _ mem) ht
        exact ⟨hxs ▸ rfl, hrs⟩

end

variable {escape : Char → List Char}

def writeField (escape : Char → List Char) (field : String × Json) : List Char :=
  writeString escape field.1 ++ ':' :: write escape field.2

theorem writeItems_eq (items : List Json) :
    writeItems escape items = separated (write escape) items := by
  induction items
  case nil => rfl
  case cons item items hi =>
    cases items
    case nil  => rfl
    case cons => simp only [writeItems, hi, separated]

theorem writeFields_eq (fields : Fields) :
    writeFields escape fields = separated (writeField escape) fields := by
  induction fields
  case nil => rfl
  case cons field fields hi =>
    cases fields
    case nil  => rfl
    case cons => simp only [writeFields, hi, separated, writeField]

-- What the first character of a written value tells about it. All numbers count as one kind.
def lead : Json → Char
  | null                => 'n'
  | bool true           => 't'
  | bool false          => 'f'
  | int _ | decimal _   => '0'
  | string _            => '"'
  | array _             => '['
  | object _            => '{'

-- A digit and a minus both begin a number.
def leadOf (c : Char) : Char :=
  if c.isDigit ∨ c = '-' then '0' else c

theorem exists_parts {v : Json} (h : v.lead = '0') :
    ∃ p : Reader.Parts, p.Digital ∧ write escape v = p.text ∧ p.value = v := by
  cases v
  case int n     => exact Reader.exists_intParts n
  case decimal x => exact Reader.exists_decimalParts layout x
  case bool b    => cases b <;> simp [lead] at h
  all_goals simp [lead] at h

-- So values of two kinds differ in the first character of what is written.
theorem lead_write (v : Json) (rest : List Char) :
    (write escape v ++ rest).head?.map leadOf = some v.lead := by
  by_cases hn : v.lead = '0'
  case pos =>
    have ⟨p, hd, ht, _⟩ := @exists_parts escape v hn
    have ⟨c, hc, hl⟩ := Reader.head_text hd rest
    rw [ht, hc, hn, Option.map_some, leadOf, if_pos hl]
  case neg =>
    cases v
    case bool b => cases b <;> rfl
    case int n => exact absurd rfl hn
    case decimal x => exact absurd rfl hn
    all_goals rfl

theorem apart_number {v : Json} {w : Json} {r s : List Char} (hv : v.lead = '0')
    (hw : w.lead = '0') (hr : Reader.Ends r) (hs : Reader.Ends s)
    (h : write escape v ++ r = write escape w ++ s) : v = w ∧ r = s := by
  have ⟨p, hd, ht, hp⟩ := @exists_parts escape v hv
  have ⟨q, hd', ht', hq⟩ := @exists_parts escape w hw
  -- The reader finds the parts of both numbers in the same text, so they are the same parts.
  have hread := Reader.parts_text hd hr
  rw [← ht, h, ht', Reader.parts_text hd' hs] at hread
  cases hread
  exact ⟨hp.symm.trans hq, rfl⟩

theorem apart_string (he : Readable escape) (s : String) :
    Apart (writeString escape) (fun _ => True) s := by
  intro s' r r' _ _ h
  simp only [writeString, List.append_assoc, List.cons_append, List.nil_append, List.cons.injEq,
    true_and] at h
  have hread := he.string s r
  rw [h, he.string s' r'] at hread
  cases hread
  exact ⟨rfl, rfl⟩

theorem apart_field (he : Readable escape) {field : String × Json}
    (hv : Apart (write escape) Reader.Ends field.2) :
    Apart (writeField escape) (Delimits '}') field := by
  intro other r s hr hs h
  simp only [writeField, List.append_assoc, List.cons_append] at h
  have ⟨hk, h⟩ := apart_string he field.1 other.1 _ _ trivial trivial h
  have hr := hr.ends (by decide) (by decide)
  have hs := hs.ends (by decide) (by decide)
  have ⟨hv, hrs⟩ := hv other.2 r s hr hs (List.cons.inj h).right
  exact ⟨Prod.ext hk hv, hrs⟩

theorem head_write_ne (v : Json) (rest : List Char) :
    (write escape v ++ rest).head? ≠ some ']' := by
  intro hc
  have hl := @lead_write escape v rest
  have hb : leadOf ']' = ']' := by decide
  rw [hc, Option.map_some, hb] at hl
  rcases v with _ | ⟨_ | _⟩ | _ | _ | _ | _ | _ <;> simp [lead] at hl

theorem head_writeField_ne (field : String × Json) (rest : List Char) :
    (writeField escape field ++ rest).head? ≠ some '}' := by
  simp [writeField, writeString]

theorem apart_write (he : Readable escape) (v : Json) : Apart (write escape) Reader.Ends v := by
  induction v using induct
  all_goals
    intro w r s hr hs h
    have hl := Option.some.inj <| (lead_write _ r).symm.trans <| h ▸ lead_write w s
  case int n     => exact apart_number rfl hl.symm hr hs h
  case decimal x => exact apart_number rfl hl.symm hr hs h
  -- In the other cases the first character leaves one kind of value for `w`.
  case null =>
    rcases w with _ | ⟨_ | _⟩ | _ | _ | _ | _ | _ <;> simp [lead] at hl
    simpa [write] using h
  case bool b =>
    cases b <;> rcases w with _ | ⟨_ | _⟩ | _ | _ | _ | _ | _ <;> simp [lead] at hl
    all_goals simpa [write] using h
  case string text =>
    rcases w with _ | ⟨_ | _⟩ | _ | _ | _ | _ | _ <;> simp [lead] at hl
    have ⟨ht, hrs⟩ := apart_string he text _ r s trivial trivial h
    exact ⟨ht ▸ rfl, hrs⟩
  case array items hi =>
    rcases w with _ | ⟨_ | _⟩ | _ | _ | _ | _ | _ <;> simp [lead] at hl
    simp only [write, List.cons_append, List.cons.injEq, true_and, List.append_assoc,
      List.nil_append, writeItems_eq] at h
    have hv : ∀ v ∈ items, Apart (write escape) (Delimits ']') v := by
      intro v mem w r s hr hs
      exact hi v mem w r s (hr.ends (by decide) (by decide)) (hs.ends (by decide) (by decide))
    have ⟨hvs, hrs⟩ := separated_inj (by decide) head_write_ne hv h
    exact ⟨hvs ▸ rfl, hrs⟩
  case object fields hi =>
    rcases w with _ | ⟨_ | _⟩ | _ | _ | _ | _ | _ <;> simp [lead] at hl
    simp only [write, List.cons_append, List.cons.injEq, true_and, List.append_assoc,
      List.nil_append, writeFields_eq] at h
    have hf : ∀ f ∈ fields, Apart (writeField escape) (Delimits '}') f :=
      fun f mem => apart_field he <| hi f mem
    have ⟨hfs, hrs⟩ := separated_inj (by decide) head_writeField_ne hf h
    exact ⟨hfs ▸ rfl, hrs⟩

theorem write_injective (he : Readable escape) : Function.Injective (write escape) := by
  intro v w h
  exact (apart_write he v w [] [] .nil .nil <| by rw [h]).left

end LedgerWire.Json
