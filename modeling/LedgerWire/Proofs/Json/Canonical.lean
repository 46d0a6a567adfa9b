import LedgerWire.Proofs.Bytes.Text
import LedgerWire.Proofs.Json.Reading
import Mathlib.Data.Bool.AllAny

namespace LedgerWire

variable {fields : Fields} {key : String} {f : String × Json}

namespace Fields

theorem ordered_iff :
    fields.Ordered ↔ fields.Pairwise fun f g => Bytes.ofText f.1 < Bytes.ofText g.1 := by
  simp only [Ordered, Bytes.ofText_lt_iff]

theorem insert_first (h : ∀ f ∈ fields, key < f.1) (value : Json) :
    fields.insert key value = (key, value) :: fields := by
  cases fields
  case nil => rfl
  case cons f fields => exact if_pos <| h f (.head _)

end Fields

namespace Json

variable {v : Json} {depth : Nat}

-- The keys of every object rise, byte by byte.
inductive InOrder : Json → Prop
  | null : InOrder null
  | bool (b : Bool) : InOrder (bool b)
  | int (n : Int) : InOrder (int n)
  | decimal (x : Decimal) : InOrder (decimal x)
  | string (s : String) : InOrder (string s)
  | array {items : List Json} : (∀ v ∈ items, InOrder v) → InOrder (array items)
  | object {fields : Fields} :
    (fields.Pairwise fun f g => Bytes.ofText f.1 < Bytes.ofText g.1) →
    (∀ f ∈ fields, InOrder f.2) → InOrder (object fields)

theorem mem_sortedFields (h : f ∈ sortedFields fields) : ∃ g ∈ fields, f = sortedField g := by
  induction fields
  case nil => cases h
  case cons g fields hi =>
    cases Fields.mem_insert h
    case inl he => exact ⟨g, .head _, he⟩
    case inr mem =>
      have ⟨g, mem, he⟩ := hi mem
      exact ⟨g, .tail _ mem, he⟩

theorem inOrder_sorted (v : Json) : v.sorted.InOrder := by
  induction v using induct
  case array items hi =>
    rw [sorted, sortedItems_eq]
    exact .array <| List.forall_mem_map.mpr hi
  case object fields hi =>
    refine .object (Fields.ordered_iff.mp <| ordered_sortedFields fields) fun f mem => ?_
    obtain ⟨g, hg, rfl⟩ := mem_sortedFields mem
    exact hi g hg
  all_goals constructor

theorem sortedFields_of_ordered (ho : fields.Ordered) (h : ∀ f ∈ fields, f.2.sorted = f.2) :
    sortedFields fields = fields := by
  induction fields
  case nil => rfl
  case cons f fields hi =>
    have ⟨hf, ho⟩ := List.pairwise_cons.mp ho
    have ⟨hv, h⟩ := List.forall_mem_cons.mp h
    rw [sortedFields, hi ho h, hv, Fields.insert_first hf]

-- Sorting leaves what is in order as it is.
theorem InOrder.sorted_eq (h : v.InOrder) : v.sorted = v := by
  induction h
  case array items _ hi =>
    rw [sorted, sortedItems_eq, List.map_congr_left hi, List.map_id']
  case object fields ho _ hi =>
    rw [sorted, sortedFields_of_ordered (Fields.ordered_iff.mpr ho) hi]
  all_goals rfl

-- Values without decimals that are nested at most so deep, with integers of 64 bits.
inductive Whole : Nat → Json → Prop
  | null {depth : Nat} : Whole depth null
  | bool {depth : Nat} (b : Bool) : Whole depth (bool b)
  | int {depth : Nat} {n : Int} : -2 ^ 63 ≤ n → n < 2 ^ 64 → Whole depth (int n)
  | string {depth : Nat} (s : String) : Whole depth (string s)
  | array {depth : Nat} {items : List Json} : (∀ v ∈ items, Whole depth v) →
    Whole (depth + 1) (array items)
  | object {depth : Nat} {fields : Fields} : (∀ f ∈ fields, Whole depth f.2) →
    Whole (depth + 1) (object fields)

namespace Whole

theorem sorted (h : Whole depth v) : Whole depth v.sorted := by
  induction h
  case array items _ hi =>
    rw [Json.sorted, sortedItems_eq]
    exact .array <| List.forall_mem_map.mpr hi
  case object fields _ hi =>
    refine .object fun f mem => ?_
    obtain ⟨g, hg, rfl⟩ := mem_sortedFields mem
    exact hi g hg
  case int hl hu => exact .int hl hu
  all_goals constructor

theorem portable (h : Whole depth v) (ho : v.InOrder) : Portable depth v := by
  induction h
  case null          => exact .null
  case bool b        => exact .bool b
  case int hl hu     => exact .int hl hu
  case string s      => exact .string s
  case array hi      =>
    cases ho
    case array ho => exact .array fun v mem => hi v mem (ho v mem)
  case object hi     =>
    cases ho
    case object hk ho => exact .object (Fields.ordered_iff.mpr hk) fun f mem => hi f mem (ho f mem)

end Whole

-- The value of a text that comes as bytes.
def ofBytes? (bs : Bytes) : Option Json :=
  (Bytes.toText? bs).bind parse?

theorem Whole.ofBytes?_canonical (h : Whole depthLimit v) :
    ofBytes? (Bytes.ofText v.canonical) = some v.sorted := by
  have hp := h.sorted.portable v.inOrder_sorted
  rw [ofBytes?, Bytes.toText?_ofText, Option.bind_some, parse?, canonical]
  exact hp.parseWithin?_write readable_guardedEscape

theorem canonical_reads_back (hw : Whole depthLimit v) (hk : v.DistinctKeys) :
    ∃ w, ofBytes? (Bytes.ofText v.canonical) = some w ∧ v.Reorders w ∧ (v.InOrder → w = v) ∧
      w.canonical = v.canonical := by
  refine ⟨v.sorted, hw.ofBytes?_canonical, .sorted hk, InOrder.sorted_eq, ?_⟩
  rw [canonical, canonical, v.inOrder_sorted.sorted_eq]

theorem Whole.repeat_array (h : Whole depth v) (n : Nat) :
    Whole (depth + n) (Nat.repeat (fun v => Json.array [v]) n v) := by
  induction n
  case zero      => exact h
  case succ _ hi => exact .array <| List.forall_mem_singleton.mpr hi

-- The value is nested as deep as it may be, and its fields are not in order.
theorem canonical_reads_back_at_the_limit :
    let fields := [("\u2028", string "<\x01\"é"), ("b", int (-2 ^ 63)), ("", int (2 ^ 64 - 1))]
    let v := Nat.repeat (fun v => array [v]) 126 (object fields)
    Whole depthLimit v ∧ v.DistinctKeys ∧ ∃ w, ofBytes? (Bytes.ofText v.canonical) = some w ∧
      v.Reorders w ∧ (v.InOrder → w = v) ∧ w.canonical = v.canonical := by
  intro fields v
  have hf : Whole 1 (object fields) := by
    refine .object ?_
    simp only [fields, List.forall_mem_cons]
    exact ⟨.string _, .int (by decide) (by decide), .int (by decide) (by decide), nofun⟩
  have hw : Whole depthLimit v := hf.repeat_array 126
  have hk : v.DistinctKeys := by decide +kernel
  exact ⟨hw, hk, canonical_reads_back hw hk⟩

-- The characters of markup and of line ends, which the canonical form does not show.
abbrev markupCharacters : List Char :=
  ['<', '>', '&', '\u2028', '\u2029']

-- What it shows instead. Other characters stay.
def hideMarkup : Char → List Char
  | '<'      => ['\\', 'u', '0', '0', '3', 'c']
  | '>'      => ['\\', 'u', '0', '0', '3', 'e']
  | '&'      => ['\\', 'u', '0', '0', '2', '6']
  | '\u2028' => ['\\', 'u', '2', '0', '2', '8']
  | '\u2029' => ['\\', 'u', '2', '0', '2', '9']
  | c        => [c]

-- A character that may stand in a canonical text. Where all characters of a short text are plain,
-- they are gone through with `List.all`: to decide it of all members would go through all characters
-- that there are.
def Plain (c : Char) : Prop :=
  c ∉ markupCharacters ∧ 0x20 ≤ c.toNat

instance (c : Char) : Decidable (Plain c) :=
  inferInstanceAs (Decidable (_ ∧ _))

section

variable {c d : Char}

theorem hideMarkup_of_not_mem (h : c ∉ markupCharacters) : hideMarkup c = [c] := by
  simp only [List.mem_cons, List.not_mem_nil, or_false, not_or] at h
  obtain ⟨h₁, h₂, h₃, h₄, h₅⟩ := h
  rw [hideMarkup] <;> assumption

theorem plain_unitEscape {unit : Nat} : ∀ d ∈ unitEscape unit, Plain d := by
  have hd : ∀ d ∈ Hex.Letters.lower.digits, Plain d :=
    List.all_iff_forall_prop.mp (by decide +kernel)
  rw [unitEscape, List.forall_mem_cons, List.forall_mem_cons]
  exact ⟨by decide, by decide, fun d mem => hd d <| Hex.mem_digits_of_mem_encodeChars mem⟩

-- An escape adds plain characters only.
theorem mem_escape (h : d ∈ escape c) : d = c ∧ 0x20 ≤ c.toNat ∨ Plain d := by
  unfold escape at h
  iterate 7
    split at h
    case isTrue => exact .inr <| List.all_iff_forall_prop.mp (by decide) d h
  split at h
  case isTrue => exact .inr <| plain_unitEscape d h
  case isFalse hc => exact .inl ⟨List.mem_singleton.mp h, by omega⟩

theorem plain_guardedEscape (h : d ∈ guardedEscape c) : Plain d := by
  rw [guardedEscape] at h
  split at h
  case isTrue => exact plain_unitEscape d h
  case isFalse hg =>
    have hc : c ∉ markupCharacters := by simpa [isGuarded] using hg
    cases mem_escape h
    case inl he => exact ⟨he.left ▸ hc, he.left ▸ he.right⟩
    case inr hp => exact hp

theorem flatMap_hideMarkup {s : List Char} (h : ∀ d ∈ s, d ∉ markupCharacters) :
    s.flatMap hideMarkup = s := by
  have hs := List.flatMap_congr fun d mem => hideMarkup_of_not_mem (h d mem)
  rw [hs, List.flatMap_singleton']

theorem guardedEscape_eq (c : Char) : guardedEscape c = (escape c).flatMap hideMarkup := by
  by_cases hc : c ∈ markupCharacters
  case pos =>
    have hm : ∀ c ∈ markupCharacters, guardedEscape c = (escape c).flatMap hideMarkup :=
      List.all_iff_forall_prop.mp (by decide +kernel)
    exact hm c hc
  case neg =>
    rw [guardedEscape, if_neg (by simpa [isGuarded] using hc), flatMap_hideMarkup]
    intro d mem
    cases mem_escape mem
    case inl he => exact he.left ▸ hc
    case inr hp => exact hp.left

end

section

variable {α : Type} {f : α → List Char} {xs : List α} {x : α} {d : Char}

theorem mem_separated (h : d ∈ separated f xs) : d = ',' ∨ ∃ x ∈ xs, d ∈ f x := by
  induction xs
  case nil => cases h
  case cons x xs hi =>
    rw [separated_cons, continued] at h
    cases List.mem_append.mp h
    case inl mem => exact .inr ⟨x, .head _, mem⟩
    case inr mem =>
      split at mem
      case isTrue => cases mem
      case isFalse =>
        cases mem
        case head => exact .inl rfl
        case tail mem =>
          refine (hi mem).imp_right ?_
          rintro ⟨y, hy, mem⟩
          exact ⟨y, .tail _ hy, mem⟩

theorem mem_separated_of_mem (hx : x ∈ xs) (hd : d ∈ f x) : d ∈ separated f xs := by
  induction xs
  case nil => cases hx
  case cons y xs hi =>
    rw [separated_cons, continued]
    cases hx
    case head => exact List.mem_append_left _ hd
    case tail hx =>
      rw [if_neg (by simpa using List.ne_nil_of_mem hx)]
      exact List.mem_append_right _ <| .tail _ (hi hx)

-- A function that leaves the comma alone works on each member by itself.
theorem flatMap_separated {g : Char → List Char} (hg : g ',' = [',']) (xs : List α) :
    (separated f xs).flatMap g = separated (fun x => (f x).flatMap g) xs := by
  induction xs
  case nil => rfl
  case cons x xs hi =>
    rw [separated_cons, separated_cons, List.flatMap_append, continued, continued]
    split
    case isTrue  => rfl
    case isFalse => rw [List.flatMap_cons, hg, hi]; rfl

theorem separated_congr {f g : α → List Char} (h : ∀ x ∈ xs, f x = g x) :
    separated f xs = separated g xs := by
  induction xs
  case nil => rfl
  case cons x xs hi =>
    have ⟨hx, hxs⟩ := List.forall_mem_cons.mp h
    rw [separated_cons, separated_cons, continued, continued, hx, hi hxs]

end

section

variable {escape : Char → List Char} {c d : Char} {s : String}

theorem plain_of_isDigit (h : d.isDigit) : Plain d := by
  constructor
  case left =>
    simp only [List.mem_cons, List.not_mem_nil, or_false]
    rintro (rfl | rfl | rfl | rfl | rfl) <;> exact absurd h (by decide)
  case right => exact Nat.le_trans (by decide) (Char.isDigit_iff_toNat.mp h).left

theorem plain_powerText (power : Option Int) : ∀ d ∈ Reader.Parts.powerText power, Plain d := by
  cases power
  case none => exact List.forall_mem_nil _
  case some n =>
    rw [Reader.Parts.powerText, List.forall_mem_cons, List.forall_mem_cons]
    refine ⟨by decide, ?_, fun d mem => plain_of_isDigit <| Reader.isDigit_toDigits _ d mem⟩
    split <;> decide

-- Numbers are made of digits, signs, a point and a letter.
theorem plain_number (hv : v.lead = '0') : ∀ d ∈ write escape v, Plain d := by
  obtain ⟨p, hp, ht, _⟩ := @exists_parts escape v hv
  rw [ht, Reader.Parts.text, List.forall_mem_append, List.forall_mem_append,
    List.forall_mem_append]
  refine ⟨?_, fun d mem => plain_of_isDigit (hp.whole d mem), ?_, plain_powerText p.power⟩
  case refine_1 => split <;> exact List.all_iff_forall_prop.mp (by decide)
  case refine_2 =>
    rw [Reader.Parts.pointText]
    split
    case isTrue => exact List.forall_mem_nil _
    case isFalse =>
      exact List.forall_mem_cons.mpr ⟨by decide, fun d mem => plain_of_isDigit (hp.places d mem)⟩

-- The string is a key or a value at some depth.
inductive Mentions (s : String) : Json → Prop
  | string : Mentions s (string s)
  | item {items : List Json} {v : Json} : v ∈ items → Mentions s v → Mentions s (array items)
  | key {fields : Fields} {f : String × Json} : f ∈ fields → f.1 = s → Mentions s (object fields)
  | field {fields : Fields} {f : String × Json} : f ∈ fields → Mentions s f.2 →
    Mentions s (object fields)

theorem mem_enclosed {first last : Char} {cs : List Char} (hf : Plain first) (hl : Plain last)
    (h : d ∈ first :: cs ++ [last]) : Plain d ∨ d ∈ cs := by
  rw [List.mem_append, List.mem_cons, List.mem_singleton] at h
  rcases h with (rfl | h) | rfl
  case inl.inl => exact .inl hf
  case inl.inr => exact .inr h
  case inr     => exact .inl hl

theorem mem_writeString (h : d ∈ writeString escape s) :
    Plain d ∨ ∃ c ∈ s.toList, d ∈ escape c := by
  have hm := mem_enclosed (by decide) (by decide) h
  exact hm.imp_right List.mem_flatMap.mp

theorem mem_writeField (h : d ∈ writeField escape f) :
    Plain d ∨ (∃ c ∈ f.1.toList, d ∈ escape c) ∨ d ∈ write escape f.2 := by
  rw [writeField, List.mem_append, List.mem_cons] at h
  rcases h with h | rfl | h
  case inl     => exact (mem_writeString h).imp_right .inl
  case inr.inl => exact .inl (by decide)
  case inr.inr => exact .inr <| .inr h

theorem mem_writeString_of_mem (hc : c ∈ s.toList) (hd : d ∈ escape c) :
    d ∈ writeString escape s := by
  rw [writeString, List.mem_append, List.mem_cons, List.mem_flatMap]
  exact .inl <| .inr ⟨c, hc, hd⟩

-- What is written has plain characters and escapes of those in the strings.
theorem mem_write (h : d ∈ write escape v) :
    Plain d ∨ ∃ s, v.Mentions s ∧ ∃ c ∈ s.toList, d ∈ escape c := by
  induction v using induct
  case int n     => exact .inl <| plain_number rfl d h
  case decimal x => exact .inl <| plain_number rfl d h
  case null      =>
    have hn : ∀ d ∈ write escape null, Plain d := by
      rw [write]
      exact List.all_iff_forall_prop.mp (by decide)
    exact .inl <| hn d h
  case bool b    =>
    have hb : ∀ d ∈ write escape (bool b), Plain d := by
      cases b <;> rw [write] <;> exact List.all_iff_forall_prop.mp (by decide)
    exact .inl <| hb d h
  case string s  => exact (mem_writeString h).imp_right fun hc => ⟨s, .string, hc⟩
  case array items hi =>
    rw [write, writeItems_eq] at h
    rcases mem_enclosed (by decide) (by decide) h with hp | h
    case inl => exact .inl hp
    case inr =>
      rcases mem_separated h with rfl | ⟨w, hw, mem⟩
      case inl => exact .inl (by decide)
      case inr =>
        refine (hi w hw mem).imp_right ?_
        rintro ⟨s, hs, hc⟩
        exact ⟨s, .item hw hs, hc⟩
  case object fields hi =>
    rw [write, writeFields_eq] at h
    rcases mem_enclosed (by decide) (by decide) h with hp | h
    case inl => exact .inl hp
    case inr =>
      rcases mem_separated h with rfl | ⟨f, hf, mem⟩
      case inl => exact .inl (by decide)
      case inr =>
        rcases mem_writeField mem with hp | hc | mem
        case inl     => exact .inl hp
        case inr.inl => exact .inr ⟨f.1, .key hf rfl, hc⟩
        case inr.inr =>
          refine (hi f hf mem).imp_right ?_
          rintro ⟨s, hs, hc⟩
          exact ⟨s, .field hf hs, hc⟩

theorem mem_write_of_mentions (h : v.Mentions s) (hc : c ∈ s.toList) (hd : d ∈ escape c) :
    d ∈ write escape v := by
  induction h
  case string => exact mem_writeString_of_mem hc hd
  case item hw _ hi =>
    rw [write, writeItems_eq, List.mem_append, List.mem_cons]
    exact .inl <| .inr <| mem_separated_of_mem hw hi
  case key hf he =>
    rw [write, writeFields_eq, List.mem_append, List.mem_cons]
    refine .inl <| .inr <| mem_separated_of_mem hf ?_
    exact List.mem_append_left _ <| mem_writeString_of_mem (he ▸ hc) hd
  case field hf _ hi =>
    rw [write, writeFields_eq, List.mem_append, List.mem_cons]
    refine .inl <| .inr <| mem_separated_of_mem hf ?_
    exact List.mem_append_right _ <| .tail _ hi

theorem plain_canonical (v : Json) : ∀ d ∈ v.canonical.toList, Plain d := by
  intro d mem
  rw [canonical, String.toList_ofList] at mem
  rcases mem_write mem with hd | ⟨_, _, c, _, hd⟩
  case inl => exact hd
  case inr => exact plain_guardedEscape hd

theorem writeString_guardedEscape (s : String) :
    writeString guardedEscape s = (writeString Json.escape s).flatMap hideMarkup := by
  have hs := List.flatMap_congr fun c (_ : c ∈ s.toList) => guardedEscape_eq c
  simp only [writeString, List.flatMap_append, List.flatMap_cons, List.flatMap_assoc, hs]
  rfl

theorem write_guardedEscape (v : Json) :
    write guardedEscape v = (write Json.escape v).flatMap hideMarkup := by
  induction v using induct
  case int n     => exact (flatMap_hideMarkup fun d mem => (plain_number rfl d mem).left).symm
  case decimal x => exact (flatMap_hideMarkup fun d mem => (plain_number rfl d mem).left).symm
  case null      => rfl
  case bool b    => cases b <;> rfl
  case string s  => exact writeString_guardedEscape s
  case array items hi =>
    simp only [write, writeItems_eq, List.flatMap_append, List.flatMap_cons,
      flatMap_separated (g := hideMarkup) rfl, separated_congr hi]
    rfl
  case object fields hi =>
    have hf : ∀ f ∈ fields, writeField guardedEscape f =
        (writeField Json.escape f).flatMap hideMarkup := by
      intro f mem
      simp only [writeField, List.flatMap_append, List.flatMap_cons, writeString_guardedEscape,
        hi f mem]
      rfl
    simp only [write, writeFields_eq, List.flatMap_append, List.flatMap_cons,
      flatMap_separated (g := hideMarkup) rfl, separated_congr hf]
    rfl

end

theorem toList_canonical (h : v.InOrder) :
    v.canonical.toList = v.text.toList.flatMap hideMarkup := by
  rw [canonical, text, String.toList_ofList, String.toList_ofList, h.sorted_eq,
    write_guardedEscape]

-- Characters of markup are in the text if and only if they are in the strings.
theorem canonical_eq_text_iff (h : v.InOrder) : v.canonical = v.text ↔
    ∀ s, v.Mentions s → ∀ c ∈ s.toList, c ∉ markupCharacters := by
  have escape_eq : ∀ c ∈ markupCharacters, escape c = [c] :=
    List.all_iff_forall_prop.mp (by decide)
  constructor
  case mp =>
    intro he s hs c hc hm
    have mem : c ∈ v.text.toList := by
      rw [text, String.toList_ofList]
      exact mem_write_of_mentions hs hc (escape_eq c hm ▸ .head _)
    exact (v.plain_canonical c (he ▸ mem)).left hm
  case mpr =>
    intro hs
    rw [← String.toList_inj, toList_canonical h, flatMap_hideMarkup]
    intro d mem
    rw [text, String.toList_ofList] at mem
    rcases mem_write mem with hd | ⟨s, hv, c, hc, hd⟩
    case inl => exact hd.left
    case inr =>
      cases mem_escape hd
      case inl he => exact he.left ▸ hs s hv c hc
      case inr hd => exact hd.left

theorem canonical_hides_markup (h : v.InOrder) :
    v.canonical.toList = v.text.toList.flatMap hideMarkup ∧
    (v.canonical = v.text ↔ ∀ s, v.Mentions s → ∀ c ∈ s.toList, c ∉ markupCharacters) ∧
    ∀ c ∈ v.canonical.toList, c ∉ markupCharacters ∧ 0x20 ≤ c.toNat :=
  ⟨toList_canonical h, canonical_eq_text_iff h, v.plain_canonical⟩

-- Markup stands in a key and in a string here, beside a control character and a negative zero.
theorem canonical_hides_markup_of_keys :
    let v := object [("<k>", array [string "a&b\x01\u2029", decimal (.zero true)]), ("k", null)]
    v.InOrder ∧ v.canonical.toList = v.text.toList.flatMap hideMarkup ∧
    (v.canonical = v.text ↔ ∀ s, v.Mentions s → ∀ c ∈ s.toList, c ∉ markupCharacters) ∧
    ∀ c ∈ v.canonical.toList, c ∉ markupCharacters ∧ 0x20 ≤ c.toNat := by
  intro v
  have hv : v.InOrder := by
    refine .object (by decide +kernel) ?_
    simp only [List.forall_mem_cons]
    refine ⟨.array ?_, .null, nofun⟩
    simp only [List.forall_mem_cons]
    exact ⟨.string _, .decimal _, nofun⟩
  exact ⟨hv, canonical_hides_markup hv⟩

end Json
end LedgerWire
