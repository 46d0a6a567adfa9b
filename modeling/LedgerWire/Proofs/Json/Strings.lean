import LedgerWire.Json.Parser
import LedgerWire.Json.Writer
import Mathlib.Data.List.Basic

namespace LedgerWire.Json

open Reader

-- What the reader makes of a text whose first character was `c`.
def Reader.prepend (c : Char) (read : Option (List Piece × List Char)) :
    Option (List Piece × List Char) :=
  read.map fun (ps, rest) => (.whole c :: ps, rest)

-- The code of a character is never that of half a pair.
theorem Reader.Piece.ofUnit_toNat {c : Char} : Piece.ofUnit c.toNat = .whole c := by
  have hv := c.valid
  rw [Piece.ofUnit, if_neg, if_neg, Char.ofNat_toNat]
  all_goals
    simp only [UInt32.isValidChar, Nat.isValidChar] at hv
    simp only [Char.toNat]
    omega

theorem pieces_unitEscape {c : Char} (h : c.toNat < 0x10000) (rest : List Char) :
    pieces (unitEscape c.toNat ++ rest) = prepend c (pieces rest) := by
  have hl : (Hex.encodeChars .lower (Bytes.ofNatBE 2 c.toNat)).length = 4 := by simp
  have hd := Hex.decodeChars?_encodeChars .lower (Bytes.ofNatBE 2 c.toNat)
  have hn : Bytes.toNatBE (Bytes.ofNatBE 2 c.toNat) = c.toNat := by
    rw [Bytes.toNatBE, Bytes.ofNatBE, List.reverse_reverse, Bytes.toNatLE_ofNatLE h]
  rw [unitEscape]
  generalize Hex.encodeChars .lower (Bytes.ofNatBE 2 c.toNat) = ds at hl hd
  obtain ⟨x, y, z, w, rfl⟩ := List.length_eq_four.mp hl
  simp only [List.cons_append, List.nil_append, pieces, hd, Option.bind_eq_bind, Option.bind_some,
    hn, Piece.ofUnit_toNat]
  cases pieces rest <;> rfl

-- A letter that stands for some character is not the `u` of a unit.
theorem pieces_short {c letter : Char} (h : shortEscape? letter = some c) (rest : List Char) :
    pieces ('\\' :: letter :: rest) = prepend c (pieces rest) := by
  rw [pieces]
  case x_1 => rintro _ _ _ _ _ rfl; cases h
  rw [h]
  cases pieces rest <;> rfl

theorem pieces_plain {c : Char} (hq : c ≠ '"') (hb : c ≠ '\\') (hc : ¬c.toNat < 0x20)
    (rest : List Char) : pieces (c :: rest) = prepend c (pieces rest) := by
  rw [pieces]
  case x_1 => exact hq
  case x_2 => exact fun _ _ _ _ _ he _ => hb he
  case x_3 => exact fun _ _ he _ => hb he
  rw [if_neg (not_or.mpr ⟨hb, hc⟩)]
  cases pieces rest <;> rfl

-- The reader takes back one character for each escape.
def Readable (escape : Char → List Char) : Prop :=
  ∀ c rest, pieces (escape c ++ rest) = prepend c (pieces rest)

theorem readable_escape : Readable escape := by
  intro c rest
  unfold escape
  -- The seven characters that have a letter of their own come first.
  iterate 7
    split
    case isTrue hc =>
      subst hc
      exact pieces_short rfl rest
  split
  case isTrue hc => exact pieces_unitEscape (by omega) rest
  case isFalse hq hb _ _ _ _ _ hc => exact pieces_plain hq hb hc rest

theorem readable_guardedEscape : Readable guardedEscape := by
  intro c rest
  rw [guardedEscape]
  split
  case isFalse => exact readable_escape c rest
  case isTrue h =>
    simp only [isGuarded, List.mem_cons, List.not_mem_nil, or_false, decide_eq_true_eq] at h
    refine pieces_unitEscape ?_ rest
    rcases h with rfl | rfl | rfl | rfl | rfl <;> decide

theorem join?_whole (cs : List Char) : join? (cs.map .whole) = some cs := by
  induction cs
  case nil => rfl
  case cons c cs hi => rw [List.map_cons, join?, hi, Option.map_some]

variable {escape : Char → List Char}

theorem Readable.pieces (h : Readable escape) (cs rest : List Char) :
    Reader.pieces (cs.flatMap escape ++ '"' :: rest) = some (cs.map .whole, rest) := by
  induction cs
  case nil => rw [List.flatMap_nil, List.nil_append, Reader.pieces, List.map_nil]
  case cons c cs hi => rw [List.flatMap_cons, List.append_assoc, h, hi]; rfl

theorem Readable.string (h : Readable escape) (s : String) (rest : List Char) :
    Reader.string (s.toList.flatMap escape ++ '"' :: rest) = some (s, rest) := by
  simp only [Reader.string, h.pieces, Option.bind_eq_bind, Option.bind_some, join?_whole,
    String.ofList_toList]
  rfl

end LedgerWire.Json
