import LedgerWire.Decimal.Shortest
import LedgerWire.Json.Basic
import LedgerWire.Json.Escape

namespace LedgerWire.Json

namespace Reader

def isBlank (c : Char) : Bool :=
  c ∈ [' ', '\t', '\n', '\r']

def skipBlanks (s : List Char) : List Char :=
  s.dropWhile isBlank

-- What an escape or a character in a string contributes: a character, or one half of a pair.
inductive Piece where
  | whole (c : Char)
  | high (unit : Nat)
  | low (unit : Nat)
  deriving DecidableEq, Repr

def Piece.ofUnit (unit : Nat) : Piece :=
  if 0xd800 ≤ unit ∧ unit < 0xdc00 then .high unit
  else if 0xdc00 ≤ unit ∧ unit < 0xe000 then .low unit
  else .whole (Char.ofNat unit)

def pieces : List Char → Option (List Piece × List Char)
  | [] => none
  | '"' :: rest => some ([], rest)
  | '\\' :: 'u' :: a :: b :: c :: d :: rest => do
    let unit ← Hex.decodeChars? [a, b, c, d]
    let (ps, rest) ← pieces rest
    return (.ofUnit (Bytes.toNatBE unit) :: ps, rest)
  | '\\' :: letter :: rest => do
    let c ← shortEscape? letter
    let (ps, rest) ← pieces rest
    return (.whole c :: ps, rest)
  | c :: rest =>
    if c = '\\' ∨ c.toNat < 0x20 then none
    else do
      let (ps, rest) ← pieces rest
      return (.whole c :: ps, rest)

def pair (high low : Nat) : Char :=
  Char.ofNat (0x10000 + (high - 0xd800) * 0x400 + (low - 0xdc00))

-- Joins the halves of pairs. Every half must have its other half beside it.
def join? : List Piece → Option (List Char)
  | []                       => some []
  | .whole c :: ps           => (join? ps).map (c :: ·)
  | .high hi :: .low lo :: ps => (join? ps).map (pair hi lo :: ·)
  | _                        => none

def string (s : List Char) : Option (String × List Char) := do
  let (ps, rest) ← pieces s
  let cs ← join? ps
  return (String.ofList cs, rest)

def digits (s : List Char) : List Char × List Char :=
  s.span Char.isDigit

def valueOf (digits : List Char) : Nat :=
  Nat.ofDigitChars 10 digits 0

def minus : List Char → Bool × List Char
  | '-' :: s => (true, s)
  | s        => (false, s)

def sign : List Char → Bool × List Char
  | '+' :: s => (false, s)
  | s        => minus s

def fraction (s : List Char) : Option (List Char × List Char) :=
  match s with
  | '.' :: s =>
    let (ds, rest) := digits s
    if ds.isEmpty then none else some (ds, rest)
  | s => some ([], s)

def exponent (s : List Char) : Option (Option Int × List Char) :=
  match s with
  | 'e' :: s | 'E' :: s =>
    let (negative, s) := sign s
    let (ds, rest) := digits s
    if ds.isEmpty then none
    else some (some (if negative then -(valueOf ds) else valueOf ds), rest)
  | s => some (none, s)

-- Takes in digits for as long as the word has room for them, and returns the others.
def fill (word : Nat) : List Char → Nat × List Char
  | []      => (word, [])
  | d :: ds =>
    let next := 10 * word + valueOf [d]
    if next < 2 ^ 64 then fill next ds else (word, d :: ds)

-- Of the digits that the word has no room for, those before the point still count as places.
def approximate? (negative : Bool) (whole places : List Char) (power : Int) : Option Json := do
  let (word, skipped) := fill 0 whole
  let (word, dropped) := fill word places
  let exponent := power + skipped.length - (places.length - dropped.length)
  let x ← Binary64.ofFraction? word 1
  return .decimal (.ofBinary64 negative (← x.scale? exponent))

-- An integer keeps its sign but for zero, which has a negative form among the decimals only.
def ofWhole? (negative : Bool) (whole : List Char) : Option Json :=
  let n := valueOf whole
  if negative ∧ 0 < n ∧ n ≤ 2 ^ 63 then some (.int (-n))
  else if ¬negative ∧ n < 2 ^ 64 then some (.int n)
  else approximate? negative whole [] 0

def ofParts? (negative : Bool) (whole places : List Char) (power : Option Int) : Option Json :=
  if places.isEmpty ∧ power.isNone then ofWhole? negative whole
  else approximate? negative whole places (power.getD 0)

def number (s : List Char) : Option (Json × List Char) := do
  let (negative, s) := minus s
  let (whole, s) := digits s
  if whole.isEmpty ∨ (whole.head? = some '0' ∧ 1 < whole.length) then none
  else do
    let (places, s) ← fraction s
    let (power, s) ← exponent s
    let value ← ofParts? negative whole places power
    return (value, s)

-- One or more items up to the closing bracket, each read by `item`.
def items (item : List Char → Option (Json × List Char)) :
    (fuel : Nat) → List Char → Option (List Json × List Char)
  | 0, _ => none
  | fuel + 1, s => do
    let (value, s) ← item (skipBlanks s)
    match skipBlanks s with
    | ']' :: s => return ([value], s)
    | ',' :: s => do
      let (values, s) ← items item fuel s
      return (value :: values, s)
    | _ => none

def field (item : List Char → Option (Json × List Char)) (s : List Char) :
    Option ((String × Json) × List Char) := do
  let '"' :: s := s | none
  let (key, s) ← string s
  let ':' :: s := skipBlanks s | none
  let (value, s) ← item (skipBlanks s)
  return ((key, value), s)

def fields (item : List Char → Option (Json × List Char)) :
    (fuel : Nat) → List Char → Option (List (String × Json) × List Char)
  | 0, _ => none
  | fuel + 1, s => do
    let (entry, s) ← field item (skipBlanks s)
    match skipBlanks s with
    | '}' :: s => return ([entry], s)
    | ',' :: s => do
      let (entries, s) ← fields item fuel s
      return (entry :: entries, s)
    | _ => none

def array (item : List Char → Option (Json × List Char)) (s : List Char) :
    Option (Json × List Char) :=
  match skipBlanks s with
  | ']' :: s => some (.array [], s)
  | s => do
    let (values, s) ← items item s.length s
    return (.array values, s)

def object (item : List Char → Option (Json × List Char)) (s : List Char) :
    Option (Json × List Char) :=
  match skipBlanks s with
  | '}' :: s => some (.object [], s)
  | s => do
    let (entries, s) ← fields item s.length s
    return (.object (Fields.ofEntries entries), s)

def scalar (s : List Char) : Option (Json × List Char) :=
  match s with
  | 'n' :: 'u' :: 'l' :: 'l' :: s        => some (.null, s)
  | 't' :: 'r' :: 'u' :: 'e' :: s        => some (.bool true, s)
  | 'f' :: 'a' :: 'l' :: 's' :: 'e' :: s => some (.bool false, s)
  | '"' :: s => do
    let (text, s) ← string s
    return (.string text, s)
  | s => number s

-- A value whose arrays and objects nest at most `depth` deep.
def value : (depth : Nat) → List Char → Option (Json × List Char)
  | 0, s => scalar s
  | depth + 1, s =>
    match s with
    | '[' :: s => array (value depth) s
    | '{' :: s => object (value depth) s
    | s        => scalar s

end Reader

def depthLimit : Nat := 127

-- The value of a text with nothing but blanks around it.
def parseWithin? (depth : Nat) (text : String) : Option Json := do
  let (value, rest) ← Reader.value depth (Reader.skipBlanks text.toList)
  if (Reader.skipBlanks rest).isEmpty then some value else none

def parse? (text : String) : Option Json :=
  parseWithin? depthLimit text

end LedgerWire.Json
