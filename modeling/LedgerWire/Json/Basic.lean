import LedgerWire.Decimal.Basic

namespace LedgerWire

inductive Json where
  | null
  | bool (b : Bool)
  | int (n : Int)
  | decimal (x : Decimal)
  | string (s : String)
  | array (items : List Json)
  | object (fields : List (String × Json))
  deriving Repr, Inhabited

abbrev Fields := List (String × Json)

namespace Fields

def get? (fields : Fields) (key : String) : Option Json :=
  fields.lookup key

def insert (fields : Fields) (key : String) (value : Json) : Fields :=
  match fields with
  | [] => [(key, value)]
  | (k, v) :: rest =>
    if key < k then (key, value) :: (k, v) :: rest
    else if key = k then (key, value) :: rest
    else (k, v) :: insert rest key value

def erase (fields : Fields) (key : String) : Fields :=
  fields.filter (·.1 ≠ key)

-- Of two entries with one key the later stays.
def ofEntries (entries : List (String × Json)) : Fields :=
  entries.foldl (fun fields (key, value) => insert fields key value) []

end Fields

namespace Json

def bool? : Json → Option Bool
  | bool b => some b
  | _      => none

def unsigned? : Json → Option Nat
  | int n => if 0 ≤ n ∧ n < 2 ^ 64 then some n.toNat else none
  | _     => none

def string? : Json → Option String
  | string s => some s
  | _        => none

def items? : Json → Option (List Json)
  | array items => some items
  | _           => none

def fields? : Json → Option Fields
  | object fields => some fields
  | _             => none

mutual

-- The value with the fields of all its objects in order.
def sorted : Json → Json
  | array items   => array (sortedItems items)
  | object fields => object (sortedFields fields)
  | value         => value

def sortedItems : List Json → List Json
  | []            => []
  | item :: items => sorted item :: sortedItems items

def sortedFields : List (String × Json) → List (String × Json)
  | []                     => []
  | (key, value) :: fields => Fields.insert (sortedFields fields) key (sorted value)

end

end Json

end LedgerWire
