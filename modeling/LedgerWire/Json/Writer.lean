import LedgerWire.Json.Basic
import LedgerWire.Json.Escape

namespace LedgerWire.Json

-- Numbers are positional from `0.00001` to below `1e+16`.
def layout : Decimal.Layout :=
  ⟨-5, 16⟩

def writeInt : Int → List Char
  | .ofNat n   => Nat.toDigits 10 n
  | .negSucc n => '-' :: Nat.toDigits 10 (n + 1)

def writeString (escape : Char → List Char) (s : String) : List Char :=
  '"' :: s.toList.flatMap escape ++ ['"']

mutual

def write (escape : Char → List Char) : Json → List Char
  | null          => ['n', 'u', 'l', 'l']
  | bool true     => ['t', 'r', 'u', 'e']
  | bool false    => ['f', 'a', 'l', 's', 'e']
  | int n         => writeInt n
  | decimal x     => layout.write x
  | string s      => writeString escape s
  | array items   => '[' :: writeItems escape items ++ [']']
  | object fields => '{' :: writeFields escape fields ++ ['}']

def writeItems (escape : Char → List Char) : List Json → List Char
  | []            => []
  | [item]        => write escape item
  | item :: items => write escape item ++ ',' :: writeItems escape items

def writeFields (escape : Char → List Char) : List (String × Json) → List Char
  | []             => []
  | [(key, value)] => writeString escape key ++ ':' :: write escape value
  | (key, value) :: fields =>
    writeString escape key ++ ':' :: write escape value ++ ',' :: writeFields escape fields

end

def text (value : Json) : String :=
  String.ofList (write escape value)

-- The text that is signed. It does not depend on the order of fields.
def canonical (value : Json) : String :=
  String.ofList (write guardedEscape value.sorted)

end LedgerWire.Json

namespace LedgerWire.Fields

def text (fields : Fields) : String :=
  (Json.object fields).text

end LedgerWire.Fields
