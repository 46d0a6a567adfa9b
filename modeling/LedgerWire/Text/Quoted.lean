import LedgerWire.Text.GraphemeExtend
import LedgerWire.Text.Unprintable

namespace LedgerWire.Text

def hexDigits (n : Nat) : String :=
  String.ofList (Nat.toDigits 16 n)

-- The only ignorable characters of Unicode 17 that neither extend nor are unprintable.
def fillers : Ranges :=
  [(0x115F, 0x1160), (0x3164, 0x3164), (0xFFA0, 0xFFA0)]

-- Halfwidth letters that extend what is before them, but in a place of their own.
def voicingMarks : Ranges :=
  [(0xFF9E, 0xFF9F)]

def needsEscape (c : Char) : Bool :=
  isUnprintable c || fillers.contains c || (isGraphemeExtend c && !voicingMarks.contains c)

def escaped : Char → String
  | '\x00' => "\\0"
  | '\t'   => "\\t"
  | '\r'   => "\\r"
  | '\n'   => "\\n"
  | '\''   => "\\'"
  | '\\'   => "\\\\"
  | c      =>
    if needsEscape c then "\\u\x7b" ++ hexDigits c.toNat ++ "\x7d" else c.toString

def quoted (c : Char) : String :=
  "'" ++ escaped c ++ "'"

end LedgerWire.Text
