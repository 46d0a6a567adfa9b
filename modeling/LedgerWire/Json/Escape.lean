import LedgerWire.Bytes.Hex

namespace LedgerWire.Json

def unitEscape (unit : Nat) : List Char :=
  '\\' :: 'u' :: Hex.encodeChars .lower (Bytes.ofNatBE 2 unit)

def escape (c : Char) : List Char :=
  if c = '"' then ['\\', '"']
  else if c = '\\' then ['\\', '\\']
  else if c = '\x08' then ['\\', 'b']
  else if c = '\x0c' then ['\\', 'f']
  else if c = '\n' then ['\\', 'n']
  else if c = '\r' then ['\\', 'r']
  else if c = '\t' then ['\\', 't']
  else if c.toNat < 0x20 then unitEscape c.toNat
  else [c]

-- The characters that only the canonical form escapes.
def isGuarded (c : Char) : Bool :=
  c ∈ ['<', '>', '&', '\u2028', '\u2029']

def guardedEscape (c : Char) : List Char :=
  if isGuarded c then unitEscape c.toNat else escape c

def shortEscape? : Char → Option Char
  | '"'  => some '"'
  | '\\' => some '\\'
  | '/'  => some '/'
  | 'b'  => some '\x08'
  | 'f'  => some '\x0c'
  | 'n'  => some '\n'
  | 'r'  => some '\r'
  | 't'  => some '\t'
  | _    => none

end LedgerWire.Json
