namespace LedgerWire.Text

abbrev Ranges := List (Nat × Nat)

namespace Ranges

def contains (ranges : Ranges) (c : Char) : Bool :=
  ranges.any fun (first, last) => first ≤ c.toNat && c.toNat ≤ last

-- Every range ends before the next one starts, with a gap between them.
def apart : Ranges → Bool
  | []          => true
  | [r]         => r.1 ≤ r.2
  | r :: s :: rs => r.1 ≤ r.2 && r.2 + 1 < s.1 && apart (s :: rs)

def count (ranges : Ranges) : Nat :=
  ranges.foldl (fun n (first, last) => n + (last + 1 - first)) 0

end Ranges

end LedgerWire.Text
