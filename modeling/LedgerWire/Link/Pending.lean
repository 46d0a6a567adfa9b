namespace LedgerWire

structure Pending where
  entries : List (Nat × Nat)
  deriving DecidableEq, Repr

namespace Pending

def empty : Pending := ⟨[]⟩

def ids (pending : Pending) : List Nat :=
  pending.entries.map (·.1)

def tickets (pending : Pending) : List Nat :=
  pending.entries.map (·.2)

def size (pending : Pending) : Nat :=
  pending.entries.length

-- The ticket of the call that waits for the id.
def ticket? (pending : Pending) (id : Nat) : Option Nat :=
  pending.entries.lookup id

def contains (pending : Pending) (id : Nat) : Bool :=
  (pending.ticket? id).isSome

def insert (pending : Pending) (id ticket : Nat) : Pending :=
  ⟨pending.entries ++ [(id, ticket)]⟩

def erase (pending : Pending) (id : Nat) : Pending :=
  ⟨pending.entries.filter (·.1 ≠ id)⟩

end Pending

end LedgerWire
