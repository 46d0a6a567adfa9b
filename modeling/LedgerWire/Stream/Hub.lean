import LedgerWire.Json.Basic
import LedgerWire.Stream.Kind

namespace LedgerWire.Stream

inductive Channel where
  | untaken
  | live (buffer : List Fields)
  | gone
  deriving Repr

def Channel.isLive : Channel → Bool
  | live _ => true
  | _      => false

inductive Reading where
  | push (frame : Fields)
  | empty
  | ended
  deriving Repr

structure Hub where
  capacity : Nat
  channels : List (Kind × Channel)
  delivered : Nat
  dropped : Nat
  closed : Bool
  deriving Repr

namespace Hub

-- Every channel has room for one push at least.
def start (capacity : Nat) : Hub :=
  { capacity := max capacity 1, channels := [], delivered := 0, dropped := 0, closed := false }

def channel (hub : Hub) (kind : Kind) : Channel :=
  (hub.channels.lookup kind).getD .untaken

def setChannel (hub : Hub) (kind : Kind) (channel : Channel) : Hub :=
  { hub with channels := (kind, channel) :: hub.channels.filter (·.1 ≠ kind) }

theorem channel_setChannel (hub : Hub) (kind k : Kind) (channel : Channel) :
    (hub.setChannel kind channel).channel k = if k = kind then channel else hub.channel k := by
  have others (entries : List (Kind × Channel)) (ne : k ≠ kind) :
      (entries.filter (·.1 ≠ kind)).lookup k = entries.lookup k := by
    induction entries with
    | nil => rfl
    | cons entry entries ih =>
      obtain ⟨j, c⟩ := entry
      have differs : (k == kind) = false := by simpa using ne
      by_cases eq : j = kind
      · simpa [List.lookup_cons, eq, differs] using ih
      · by_cases here : k = j <;> simp_all [List.lookup_cons]
  by_cases eq : k = kind
  · simp [Hub.channel, setChannel, eq]
  · have differs : (k == kind) = false := by simpa using eq
    simp only [Hub.channel, setChannel, List.lookup_cons, differs, if_neg eq, others hub.channels eq]

-- Takes the consumer of a kind, at most once and only while the hub is open.
def take (hub : Hub) (kind : Kind) : Bool × Hub :=
  match hub.closed, hub.channel kind with
  | false, .untaken => (true, hub.setChannel kind (.live []))
  | _, _            => (false, hub)

def hasConsumer (hub : Hub) (kind : Kind) : Bool :=
  !hub.closed && (hub.channel kind).isLive

-- Validated transactions go to who asked for proposed ones, if nobody else wants them.
def resolve (hub : Hub) (kind : Kind) : Kind :=
  if kind = .transactions ∧ !hub.hasConsumer .transactions ∧ hub.hasConsumer .transactionsProposed
  then .transactionsProposed
  else kind

def drop (hub : Hub) : Hub :=
  { hub with dropped := hub.dropped + 1 }

-- Puts a push into the channel of exactly this kind, or drops it.
def offer (hub : Hub) (kind : Kind) (push : Fields) : Hub :=
  match hub.closed, hub.channel kind with
  | false, .live buffer =>
    if buffer.length < hub.capacity then
      { hub.setChannel kind (.live (buffer ++ [push])) with delivered := hub.delivered + 1 }
    else hub.drop
  | _, _ => hub.drop

def deliver (hub : Hub) (kind : Kind) (push : Fields) : Hub :=
  hub.offer (hub.resolve kind) push

def readOne? (hub : Hub) (kind : Kind) : Option (Reading × Hub) :=
  match hub.channel kind with
  | .live (push :: buffer) => some (.push push, hub.setChannel kind (.live buffer))
  | .live []               => some (if hub.closed then .ended else .empty, hub)
  | _                      => none

def read (hub : Hub) (kind : Kind) : (most : Nat) → List Reading × Hub
  | 0 => ([], hub)
  | most + 1 =>
    match hub.readOne? kind with
    | some (.push push, hub) =>
      let (readings, hub) := hub.read kind most
      (.push push :: readings, hub)
    | some (reading, hub) => ([reading], hub)
    | none => ([], hub)

def dropConsumer (hub : Hub) (kind : Kind) : Bool × Hub :=
  if (hub.channel kind).isLive then (true, hub.setChannel kind .gone) else (false, hub)

def close (hub : Hub) : Hub :=
  { hub with closed := true }

end Hub

end LedgerWire.Stream
