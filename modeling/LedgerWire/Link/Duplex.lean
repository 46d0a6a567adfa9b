namespace LedgerWire

inductive Side where
  | near
  | far
  deriving DecidableEq, Repr

def Side.other : Side → Side
  | near => far
  | far  => near

-- A closed end still receives what was sent to it, and a dropped one takes nothing any more.
inductive Standing where
  | live
  | closed
  | dropped
  deriving DecidableEq, Repr

structure End where
  inbox : List String
  standing : Standing
  deriving DecidableEq, Repr

structure Duplex where
  near : End
  far : End
  deriving DecidableEq, Repr

inductive Receipt where
  | text (text : String)
  | pending
  | ended
  deriving DecidableEq, Repr

namespace Duplex

def start : Duplex :=
  ⟨⟨[], .live⟩, ⟨[], .live⟩⟩

def get (d : Duplex) : Side → End
  | .near => d.near
  | .far  => d.far

def set (d : Duplex) (side : Side) (e : End) : Duplex :=
  match side with
  | .near => { d with near := e }
  | .far  => { d with far := e }

@[simp] theorem get_set (d : Duplex) (side s : Side) (e : End) :
    (d.set side e).get s = if s = side then e else d.get s := by
  cases side <;> cases s <;> rfl

-- Whether an end can send: it is open itself, and the other end still receives.
def canSend (d : Duplex) (side : Side) : Bool :=
  (d.get side).standing = .live ∧ (d.get side.other).standing ≠ .dropped

def send? (d : Duplex) (side : Side) (text : String) : Option Duplex :=
  if d.canSend side then
    let receiver := d.get side.other
    some (d.set side.other { receiver with inbox := receiver.inbox ++ [text] })
  else none

-- Whether an end has received all that will ever come.
def ended (d : Duplex) (side : Side) : Bool :=
  (d.get side).inbox.isEmpty ∧ (d.get side.other).standing ≠ .live

def receive (d : Duplex) (side : Side) : Receipt × Duplex :=
  let receiver := d.get side
  match receiver.inbox with
  | text :: inbox => (.text text, d.set side { receiver with inbox })
  | []            => (if d.ended side then .ended else .pending, d)

def drain (d : Duplex) (side : Side) : List String × Duplex :=
  ((d.get side).inbox, d.set side { d.get side with inbox := [] })

def close (d : Duplex) (side : Side) : Duplex :=
  if (d.get side).standing = .live then d.set side { d.get side with standing := .closed } else d

def drop (d : Duplex) (side : Side) : Duplex :=
  d.set side ⟨[], .dropped⟩

inductive Action where
  | send (text : String)
  | receive
  | close
  | isClosed
  | drop
  deriving DecidableEq, Repr

inductive Answer where
  | sent
  | refused
  | receipt (receipt : Receipt)
  | done
  | isClosed (closed : Bool)
  -- The end had been dropped, so nothing was done.
  | noEnd
  deriving DecidableEq, Repr

def act (d : Duplex) (side : Side) : Action → Answer × Duplex
  | .send text =>
    match d.send? side text with
    | some d => (.sent, d)
    | none   => (.refused, d)
  | .receive =>
    let (receipt, d) := d.receive side
    (.receipt receipt, d)
  | .close    => (.done, d.close side)
  | .isClosed => (.isClosed ((d.get side).standing ≠ .live), d)
  | .drop     => (.done, d.drop side)

def step (d : Duplex) (side : Side) (action : Action) : Answer × Duplex :=
  if (d.get side).standing = .dropped then (.noEnd, d) else d.act side action

def run (d : Duplex) : List (Side × Action) → List Answer × Duplex
  | [] => ([], d)
  | (side, action) :: steps =>
    let (answer, d) := d.step side action
    let (answers, d) := d.run steps
    (answer :: answers, d)

end Duplex

end LedgerWire
