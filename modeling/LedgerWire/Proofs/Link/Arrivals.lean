import LedgerWire.Proofs.Link.Settled

namespace LedgerWire.Link

variable {link : Link} {event : Event}

theorem write_of_nothing (h : link.connection.outbound = []) : link.write = link := by
  obtain ⟨connection, _⟩ := link
  obtain ⟨⟩ := connection
  cases h
  rfl

theorem drained_of_empty (hi : link.duplex.near.inbox = []) (hf : link.faults.receives = []) :
    link.drained = link := by
  obtain ⟨_, ⟨⟨_, _⟩, _⟩, ⟨_, _, _⟩, _⟩ := link
  cases hi
  cases hf
  rfl

-- Receives that fail bring no text.
theorem drained_connection (hi : link.duplex.near.inbox = []) :
    link.drained.connection = link.connection := by
  rw [drained, hi]
  rfl

theorem read_of_no_text {P : Connection → Prop} (close : ∀ c, P c → P c.shutDown)
    (hi : link.reading → link.duplex.near.inbox = []) (h : P link.connection) :
    P link.read.connection := by
  cases hr : link.reading
  case false => rwa [read_of_not_reading hr]
  case true =>
    rw [← drained_connection (hi hr)] at h
    rw [read_eq hr]
    split
    case isTrue  => exact h
    case isFalse => exact close _ h

theorem Event.arrives (event : Event) :
    (∀ text, event ≠ .peerSend text) ∨ ∃ text, event = .peerSend text := by
  by_cases h : ∃ text, event = .peerSend text
  case pos => exact .inr h
  case neg => exact .inl <| not_exists.mp h

-- The texts that the loop that reads takes in during a step.
def heard (link : Link) (event : Event) : List String :=
  let written := (link.onEvent event).2.write
  if written.reading then written.duplex.near.inbox else []

-- The link that the text has just reached.
def receiving (link : Link) (text : String) : Link :=
  { link with duplex := { link.duplex with near := { link.duplex.near with inbox := [text] } } }

namespace Settled

theorem onEvent_peerSend (h : link.Settled) (hr : link.reading) (text : String) :
    link.onEvent (.peerSend text) = (.sent, link.receiving text) := by
  have hp : link.hasPeer := by simp [hasPeer, Duplex.get, h.peer hr]
  have hs : link.duplex.canSend .far := by
    simp [Duplex.canSend, Duplex.get, Side.other, h.peer hr, h.present hr]
  simp [onEvent, hp, Duplex.send?, hs, Side.other, Duplex.get, Duplex.set, h.inbox hr, receiving]

theorem onEvent_peerSend_connection (link : Link) (text : String) :
    (link.onEvent (.peerSend text)).2.connection = link.connection := by
  have ⟨_, _, h⟩ := link.onEvent_effect (.peerSend text) nofun
  rw [h]

theorem write_peerSend (h : link.Settled) (text : String) :
    (link.onEvent (.peerSend text)).2.write = (link.onEvent (.peerSend text)).2 :=
  write_of_nothing <| (congrArg _ <| onEvent_peerSend_connection link text).trans h.outbound

theorem heard_peerSend (h : link.Settled) (text : String) :
    link.heard (.peerSend text) = if link.reading then [text] else [] := by
  have n := Nearby.onEvent link (.peerSend text)
  rw [heard, h.write_peerSend, n.reading]
  split
  case isTrue hr => rw [h.onEvent_peerSend hr]; rfl
  case isFalse   => rfl

-- A text that is read is routed, and does nothing else.
theorem settle_peerSend_of_reading (h : link.Settled) (hr : link.reading) (text : String) :
    (link.onEvent (.peerSend text)).2.settle =
      { link with connection := link.connection.route text } := by
  have hr' : (link.receiving text).reading := hr
  have hl : (link.receiving text).duplex.far.standing = .live := h.peer hr
  have hi := h.inbox hr
  have hf := h.receives hr
  have hd : (link.receiving text).drained.release = (link.receiving text).drained :=
    release_of_reading hr
  rw [settle, h.write_peerSend, h.onEvent_peerSend hr, read_eq hr', if_pos hl, hd]
  obtain ⟨_, ⟨⟨_, _⟩, _⟩, ⟨_, _, _⟩, _⟩ := link
  cases hi
  cases hf
  rfl

theorem settle_peerSend_connection (h : link.Settled) (text : String) :
    (link.onEvent (.peerSend text)).2.settle.connection =
      (link.heard (.peerSend text)).foldl Connection.route link.connection := by
  rw [h.heard_peerSend]
  cases hr : link.reading
  case true => exact congrArg _ <| h.settle_peerSend_of_reading hr text
  case false =>
    have n := Nearby.onEvent link (.peerSend text)
    rw [settle, release_connection, h.write_peerSend, read_of_not_reading (n.reading.trans hr)]
    exact onEvent_peerSend_connection link text

theorem inbox_write (h : link.Settled) (hn : ∀ text, event ≠ .peerSend text)
    (hr : (link.onEvent event).2.write.reading) :
    (link.onEvent event).2.write.duplex.near.inbox = [] := by
  have n := Nearby.onEvent link event
  have u := Undisturbed.write (link.onEvent event).2
  rw [u.inbox, n.inbox hn]
  exact h.inbox <| n.reading ▸ u.reading ▸ hr

theorem heard_of_ne (h : link.Settled) (hn : ∀ text, event ≠ .peerSend text) :
    link.heard event = [] := by
  rw [heard]
  split
  case isTrue hr => exact h.inbox_write hn hr
  case isFalse   => rfl

-- Once settled, the loops have nothing to do.
theorem read_write (h : link.Settled) : link.write.read = link := by
  rw [write_of_nothing h.outbound]
  cases hr : link.reading
  case false => exact read_of_not_reading hr
  case true =>
    rw [read_eq hr, if_pos (h.peer hr)]
    exact drained_of_empty (h.inbox hr) (h.receives hr)

-- The loop that reads meets the error, and goes on as before.
theorem settle_failReceive_connection (h : link.Settled) (error : LinkError) :
    (link.onEvent (.failReceive error)).2.settle.connection = link.connection := by
  have n := Nearby.onEvent link (.failReceive error)
  have hw : (link.onEvent (.failReceive error)).2.write = (link.onEvent (.failReceive error)).2 :=
    write_of_nothing h.outbound
  rw [settle, release_connection, hw]
  cases hr : link.reading
  case false =>
    rw [read_of_not_reading (n.reading.trans hr)]
    rfl
  case true =>
    have hl : (link.onEvent (.failReceive error)).2.duplex.far.standing = .live := h.peer hr
    rw [read_eq (n.reading.trans hr), if_pos hl]
    exact drained_connection (h.inbox hr)

-- Unless a text arrives, what the loop that writes keeps is kept over a step.
theorem settle_keeps (h : link.Settled) (hn : ∀ text, event ≠ .peerSend text)
    {P : Connection → Prop} (k : WritesKeep P (link.onEvent event).2.faults.sends)
    (hp : P (link.onEvent event).2.connection.flushed) :
    P (link.onEvent event).2.settle.connection := by
  rw [settle, release_connection]
  exact read_of_no_text k.close (h.inbox_write hn) (k.write hp)

end Settled

-- What the steps of a run bring, one after the other.
def gather {α : Type} (brings : Link → Event → List α) (link : Link) : List Event → List α
  | [] => []
  | event :: events => brings link event ++ (link.step event).2.gather brings events

end LedgerWire.Link
