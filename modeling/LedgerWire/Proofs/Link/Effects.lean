import LedgerWire.Link.Basic

namespace LedgerWire

namespace Connection

variable (c : Connection)

-- The connection once all that it has queued is taken over.
def flushed : Connection :=
  { c with outbound := [] }

variable {c} in
theorem flushed_of_empty (h : c.outbound = []) : c.flushed = c := by
  obtain ⟨⟩ := c
  cases h
  rfl

-- Each effect names the fields that may differ. All others are as before.
theorem finish_effect (ticket : Nat) (outcome : Outcome LinkError) : ∃ calls finished,
    c.finish ticket outcome = { c with calls, finished } := by
  rw [finish]
  split <;> exact ⟨_, _, rfl⟩

theorem abandon_effect (call : Call) (outcome : Outcome LinkError) : ∃ pending calls finished,
    c.abandon call outcome = { c with pending, calls, finished } := by
  have ⟨_, _, h⟩ := finish_effect { c with pending := c.pending.erase call.id } call.ticket outcome
  exact ⟨_, _, _, h⟩

theorem foldl_effect {α : Type} {f : Connection → α → Connection}
    (h : ∀ c x, ∃ pending calls finished, f c x = { c with pending, calls, finished })
    (xs : List α) :
    ∃ pending calls finished, xs.foldl f c = { c with pending, calls, finished } := by
  induction xs generalizing c
  case nil => exact ⟨_, _, _, rfl⟩
  case cons x xs hi =>
    obtain ⟨_, _, _, hx⟩ := h c x
    obtain ⟨_, _, _, hf⟩ := hi (f c x)
    rw [List.foldl_cons, hf, hx]
    exact ⟨_, _, _, rfl⟩

theorem expire_effect (now : Nat) : ∃ pending calls finished,
    c.expire now = { c with pending, calls, finished } := by
  refine foldl_effect c (fun c call => ?_) c.calls
  split
  case h_1 limit _ => exact c.abandon_effect call (.failed (.timeout limit))
  case h_2         => exact ⟨_, _, _, rfl⟩

theorem cancel_effect (ticket : Nat) : ∃ pending calls finished,
    (c.cancel ticket).2 = { c with pending, calls, finished } := by
  rw [cancel]
  split
  case h_1 call _ => exact c.abandon_effect call .cancelled
  case h_2        => exact ⟨_, _, _, rfl⟩

theorem failRequest_effect (id : Nat) (error : LinkError) : ∃ pending calls finished,
    c.failRequest id error = { c with pending, calls, finished } := by
  rw [failRequest]
  split
  case h_1 ticket _ =>
    have ⟨_, _, h⟩ := finish_effect { c with pending := c.pending.erase id } ticket (.failed error)
    exact ⟨_, _, _, h⟩
  case h_2 => exact ⟨_, _, _, rfl⟩

theorem shutDown_effect : ∃ pending calls finished hub,
    c.shutDown = { c with pending, calls, finished, hub, closed := true } := by
  rw [shutDown]
  split
  case isTrue hc =>
    obtain ⟨⟩ := c
    cases hc
    exact ⟨_, _, _, _, rfl⟩
  case isFalse =>
    have hf (c : Connection) (ticket : Nat) : ∃ pending calls finished,
        c.finish ticket (.failed .closed) = { c with pending, calls, finished } := by
      obtain ⟨_, _, h⟩ := c.finish_effect ticket (.failed .closed)
      exact ⟨_, _, _, h⟩
    obtain ⟨_, _, _, h⟩ := foldl_effect _ hf c.pending.tickets
    exact ⟨_, _, _, _, h⟩

theorem push_effect (frame : Fields) : ∃ hub, c.push frame = { c with hub } := by
  rw [push]
  split <;> exact ⟨_, rfl⟩

theorem route_effect (text : String) : ∃ pending calls finished active hub,
    c.route text = { c with pending, calls, finished, active, hub } := by
  rw [route]
  split
  case h_2 => exact ⟨_, _, _, _, _, rfl⟩
  case h_1 frame _ =>
    have ⟨_, hp⟩ := c.push_effect frame
    rw [routeFrame]
    split
    case h_2 => exact ⟨_, _, _, _, _, hp⟩
    case h_1 id _ =>
      split
      case h_2 => exact ⟨_, _, _, _, _, hp⟩
      case h_1 ticket _ =>
        rw [answer]
        split
        case h_2 => exact ⟨_, _, _, _, _, rfl⟩
        case h_1 call _ =>
          have ⟨_, _, h⟩ := finish_effect { c with pending := c.pending.erase id } ticket
            (call.purpose.conclude c.active frame).1
          simp only [h]
          exact ⟨_, _, _, _, _, rfl⟩

theorem call_effect (ticket now : Nat) (request : Request) :
    ∃ nextId pending calls finished outbound,
      c.call ticket now request = { c with nextId, pending, calls, finished, outbound } := by
  rw [call]
  split
  case h_1 id _ =>
    have ⟨_, _, _, h⟩ := (c.dispatch id ticket now request).expire_effect now
    exact ⟨_, _, _, _, _, h⟩
  case h_2 => exact ⟨_, _, _, _, _, rfl⟩

end Connection

namespace Link

-- An action reaches the connection, the clock and the tickets, and nothing else.
theorem act_effect (link : Link) (action : Action) : ∃ connection clock tickets,
    (link.act action).2 = { link with connection, clock, tickets } := by
  have times (request : Request) (times : Nat) (l : Link) : ∃ connection clock tickets,
      l.callTimes request times = { l with connection, clock, tickets } := by
    induction times generalizing l
    case zero => exact ⟨_, _, _, rfl⟩
    case succ times hi => exact hi (l.call request)
  cases action
  case issue command n => exact times ..
  case read kind most =>
    rw [act]
    split <;> exact ⟨_, _, _, rfl⟩
  all_goals exact ⟨_, _, _, rfl⟩

-- Any other event reaches the wire only.
theorem onEvent_effect (link : Link) (event : Event) (h : ∀ action, event ≠ .act action) :
    ∃ duplex faults, (link.onEvent event).2 = { link with duplex, faults } := by
  cases event
  case act action => exact absurd rfl (h action)
  case peerSend text =>
    rw [onEvent]
    split
    case isFalse => exact ⟨_, _, rfl⟩
    case isTrue  => split <;> exact ⟨_, _, rfl⟩
  case peerClose =>
    rw [onEvent]
    split <;> exact ⟨_, _, rfl⟩
  all_goals exact ⟨_, _, rfl⟩

-- A send uses up a fault of its kind or reaches the inbox of the far end, and does nothing else.
theorem send_effect (link : Link) (text : String) : ∃ sends inbox,
    (link.send text).2 = { link with
      duplex := { link.duplex with far := { link.duplex.far with inbox } }
      faults := { link.faults with sends } } := by
  rw [send]
  split
  case h_1 => exact ⟨_, _, rfl⟩
  case h_2 =>
    split
    case h_2 => exact ⟨_, _, rfl⟩
    case h_1 duplex hs =>
      rw [Duplex.send?] at hs
      split at hs <;> cases hs
      exact ⟨_, _, rfl⟩

theorem closeWire_effect (link : Link) : ∃ standing closes,
    link.closeWire.2 = { link with
      duplex := { link.duplex with near := { link.duplex.near with standing } }
      faults := { link.faults with closes } } := by
  rw [closeWire]
  split
  case h_1 => exact ⟨_, _, rfl⟩
  case h_2 =>
    rw [Duplex.close]
    split <;> exact ⟨_, _, rfl⟩

theorem writeOne_of_not_writing {link : Link} (hw : ¬link.writing) (item : Outbound) :
    link.writeOne item = link :=
  if_neg hw

theorem writeOne_close {link : Link} (hw : link.writing) :
    link.writeOne .close = { link.closeWire.2 with writing := false } :=
  if_pos hw

-- Whatever failing the request does after a send, it does to the connection and to the loop only.
theorem writeOne_frame_effect {link : Link} (hw : link.writing) (id : Nat) (text : String) :
    ∃ connection writing,
      link.writeOne (.frame id text) = { (link.send text).2 with connection, writing } := by
  simp only [writeOne, if_pos hw]
  rcases link.send text with ⟨error | _, link'⟩
  case ok => exact ⟨_, _, rfl⟩
  case error =>
    dsimp only
    rw [writeFailed]
    split <;> exact ⟨_, _, rfl⟩

-- What an event leaves alone at the near end. Only a text that the peer sends arrives there.
structure Nearby (link : Link) (event : Event) (link' : Link) : Prop where
  reading  : link'.reading = link.reading
  standing : link'.duplex.near.standing = link.duplex.near.standing
  inbox    : (∀ text, event ≠ .peerSend text) → link'.duplex.near.inbox = link.duplex.near.inbox

theorem Nearby.onEvent (link : Link) (event : Event) :
    Nearby link event (link.onEvent event).2 := by
  cases event
  case act action =>
    have ⟨_, _, _, h⟩ := link.act_effect action
    rw [Link.onEvent, h]
    exact ⟨rfl, rfl, fun _ => rfl⟩
  case peerSend text =>
    rw [Link.onEvent]
    split
    case isFalse => exact ⟨rfl, rfl, fun h => absurd rfl (h text)⟩
    case isTrue =>
      split
      case h_2 => exact ⟨rfl, rfl, fun h => absurd rfl (h text)⟩
      case h_1 duplex hs =>
        rw [Duplex.send?] at hs
        split at hs <;> cases hs
        exact ⟨rfl, rfl, fun h => absurd rfl (h text)⟩
  case peerClose =>
    rw [Link.onEvent]
    split
    case isFalse => exact ⟨rfl, rfl, fun _ => rfl⟩
    case isTrue =>
      rw [Duplex.close]
      split <;> exact ⟨rfl, rfl, fun _ => rfl⟩
  all_goals exact ⟨rfl, rfl, fun _ => rfl⟩

-- What the loop that writes leaves alone, or never drops.
structure Undisturbed (link link' : Link) : Prop where
  tickets : link'.tickets = link.tickets
  clock   : link'.clock = link.clock
  reading : link'.reading = link.reading
  inbox   : link'.duplex.near.inbox = link.duplex.near.inbox
  peer    : link'.duplex.far.standing = link.duplex.far.standing
  present : link.duplex.near.standing ≠ .dropped → link'.duplex.near.standing ≠ .dropped

namespace Undisturbed

variable {link₁ link₂ link₃ : Link}

theorem refl (link : Link) : Undisturbed link link :=
  ⟨rfl, rfl, rfl, rfl, rfl, id⟩

theorem trans (h₁ : Undisturbed link₁ link₂) (h₂ : Undisturbed link₂ link₃) :
    Undisturbed link₁ link₃ where
  tickets := h₂.tickets.trans h₁.tickets
  clock   := h₂.clock.trans h₁.clock
  reading := h₂.reading.trans h₁.reading
  inbox   := h₂.inbox.trans h₁.inbox
  peer    := h₂.peer.trans h₁.peer
  present := h₂.present ∘ h₁.present

theorem send (link : Link) (text : String) : Undisturbed link (link.send text).2 := by
  have ⟨_, _, h⟩ := link.send_effect text
  rw [h]
  exact { refl link with }

theorem closeWire (link : Link) : Undisturbed link link.closeWire.2 := by
  rw [Link.closeWire]
  split
  case h_1 => exact { refl link with }
  case h_2 =>
    rw [Duplex.close]
    split
    case isTrue  => exact { refl link with present := fun _ => by simp [Duplex.set] }
    case isFalse => exact { refl link with }

theorem writeOne (link : Link) (item : Outbound) : Undisturbed link (link.writeOne item) := by
  by_cases hw : link.writing
  case neg =>
    rw [writeOne_of_not_writing hw]
    exact refl link
  case pos =>
    cases item
    case close =>
      rw [writeOne_close hw]
      exact { closeWire link with }
    case frame id text =>
      have ⟨_, _, h⟩ := writeOne_frame_effect hw id text
      rw [h]
      exact { send link text with }

theorem write (link : Link) : Undisturbed link link.write := by
  have loop (items : List Outbound) (l : Link) : Undisturbed l (items.foldl Link.writeOne l) := by
    induction items generalizing l
    case nil => exact refl l
    case cons item items hi => exact (writeOne l item).trans <| hi _
  have flush : Undisturbed link { link with connection := link.connection.flushed } :=
    { refl link with }
  exact flush.trans <| loop link.connection.outbound _

end Undisturbed

end Link
end LedgerWire
