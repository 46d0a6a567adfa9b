import LedgerWire.Proofs.Link.Alike
import LedgerWire.Proofs.Link.Closure

namespace LedgerWire.Link

variable {link l m : Link} {event : Event}

-- A text concerns the requests if it answers a pending one.
def concerns (link : Link) : Event → Bool
  | .act (.take _)         => false
  | .act (.read ..)        => false
  | .act (.dropConsumer _) => false
  | .failReceive _         => false
  | .peerSend text         => (Frame.ofText? text).any link.connection.awaits
  | _                      => true

namespace Alike

theorem concerns (h : l.Alike m) (event : Event) : l.concerns event = m.concerns event := by
  obtain ⟨_, _, ⟨_, _, rfl⟩, rfl⟩ := h
  cases event <;> rfl

theorem hasPeer (h : l.Alike m) : l.hasPeer = m.hasPeer := by
  obtain ⟨_, _, _, rfl⟩ := h
  rfl

theorem act {action : Action} (h : l.Alike m) (hc : l.concerns (.act action)) :
    (l.act action).1 = (m.act action).1 ∧ (l.act action).2.Alike (m.act action).2 := by
  unfold Link.act
  cases action
  case issue command times => exact ⟨rfl, h.limit ▸ h.callTimes _ times⟩
  case issueWithin         => exact ⟨rfl, h.call _⟩
  case subscribe           => exact ⟨rfl, h.limit ▸ h.call _⟩
  case unsubscribe         => exact ⟨rfl, h.limit ▸ h.call _⟩
  case cancel ticket =>
    obtain ⟨connection, receives, hc, rfl⟩ := h
    have ⟨ha, hc⟩ := hc.cancel ticket
    exact ⟨congrArg Answer.flag ha, _, receives, hc, rfl⟩
  case advance ms =>
    obtain ⟨connection, receives, hc, rfl⟩ := h
    exact ⟨rfl, _, receives, hc.expire _, rfl⟩
  case close =>
    obtain ⟨connection, receives, hc, rfl⟩ := h
    exact ⟨rfl, _, receives, hc.close, rfl⟩
  all_goals cases hc

theorem onEvent (h : l.Alike m) (hc : l.concerns event) :
    (l.onEvent event).1 = (m.onEvent event).1 ∧
      (l.onEvent event).2.Alike (m.onEvent event).2 := by
  unfold Link.onEvent
  cases event
  case act action  => exact h.act hc
  case failReceive => cases hc
  case peerSend text =>
    dsimp only
    rw [← h.hasPeer]
    obtain ⟨connection, receives, hc, rfl⟩ := h
    dsimp only
    split
    case isTrue  => split <;> exact ⟨rfl, connection, receives, hc, rfl⟩
    case isFalse => exact ⟨rfl, connection, receives, hc, rfl⟩
  case peerClose =>
    dsimp only
    rw [← h.hasPeer]
    obtain ⟨connection, receives, hc, rfl⟩ := h
    split <;> exact ⟨rfl, connection, receives, hc, rfl⟩
  all_goals
    obtain ⟨connection, receives, hc, rfl⟩ := h
    exact ⟨rfl, connection, receives, hc, rfl⟩

-- What is shown of links that differ in their streams alone is the same.
theorem harvest (h : l.Alike m) :
    l.harvest.1 = m.harvest.1 ∧ l.harvest.2.Alike m.harvest.2 := by
  obtain ⟨_, receives, ⟨hub, streamCapacity, rfl⟩, rfl⟩ := h
  exact ⟨rfl, _, receives, ⟨hub, streamCapacity, rfl⟩, rfl⟩

theorem collect (h : l.Alike m) :
    l.collect.1 = m.collect.1 ∧ l.collect.2.1 = m.collect.2.1 ∧
      l.collect.2.2.Alike m.collect.2.2 := by
  obtain ⟨connection, receives, hc, rfl⟩ := h
  exact ⟨rfl, rfl, connection, receives, hc, rfl⟩

theorem step (h : l.Alike m) (hc : l.concerns event) :
    (l.step event).1 = (m.step event).1 ∧ (l.step event).2.Alike (m.step event).2 := by
  have ⟨ha, ho⟩ := h.onEvent hc
  have ⟨hf, hh⟩ := ho.settle.harvest
  have ⟨hw, he, hs⟩ := hh.collect
  refine ⟨?_, hs⟩
  simp only [Link.step, work, ha, hf, hw, he]

end Alike

-- A peer that cannot send any more never can again.
theorem gone_onEvent (hg : link.duplex.far.standing ≠ .live) (event : Event) :
    (link.onEvent event).2.duplex.far.standing ≠ .live := by
  have other (hc : event ≠ .peerClose) (hd : event ≠ .peerDrop) :
      (link.onEvent event).2.duplex.far.standing ≠ .live :=
    (onEvent_far_standing hc hd).trans_ne hg
  cases event
  case peerClose =>
    rw [onEvent]
    split
    case isFalse => exact hg
    case isTrue  => rwa [Duplex.close, Duplex.get, if_neg hg]
  case peerDrop => simp [onEvent, Duplex.drop, Duplex.set]
  all_goals exact other (by simp) (by simp)

-- The loop that reads ends only when the peer cannot send any more.
theorem gone_read (hg : link.reading = false → link.duplex.far.standing ≠ .live)
    (hn : link.read.reading = false) : link.read.duplex.far.standing ≠ .live := by
  cases hr : link.reading
  case false =>
    rw [read_of_not_reading hr]
    exact hg hr
  case true =>
    rw [read_eq hr] at hn ⊢
    split at hn
    case isTrue     => exact absurd (hr.symm.trans hn) nofun
    case isFalse hl => rwa [if_neg hl]

theorem far_release (link : Link) : link.release.duplex.far = link.duplex.far := by
  rw [release]
  split <;> rfl

theorem near_release (hw : link.release.writing = false) (hr : link.release.reading = false) :
    link.release.duplex.near = ⟨[], .dropped⟩ := by
  rw [release] at hw hr ⊢
  split
  case isTrue h  => simp_all
  case isFalse h => rfl

-- All that was sent was also collected, and what is not needed any more is given up.
structure Rested (link : Link) : Prop extends link.Settled where
  sent     : link.duplex.far.inbox = []
  gone     : link.reading = false → link.duplex.far.standing ≠ .live
  released : link.writing = false → link.reading = false → link.duplex.near = ⟨[], .dropped⟩

namespace Rested

theorem start (config : LinkConfig) : (start config).Rested where
  toSettled := .start config
  sent      := rfl
  gone      := nofun
  released  := nofun

theorem settle (h : link.Rested) : link.settle = link := by
  rw [Link.settle, h.read_write, release]
  split
  case isTrue => rfl
  case isFalse hn =>
    simp only [Bool.or_eq_true, not_or, Bool.not_eq_true] at hn
    have hd := h.released hn.left hn.right
    simp only [Duplex.drop, Duplex.set, ← hd]

theorem harvest (h : link.Rested) : link.harvest = ([], link) := by
  have hc : { link.connection with finished := [] } = link.connection :=
    h.finished ▸ rfl
  rw [Link.harvest, hc, h.finished, List.mergeSort_nil]

theorem collect (h : link.Rested) : link.collect.1 = [] ∧ link.collect.2.2 = link := by
  obtain ⟨_, ⟨_, ⟨inbox, _⟩⟩, _⟩ := link
  cases h.sent
  exact ⟨rfl, rfl⟩

theorem step (h : link.Rested) (event : Event) : (link.step event).2.Rested where
  toSettled := h.toSettled.step event
  sent      := rfl
  released  := near_release
  gone hn   := by
    have n := Nearby.onEvent link event
    have u := Undisturbed.write (link.onEvent event).2
    have hg : (link.onEvent event).2.write.reading = false →
        (link.onEvent event).2.write.duplex.far.standing ≠ .live := by
      rw [u.reading, n.reading, u.peer]
      exact fun hr => gone_onEvent (h.gone hr) event
    have hf := (link.onEvent event).2.write.read.far_release
    exact hf ▸ gone_read hg <| (release_reading _).symm.trans hn

theorem run (h : link.Rested) (events : List Event) : (link.after events).Rested := by
  induction events generalizing link
  case nil => exact h
  case cons event events hi => exact hi <| h.step event

-- Nobody is left to send a text to a link that does not read.
theorem onEvent_peerSend_of_not_reading (h : link.Rested) (hr : link.reading = false)
    (text : String) : (link.onEvent (.peerSend text)).2 = link := by
  have hs : link.duplex.canSend .far = false := by
    simp [Duplex.canSend, Duplex.get, h.gone hr]
  rw [onEvent, Duplex.send?, hs]
  split <;> rfl

-- What does not concern the requests reaches the streams only.
theorem settle_aside (h : link.Rested) (hc : link.concerns event = false) :
    link.Alike (link.onEvent event).2.settle := by
  have settle (ha : link.Alike (link.onEvent event).2) :
      link.Alike (link.onEvent event).2.settle := by
    have hs := ha.settle
    rwa [h.settle] at hs
  cases event
  case act action =>
    apply settle
    cases action
    case take         => exact .of_connection link <| .of_hub ..
    case dropConsumer => exact .of_connection link <| .of_hub ..
    case read kind most =>
      simp only [onEvent, act]
      split
      case isTrue  => exact .of_connection link <| .of_hub ..
      case isFalse => exact .refl link
    all_goals cases hc
  case failReceive => exact settle ⟨_, _, .refl _, rfl⟩
  case peerSend text =>
    cases hr : link.reading
    case false =>
      apply settle
      rw [h.onEvent_peerSend_of_not_reading hr]
      exact .refl link
    case true =>
      rw [h.settle_peerSend_of_reading hr]
      exact .of_connection link <| .route_of_not_awaits hc
  all_goals cases hc

theorem step_aside (h : link.Rested) (hc : link.concerns event = false) :
    (link.step event).1.finished = [] ∧ (link.step event).1.wire = [] ∧
      link.Alike (link.step event).2 := by
  have ⟨hf, hh⟩ := (h.settle_aside hc).harvest
  rw [h.harvest] at hf hh
  have ⟨hw, _, hs⟩ := hh.collect
  rw [h.collect.left] at hw
  rw [h.collect.right] at hs
  exact ⟨hf.symm, hw.symm, hs⟩

end Rested

-- The events of a run that concern the requests.
def dealings (link : Link) (event : Event) : List Event :=
  if link.concerns event then [event] else []

-- What a link knows of its requests.
structure Front where
  pending : Pending
  nextId : Option Nat
  closed : Bool
  active : Stream.Names

def front (link : Link) : Front where
  pending := link.connection.pending
  nextId := link.connection.nextId
  closed := link.connection.closed
  active := link.connection.active

-- What each event that concerns the requests shows, and what is known of the requests after it.
def sights (link : Link) (event : Event) : List (Item × Front) :=
  if link.concerns event then [((link.step event).1, (link.step event).2.front)] else []

theorem Alike.front (h : l.Alike m) : l.front = m.front := by
  obtain ⟨_, _, ⟨_, _, rfl⟩, rfl⟩ := h
  rfl

-- Without the events that do not concern the requests a run goes the same way.
theorem Rested.gather_dealings (hl : l.Rested) (h : l.Alike m) (events : List Event) :
    m.gather sights (l.gather dealings events) = l.gather sights events ∧
      (l.after events).Alike (m.after (l.gather dealings events)) := by
  induction events generalizing l m
  case nil => exact ⟨rfl, h⟩
  case cons event events hi =>
    rw [gather, gather, dealings, sights]
    split
    case isFalse hc =>
      have ⟨_, _, hs⟩ := hl.step_aside <| Bool.eq_false_iff.mpr hc
      exact hi (hl.step event) (hs.symm.trans h)
    case isTrue hc =>
      have hm : m.concerns event := h.concerns event ▸ hc
      have ⟨he, hs⟩ := h.step hc
      have ⟨hg, ha⟩ := hi (hl.step event) hs
      refine ⟨?_, ha⟩
      rw [List.singleton_append, gather, sights, if_pos hm, hg, he, hs.front]

-- Two runs that deal in the same way with their requests, from connections that differ at most in
-- the room for pushes, show the same with each of these events and know the same of the requests
-- after it. With any other event nothing ends, nothing is written, and nothing is learned.
theorem streams_never_disturb_requests (config config' : LinkConfig) (events events' : List Event)
    (ht : config.timeout = config'.timeout) (hf : config.firstId = config'.firstId)
    (hd : (start config).gather dealings events = (start config').gather dealings events') :
    (start config).gather sights events = (start config').gather sights events' ∧
    ((start config).after events).front = ((start config').after events').front ∧
    ∀ event, let link := (start config).after events
      link.concerns event = false →
        (link.step event).1.finished = [] ∧ (link.step event).1.wire = [] ∧
          (link.step event).2.front = link.front := by
  have ⟨hs, ha⟩ := (Rested.start config).gather_dealings (.refl _) events
  have ⟨hs', ha'⟩ := (Rested.start config').gather_dealings (.start ht.symm hf.symm) events'
  refine ⟨?_, ?_, fun event hc => ?_⟩
  case refine_1 => exact hs.symm.trans <| hd ▸ hs'
  case refine_2 => exact ha.front.trans <| hd ▸ ha'.front.symm
  case refine_3 =>
    have ⟨hf, hw, hs⟩ := ((Rested.start config).run events).step_aside hc
    exact ⟨hf, hw, hs.front.symm⟩

-- One push fills the stream, and the second reply answers nothing any more.
theorem streams_never_disturb_requests_behind_a_full_stream :
    let narrow : LinkConfig := { streamCapacity := 1 }
    let ping : Event := .act (.issue [(Frame.commandField, .string "ping")] 1)
    let push : Event := .peerSend "\x7b\"type\":\"ledgerClosed\"\x7d"
    let reply : Event := .peerSend "\x7b\"id\":1\x7d"
    let events := [.act (.take .ledger), ping, push, push, .failReceive .closed, reply, reply]
    ((start narrow).after events).connection.hub.dropped = 2 ∧
    (start narrow).gather dealings events = (start {}).gather dealings [ping, reply] ∧
    (start narrow).gather sights events = (start {}).gather sights [ping, reply] := by
  intro narrow ping push reply events
  have dropped : ((start narrow).after events).connection.hub.dropped = 2 := by decide +kernel
  have hn : (start narrow).gather (fun link event => [link.concerns event]) events =
      [false, true, false, false, false, true, false] := by decide +kernel
  have hw : (start {}).gather (fun link event => [link.concerns event]) [ping, reply] =
      [true, true] := by decide +kernel
  have hd : (start narrow).gather dealings events = (start {}).gather dealings [ping, reply] := by
    simp only [events, gather, List.singleton_append, List.cons.injEq] at hn hw
    simp [events, gather, dealings, hn, hw]
  exact ⟨dropped, hd, (streams_never_disturb_requests narrow {} _ _ rfl rfl hd).left⟩

end LedgerWire.Link
