import LedgerWire.Proofs.Link.Pushes
import LedgerWire.Proofs.Link.Replies

namespace LedgerWire

namespace Connection

variable {c : Connection} {text : String} {frame : Fields}

-- The calls that a text answers, each with the frame that answers it.
def answeredBy (c : Connection) (text : String) : List (Call × Fields) :=
  c.calls.filterMap fun call => (Frame.carrying? call.id text).map (call, ·)

theorem outcomes_replied_eq (c : Connection) (text : String) :
    outcomes (replied text) c.calls =
      (c.answeredBy text).map fun (call, frame) => (call.ticket, call.purpose.verdict frame) := by
  simp only [outcomes, answeredBy, List.map_filterMap, replied, Option.map_map]
  rfl

theorem answeredBy_of_no_frame (h : Frame.ofText? text = none) : c.answeredBy text = [] := by
  simp [answeredBy, Frame.carrying?, h]

-- A frame answers the one call that has its id, if it carries the id of any.
theorem length_answeredBy (h : c.Coherent) (hf : Frame.ofText? text = some frame) :
    (c.answeredBy text).length = if c.awaits frame then 1 else 0 := by
  by_cases ha : c.awaits frame
  case pos =>
    have ⟨call, mem, hi⟩ := (awaits_iff h).mp ha
    have hc : Frame.carrying? call.id text = some frame := by simp [Frame.carrying?, hf, hi]
    have hl := congrArg List.length <| c.outcomes_replied_eq text
    rw [outcomes_replied h.ids mem hc, List.length_map] at hl
    exact hl.symm.trans (if_pos ha).symm
  case neg =>
    have hn : c.answeredBy text = [] := by
      apply List.filterMap_eq_nil_iff.mpr
      intro call mem
      have hi : Frame.requestId? frame ≠ some call.id := fun hi =>
        ha <| (awaits_iff h).mpr ⟨call, mem, hi⟩
      simp [Frame.carrying?, hf, hi]
    rw [hn, if_neg ha]
    rfl

-- Each frame goes to one account, and a text without a frame to none.
theorem balance_route (h : c.Coherent) (text : String) :
    (c.answeredBy text).length + (c.route text).hub.delivered + (c.route text).hub.dropped =
      (Frame.ofText? text).toList.length + c.hub.delivered + c.hub.dropped := by
  cases hf : Frame.ofText? text
  case none => simp [answeredBy_of_no_frame hf, route, hf]
  case some frame =>
    rw [length_answeredBy h hf, route, hf]
    cases ha : c.awaits frame
    case true => simp [hub_routeFrame_of_awaits ha]
    case false =>
      simp only [routeFrame_of_not_awaits ha, push]
      cases Frame.stream? frame
      case none => simp [Stream.Hub.drop]; omega
      case some kind =>
        have hc := c.hub.counts_offer (c.hub.resolve kind) frame
        by_cases hr : c.hub.Refuses (c.hub.resolve kind)
        case pos => simp [Stream.Hub.deliver, hc.left hr]; omega
        case neg => simp [Stream.Hub.deliver, hc.right hr]; omega

end Connection

namespace Link

variable {link : Link} {log : List Call} {shown : List (Nat × Outcome LinkError)}

-- The calls that the texts of a step answer, each with the frame that answers it.
def answered (link : Link) (event : Event) : List (Call × Fields) :=
  (link.heard event).flatMap link.connection.answeredBy

namespace Settled

theorem answered_peerSend (h : link.Settled) (ha : link.Accounts log shown) (text : String) :
    link.answered (.peerSend text) = link.connection.answeredBy text := by
  rw [answered, h.heard_peerSend]
  cases hr : link.reading
  case true => simp
  -- A link that does not read any more has closed, and then no call is under way.
  case false => simp [Connection.answeredBy, ha.coherent.closed <| h.closed hr]

theorem finished_peerSend (h : link.Settled) (ha : link.Accounts log shown) (text : String) :
    (link.step (.peerSend text)).1.finished =
      (link.answered (.peerSend text)).map fun (call, frame) =>
        (call.ticket, call.purpose.verdict frame) := by
  rw [(h.step_peerSend ha text).left, link.connection.outcomes_replied_eq, h.answered_peerSend ha]
  have hl : (link.connection.answeredBy text).length ≤ 1 := by
    cases hf : Frame.ofText? text
    case none => simp [Connection.answeredBy_of_no_frame hf]
    case some frame =>
      rw [Connection.length_answeredBy ha.coherent hf]
      split <;> omega
  match link.connection.answeredBy text, hl with
  | [], _            => exact List.mergeSort_nil
  | [(call, frame)], _ => exact List.mergeSort_singleton _

theorem balance_step (h : link.Settled) (ha : link.Accounts log shown) (event : Event) :
    let hub := (link.step event).2.connection.hub
    (link.answered event).length + hub.delivered + hub.dropped =
      ((link.heard event).filterMap Frame.ofText?).length +
        link.connection.hub.delivered + link.connection.hub.dropped := by
  obtain ⟨_, hs⟩ := h.hub_step event
  rcases event.arrives with hn | ⟨text, rfl⟩
  case inl =>
    obtain ⟨_, he⟩ := link.hubAfter_effect hn
    simp [hs, he, answered, h.heard_of_ne hn]
  case inr =>
    simp only [hs, hubAfter, answered, h.heard_peerSend]
    cases link.reading
    case false => simp
    case true =>
      have hb := Connection.balance_route ha.coherent text
      cases hf : Frame.ofText? text <;> simpa [hf] using hb

-- What is counted stays counted.
theorem counts_step (h : link.Settled) (event : Event) :
    let hub := (link.step event).2.connection.hub
    link.connection.hub.delivered ≤ hub.delivered ∧ link.connection.hub.dropped ≤ hub.dropped := by
  generalize hd : link.connection.hub.delivered = delivered
  generalize hn : link.connection.hub.dropped = dropped
  have k : StreamsKeep fun hub => delivered ≤ hub.delivered ∧ dropped ≤ hub.dropped := by
    constructor
    case take         => exact fun hub kind h => have ⟨_, he⟩ := hub.take_effect kind; he ▸ h
    case read         => exact fun hub kind n h => have ⟨_, he⟩ := hub.read_effect kind n; he ▸ h
    case dropConsumer => exact fun hub kind h => have ⟨_, he⟩ := hub.dropConsumer_effect kind; he ▸ h
    case drop         => exact fun hub h => ⟨h.left, Nat.le_succ_of_le h.right⟩
    case ended        => exact fun hub closed h => h
    case offer =>
      intro hub kind push h
      have hc := hub.counts_offer kind push
      by_cases hr : hub.Refuses kind
      case pos => rw [(hc.left hr).left, (hc.left hr).right]; omega
      case neg => rw [(hc.right hr).left, (hc.right hr).right]; omega
  exact k.step h ⟨Nat.le_of_eq hd.symm, Nat.le_of_eq hn.symm⟩ event

theorem balance_run (h : link.Settled) (ha : link.Accounts log shown) (events : List Event) :
    let hub := (link.after events).connection.hub
    (link.gather answered events).length + hub.delivered + hub.dropped =
      ((link.gather heard events).filterMap Frame.ofText?).length +
        link.connection.hub.delivered + link.connection.hub.dropped := by
  induction events generalizing link log shown
  case nil => simp [gather, after, Link.run]
  case cons event events hi =>
    have hb := h.balance_step ha event
    have := hi (h.step event) (ha.step event)
    simp only [gather, List.length_append, List.filterMap_append, after, Link.run] at this hb ⊢
    omega

-- What holds no frame leaves the connection as it is.
theorem step_of_no_frame (h : link.Settled) {text : String} (hf : Frame.ofText? text = none) :
    (link.step (.peerSend text)).2.connection = link.connection := by
  have hs : (link.onEvent (.peerSend text)).2.settle.connection = link.connection := by
    rw [h.settle_peerSend_connection, h.heard_peerSend]
    cases link.reading
    case false => rfl
    case true  => simp [Connection.route, hf]
  simp only [Link.step, work, harvest, collect, hs, ← h.finished]

theorem step_failReceive (h : link.Settled) (error : LinkError) :
    (link.step (.failReceive error)).2.connection = link.connection := by
  simp only [Link.step, work, harvest, collect, h.settle_failReceive_connection, ← h.finished]

end Settled

-- At every moment of a run, each frame that was read has answered one call, or was counted as
-- delivered or as dropped, and what was counted stays counted. The calls that a text answers are
-- those that end with it. A text without a frame and a failed receive leave everything as it was.
theorem frames_balance (config : LinkConfig) (events : List Event) :
    let link := (start config).after events
    let hub  := link.connection.hub
    (((start config).gather heard events).filterMap Frame.ofText?).length =
        ((start config).gather answered events).length + hub.delivered + hub.dropped ∧
      (∀ event, hub.delivered ≤ (link.step event).2.connection.hub.delivered ∧
        hub.dropped ≤ (link.step event).2.connection.hub.dropped) ∧
      (∀ text, (link.step (.peerSend text)).1.finished =
        (link.answered (.peerSend text)).map fun (call, frame) =>
          (call.ticket, call.purpose.verdict frame)) ∧
      (∀ text, link.heard (.peerSend text) = if link.reading then [text] else []) ∧
      (∀ event, (∀ text, event ≠ .peerSend text) → link.heard event = []) ∧
      (∀ text, Frame.ofText? text = none → link.answered (.peerSend text) = [] ∧
        (link.step (.peerSend text)).2.connection = link.connection) ∧
      (∀ error, (link.step (.failReceive error)).2.connection = link.connection) := by
  have hs := Settled.start config
  have ha := Accounts.start config
  have hb := hs.balance_run ha events
  replace ha := ha.run events
  replace hs := hs.run events
  refine ⟨?_, hs.counts_step, hs.finished_peerSend ha, hs.heard_peerSend,
    fun _ => hs.heard_of_ne, fun text hf => ⟨?_, hs.step_of_no_frame hf⟩, hs.step_failReceive⟩
  case refine_1 => simpa [Link.start, Connection.start, Stream.Hub.start] using hb.symm
  case refine_2 => rw [hs.answered_peerSend ha, Connection.answeredBy_of_no_frame hf]

end Link
end LedgerWire
