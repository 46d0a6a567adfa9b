import LedgerWire.Proofs.Link.Isolation
import LedgerWire.Proofs.Link.Numbering

namespace LedgerWire

namespace Stream.Hub

-- A push reaches the buffers and the counters.
theorem offer_effect (hub : Hub) (kind : Kind) (push : Fields) : ∃ channels delivered dropped,
    hub.offer kind push = { hub with channels, delivered, dropped } := by
  rw [offer]
  split
  case h_2 => exact ⟨_, _, _, rfl⟩
  case h_1 => split <;> exact ⟨_, _, _, rfl⟩

end Stream.Hub

namespace Connection

variable {c : Connection}

theorem push_streams (c : Connection) (frame : Fields) : ∃ channels delivered dropped,
    c.push frame = { c with hub := { c.hub with channels, delivered, dropped } } := by
  rw [push]
  split
  case h_2        => exact ⟨_, _, _, rfl⟩
  case h_1 kind _ =>
    obtain ⟨_, _, _, h⟩ := c.hub.offer_effect (c.hub.resolve kind) frame
    exact ⟨_, _, _, by rw [Stream.Hub.deliver, h]⟩

theorem route_streams {text : String} (h : (Frame.ofText? text).any c.awaits = false) :
    ∃ channels delivered dropped,
      c.route text = { c with hub := { c.hub with channels, delivered, dropped } } := by
  rw [route]
  split
  case h_2          => exact ⟨_, _, _, rfl⟩
  case h_1 frame hf =>
    rw [hf, Option.any_some] at h
    rw [routeFrame_of_not_awaits h]
    exact c.push_streams frame

-- An id that a call has had is never that of another, so nobody waits for a call that has ended.
theorem Numbered.not_awaits {first tickets : Nat} {log : List Call} {call : Call}
    {shown : List (Nat × Outcome LinkError)} (h : c.Numbered first log)
    (ha : c.Accounts tickets log shown) (mem : call ∈ log)
    (he : call.ticket ∈ (shown ++ c.finished).map (·.1)) {text : String}
    (hf : (Frame.carrying? call.id text).isSome) : (Frame.ofText? text).any c.awaits = false := by
  have ⟨frame, hf⟩ := Option.isSome_iff_exists.mp hf
  have ⟨ht, hi⟩ := Option.filter_eq_some_iff.mp hf
  rw [ht, Option.any_some, Bool.eq_false_iff]
  intro hw
  have ⟨other, hm, ho⟩ := (awaits_iff ha.coherent).mp hw
  rw [ha.calls, mem_underWay] at hm
  have hn : (log.map (·.id)).Nodup := h.ids ▸ List.nodup_range'
  have hid := Option.some.inj <| ho.symm.trans (of_decide_eq_true hi)
  exact hm.right <| List.inj_on_of_nodup_map hn hm.left mem hid ▸ he

end Connection

namespace Link

variable {link l m : Link} {text : String}

-- The texts that a step brings to the far end.
def wires (link : Link) (event : Event) : List String :=
  (link.step event).1.wire

-- Links at rest that differ in their streams alone go on to show the same of their requests.
theorem Alike.onward (hl : l.Rested) (hm : m.Rested) (h : l.Alike m) (events : List Event) :
    l.endings events = m.endings events ∧ l.gather wires events = m.gather wires events ∧
      (l.after events).Alike (m.after events) := by
  induction events generalizing l m
  case nil => exact ⟨rfl, rfl, h⟩
  case cons event events hi =>
    have hs : (l.step event).1.finished = (m.step event).1.finished ∧
        (l.step event).1.wire = (m.step event).1.wire ∧
        (l.step event).2.Alike (m.step event).2 := by
      cases hc : l.concerns event
      case true =>
        have ⟨hi, hs⟩ := h.step hc
        exact ⟨by rw [hi], by rw [hi], hs⟩
      case false =>
        -- Neither link shows anything, and each stays like itself.
        have ⟨hf, hw, ha⟩ := hl.step_aside hc
        have ⟨hf', hw', ha'⟩ := hm.step_aside (h.concerns event ▸ hc)
        exact ⟨hf.trans hf'.symm, hw.trans hw'.symm, ha.symm.trans <| h.trans ha'⟩
    have ⟨hf, hw, ha⟩ := hs
    have ⟨he, hg, hn⟩ := hi (hl.step event) (hm.step event) ha
    refine ⟨?_, ?_, hn⟩
    case refine_1 =>
      simp only [endings] at he
      simp only [endings, Link.run, List.flatMap_cons, hf, he]
    case refine_2 => rw [gather, gather, wires, wires, hw, hg]

theorem Rested.of_hub (h : link.Rested) (hub : Stream.Hub) :
    Rested { link with connection := { link.connection with hub } } where
  toSettled := { h.toSettled with }
  sent      := h.sent
  gone      := h.gone
  released  := h.released

-- The text reaches the buffers and the counters of the streams. Nothing ends by it, nothing is
-- written, and whatever happens afterwards happens as if it had not come.
structure Inert (link : Link) (text : String) : Prop where
  finished : (link.step (.peerSend text)).1.finished = []
  wire     : (link.step (.peerSend text)).1.wire = []
  streams  : ∃ channels delivered dropped, (link.step (.peerSend text)).2 = { link with
    connection := { link.connection with
      hub := { link.connection.hub with channels, delivered, dropped } } }
  onward   : ∀ events,
    link.endings (.peerSend text :: events) = link.endings events ∧
    link.gather wires (.peerSend text :: events) = link.gather wires events ∧
    (link.after (.peerSend text :: events)).front = (link.after events).front

theorem Rested.settle_streams (h : link.Rested)
    (hc : (Frame.ofText? text).any link.connection.awaits = false) :
    ∃ channels delivered dropped, (link.onEvent (.peerSend text)).2.settle = { link with
      connection := { link.connection with
        hub := { link.connection.hub with channels, delivered, dropped } } } := by
  by_cases hr : link.reading
  case pos =>
    have ⟨_, _, _, ht⟩ := Connection.route_streams hc
    rw [h.settle_peerSend_of_reading hr, ht]
    exact ⟨_, _, _, rfl⟩
  case neg =>
    rw [h.onEvent_peerSend_of_not_reading (Bool.eq_false_iff.mpr hr), h.settle]
    exact ⟨_, _, _, rfl⟩

theorem Rested.inert (h : link.Rested)
    (hc : (Frame.ofText? text).any link.connection.awaits = false) : link.Inert text := by
  have hn : link.concerns (.peerSend text) = false := hc
  have ⟨hf, hw, ha⟩ := h.step_aside hn
  constructor
  case finished => exact hf
  case wire     => exact hw
  case streams  =>
    have ⟨channels, delivered, dropped, hs⟩ := h.settle_streams hc
    refine ⟨channels, delivered, dropped, ?_⟩
    have hr := h.of_hub { link.connection.hub with channels, delivered, dropped }
    simp only [Link.step, work, hs, hr.harvest]
    exact hr.collect.right
  case onward   =>
    intro events
    obtain ⟨he, hg, hn⟩ := ha.symm.onward (h.step _) h events
    refine ⟨?_, ?_, hn.front⟩
    case refine_1 =>
      simp only [endings] at he
      simp only [endings, Link.run, List.flatMap_cons, hf, List.nil_append, he]
    case refine_2 => rw [gather, wires, hw, List.nil_append, hg]

end Link
end LedgerWire
