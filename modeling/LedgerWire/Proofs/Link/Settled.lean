import LedgerWire.Proofs.Link.History

namespace LedgerWire

namespace Link

variable {link : Link}

structure Settled (link : Link) : Prop where
  finished : link.connection.finished = []
  outbound : link.connection.outbound = []
  inbox    : link.reading → link.duplex.near.inbox = []
  receives : link.reading → link.faults.receives = []
  peer     : link.reading → link.duplex.far.standing = .live
  present  : link.reading → link.duplex.near.standing ≠ .dropped
  closed   : link.reading = false → link.connection.closed

theorem Settled.start (config : LinkConfig) : (start config).Settled where
  finished := rfl
  outbound := rfl
  inbox _  := rfl
  receives := fun _ => rfl
  peer _   := rfl
  present  := nofun
  closed   := nofun

theorem Settled.of_not_reading (finished : link.connection.finished = [])
    (outbound : link.connection.outbound = []) (hr : link.reading = false)
    (closed : link.connection.closed) : link.Settled where
  finished  := finished
  outbound  := outbound
  inbox h    := absurd h (by simp [hr])
  receives h := absurd h (by simp [hr])
  peer h     := absurd h (by simp [hr])
  present h  := absurd h (by simp [hr])
  closed _   := closed

theorem closed_onEvent (h : link.connection.closed) (event : Event) :
    (link.onEvent event).2.connection.closed := by
  refine EventsKeep.onEvent (P := fun c _ _ => c.closed) ?_ [] h event
  constructor
  case call =>
    intro c ticket _ now request hc
    have ⟨_, _, _, _, _, h⟩ := c.call_effect ticket now request
    exact h ▸ hc
  case expire =>
    intro c _ _ now hc
    have ⟨_, _, _, h⟩ := c.expire_effect now
    exact h ▸ hc
  case cancel =>
    intro c _ _ ticket hc
    have ⟨_, _, _, h⟩ := c.cancel_effect ticket
    exact h ▸ hc
  case hub => exact fun c _ _ hub _ hc => hc
  case close =>
    intro c _ _ hc
    have ⟨_, _, _, _, h⟩ := Connection.shutDown_effect { c with outbound := c.outbound ++ [.close] }
    rw [Connection.close, h]

-- Under `gone` the connection was closed before, and the loop does not open it again.
theorem write_drained {gone : Prop} (h : gone → link.connection.closed) :
    link.write.connection.outbound = [] ∧ (gone → link.write.connection.closed) := by
  refine WritesKeep.write (P := fun c => c.outbound = [] ∧ (gone → c.closed)) ⟨?_, ?_⟩ ⟨rfl, h⟩
  · intro c id error _ hc
    have ⟨_, _, _, h⟩ := c.failRequest_effect id error
    exact h ▸ hc
  · intro c hc
    have ⟨_, _, _, _, h⟩ := c.shutDown_effect
    exact h ▸ ⟨hc.left, fun _ => rfl⟩

theorem read_connection {gone : Prop}
    (h : link.connection.outbound = [] ∧ (gone → link.connection.closed)) :
    link.read.connection.outbound = [] ∧ (gone → link.read.connection.closed) := by
  refine read_keeps (P := fun c => c.outbound = [] ∧ (gone → c.closed)) ?_ ?_ h
  · intro c text hc
    have ⟨_, _, _, _, _, h⟩ := c.route_effect text
    exact h ▸ hc
  · intro c hc
    have ⟨_, _, _, _, h⟩ := c.shutDown_effect
    exact h ▸ ⟨hc.left, fun _ => rfl⟩

theorem release_of_reading (hr : link.reading) : link.release = link := by
  simp [release, hr]

theorem release_reading (link : Link) : link.release.reading = link.reading := by
  rw [release]
  split <;> rfl

-- Nothing is left to do once the loops had their turn, whatever was done to the link before.
theorem settle_settled (present : link.reading → link.duplex.near.standing ≠ .dropped)
    (closed : link.reading = false → link.connection.closed) :
    Settled { link.settle with connection := { link.settle.connection with finished := [] } } := by
  have u := Undisturbed.write link
  have hw := write_drained closed
  obtain ⟨ho, hc⟩ := read_connection hw
  cases hr : link.reading
  case false =>
    have hn : link.settle.reading = false := by
      rw [settle, release_reading, read_of_not_reading (u.reading.trans hr), u.reading, hr]
    have hs : link.settle.connection = link.write.read.connection := release_connection _
    exact .of_not_reading rfl (hs ▸ ho) hn (hs ▸ hc hr)
  case true =>
    have hr' : link.write.reading := u.reading.trans hr
    -- The loop that reads has not ended before, so it ends now if the peer is gone.
    by_cases hl : link.write.duplex.far.standing = .live
    case pos =>
      -- The peer may still send, so the loop that reads has only routed what was there.
      have hs : link.settle = link.write.drained := by
        rw [settle, read_eq hr', if_pos hl]
        exact release_of_reading hr'
      rw [read_eq hr', if_pos hl] at ho
      rw [hs]
      constructor
      case finished => rfl
      case outbound => exact ho
      case inbox    => exact fun _ => rfl
      case receives => exact fun _ => rfl
      case peer     => exact fun _ => hl
      case present  => exact fun _ => u.present <| present hr
      case closed   => exact fun h => absurd h (by simp [drained, hr'])
    case neg =>
      have hn : link.settle.reading = false := by
        rw [settle, release_reading, read_eq hr', if_neg hl]
      have hs : link.settle.connection = link.write.drained.connection.shutDown := by
        rw [settle, release_connection, read_eq hr', if_neg hl]
      rw [read_eq hr', if_neg hl] at ho
      obtain ⟨_, _, _, _, h⟩ := link.write.drained.connection.shutDown_effect
      exact .of_not_reading rfl (hs ▸ ho) hn (by rw [hs, h])

namespace Settled

theorem step (h : link.Settled) (event : Event) : (link.step event).2.Settled := by
  have n := Nearby.onEvent link event
  have hs := settle_settled (fun hr => n.standing ▸ h.present (n.reading ▸ hr))
    (fun hr => closed_onEvent (h.closed (n.reading ▸ hr)) event)
  exact ⟨rfl, hs.outbound, hs.inbox, hs.receives, hs.peer, hs.present, hs.closed⟩

theorem run (h : link.Settled) (events : List Event) : (link.after events).Settled := by
  induction events generalizing link
  case nil => exact h
  case cons event events hi => exact hi <| h.step event

end Settled

theorem calls_eq_underWay (config : LinkConfig) (events : List Event) :
    ((start config).after events).connection.calls =
      underWay ((start config).history events) ((start config).endings events) := by
  have h := (Accounts.start config |>.run events).calls
  simpa [(Settled.start config |>.run events).finished] using h

-- Whatever ended the other calls, the table holds the ids of those that nothing has ended yet.
-- Every ticket handed out is that of a call in the table or that of an outcome.
theorem pending_eq_underWay (config : LinkConfig) (events : List Event) :
    let link  := (start config).after events
    let ended := (start config).endings events
    let calls := underWay ((start config).history events) ended
    link.connection.pending.ids = calls.map (·.id) ∧ link.connection.pending.ids.Nodup ∧
      link.connection.pending.size = calls.length ∧
      link.connection.pending.size + ended.length = link.tickets ∧
      (link.connection.closed → link.connection.pending = .empty) := by
  have h := Accounts.start config |>.run events
  have hf := (Settled.start config |>.run events).finished
  have ht := h.tickets.length_eq
  simp only [List.nil_append, hf, List.append_nil, List.length_append, List.length_map,
    List.length_range] at ht
  dsimp only
  rw [← calls_eq_underWay, h.coherent.pending, Pending.ids_ofCalls, Pending.size_ofCalls]
  refine ⟨rfl, h.coherent.ids, rfl, Nat.add_comm .. ▸ ht, ?_⟩
  intro closed
  rw [h.coherent.closed closed]
  rfl

end Link
end LedgerWire
