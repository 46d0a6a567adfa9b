import LedgerWire.Proofs.Link.Closure
import Mathlib.Data.List.Induction

namespace LedgerWire

namespace Connection

variable {c : Connection}

theorem call_of_closed (h : c.closed) (ticket now : Nat) (request : Request) :
    c.call ticket now request =
      { c with finished := c.finished ++ [(ticket, .failed .closed)] } := by
  simp [call, allocate?, h]

theorem shutDown_of_closed (h : c.closed) : c.shutDown = c :=
  if_pos h

theorem failRequest_of_empty (h : c.pending = .empty) (id : Nat) (error : LinkError) :
    c.failRequest id error = c := by
  simp [failRequest, h, Pending.ticket?, Pending.empty]

end Connection

namespace Link

variable {link : Link} {event : Event}

-- The outcomes of so many requests that are refused because the link has closed.
def refusals (first count : Nat) : List (Nat × Outcome LinkError) :=
  (List.range' first count).map (·, .failed .closed)

theorem callTimes_of_closed (h : link.connection.closed) (request : Request) (times : Nat) :
    (link.callTimes request times).connection = { link.connection with
      finished := link.connection.finished ++ refusals link.tickets times } := by
  induction times generalizing link
  case zero =>
    obtain ⟨connection, _⟩ := link
    simp [callTimes, refusals]
  case succ times hi =>
    have hc := Connection.call_of_closed h link.tickets link.clock request
    have hl : (link.call request).connection.closed := by rw [call, hc]; exact h
    rw [callTimes, hi hl]
    simp only [call, hc, refusals, List.range'_succ, List.map_cons, List.append_assoc]
    rfl

-- Nothing that a closed link still has to write or to read changes its connection.
theorem settle_of_closed (h : link.connection.closed) (hp : link.connection.pending = .empty)
    (hi : link.reading → link.duplex.near.inbox = []) :
    link.settle.connection = link.connection.flushed := by
  generalize hc : link.connection.flushed = c
  have hs : c.shutDown = c := Connection.shutDown_of_closed (by rw [← hc]; exact h)
  have hw : link.write.connection = c := by
    refine WritesKeep.write (P := (· = c)) ⟨?_, ?_⟩ hc
    · intro _ id error _ heq
      rw [heq, Connection.failRequest_of_empty (by rw [← hc]; exact hp)]
    · exact fun _ heq => heq ▸ hs
  rw [settle, release_connection]
  refine read_of_no_text (P := (· = c)) (fun _ heq => heq ▸ hs) ?_ hw
  have u := Undisturbed.write link
  exact fun hr => u.inbox.trans <| hi <| u.reading ▸ hr

-- A closed link takes no request and no consumer, and to close it again changes nothing.
structure Dead (link : Link) : Prop where
  pending : link.connection.pending = .empty
  refuses : ∀ event, link.requests event ≠ [] →
    (link.onEvent event).2.connection = { link.connection with
      finished := refusals link.tickets (link.requests event).length } ∧
    (link.step event).1.finished = refusals link.tickets (link.requests event).length ∧
    (link.step event).2.connection = link.connection
  take : ∀ kind, (link.step (.act (.take kind))).1.answer = .flag false ∧
    (link.step (.act (.take kind))).2.connection = link.connection
  close : (link.step (.act .close)).2.connection = link.connection

namespace Settled

-- A closed link on which no text arrives keeps, over a step, what the event left of its connection.
theorem settle_onEvent (h : link.Settled) (hp : link.connection.pending = .empty)
    (closed : link.connection.closed) (hn : ∀ text, event ≠ .peerSend text)
    {finished : List (Nat × Outcome LinkError)} {outbound : List Outbound}
    (he : (link.onEvent event).2.connection = { link.connection with finished, outbound }) :
    (link.onEvent event).2.settle.connection = { link.connection with finished } := by
  have n := Nearby.onEvent link event
  have hi : (link.onEvent event).2.reading → (link.onEvent event).2.duplex.near.inbox = [] :=
    fun hr => (n.inbox hn).trans <| h.inbox <| n.reading ▸ hr
  rw [settle_of_closed (by rw [he]; exact closed) (by rw [he]; exact hp) hi, he]
  simp only [Connection.flushed, h.outbound]

theorem step_connection_of_closed (h : link.Settled) (hp : link.connection.pending = .empty)
    (closed : link.connection.closed) (hn : ∀ text, event ≠ .peerSend text)
    {finished : List (Nat × Outcome LinkError)} {outbound : List Outbound}
    (he : (link.onEvent event).2.connection = { link.connection with finished, outbound }) :
    (link.step event).2.connection = link.connection := by
  have hs := h.settle_onEvent hp closed hn he
  simp only [Link.step, work, harvest, collect, hs, ← h.finished]

theorem dead (h : link.Settled) (hc : link.connection.Coherent) (closed : link.connection.closed) :
    link.Dead := by
  have hp : link.connection.pending = .empty := by rw [hc.pending, hc.closed closed]; rfl
  constructor
  case pending => exact hp
  case refuses =>
    intro event hn
    have ht : ∀ text, event ≠ .peerSend text := by rintro text rfl; exact hn rfl
    have ⟨request, times, hr, he⟩ := onEvent_of_requests hn
    have ho : (link.onEvent event).2.connection = { link.connection with
        finished := refusals link.tickets (link.requests event).length } := by
      rw [he, callTimes_of_closed closed, hr, List.length_replicate, h.finished, List.nil_append]
    refine ⟨ho, ?_, h.step_connection_of_closed hp closed ht ho⟩
    simp only [Link.step, work, harvest, h.settle_onEvent hp closed ht ho]
    -- The tickets are handed out in their order, in which the outcomes are shown.
    refine List.mergeSort_of_pairwise <| List.pairwise_map.mpr ?_
    exact (List.pairwise_le_range' 1).imp (by simp)
  case take =>
    intro kind
    have hh : link.connection.hub.closed = true := hc.hub.trans closed
    have ht : link.connection.take kind = (false, link.connection) := by
      simp only [Connection.take, Stream.Hub.take, hh]
    have he : (link.onEvent (.act (.take kind))).2.connection = link.connection := by
      simp only [onEvent, act, ht]
    refine ⟨?_, h.step_connection_of_closed hp closed (by simp) he⟩
    simp only [Link.step, work, onEvent, act, ht]
  case close =>
    have hs := Connection.shutDown_of_closed
      (c := { link.connection with outbound := link.connection.outbound ++ [.close] }) closed
    exact h.step_connection_of_closed hp closed (by simp) hs

end Settled

theorem after_concat (link : Link) (events : List Event) (event : Event) :
    link.after (events ++ [event]) = ((link.after events).step event).2 := by
  induction events generalizing link
  case nil => rfl
  case cons first events hi => exact hi (link.step first).2

theorem closed_step_iff (link : Link) (event : Event) :
    (link.step event).2.connection.closed ↔
      link.connection.closed ∨ ∃ calls, link.Closes event calls := by
  cases hc : link.connection.closed
  case false => simpa using closed_step hc
  case true =>
    have hw := (write_drained fun (_ : True) => closed_onEvent hc event).right trivial
    simpa [step_connection] using closed_read_of_closed hw

theorem closed_after_iff (hc : link.connection.closed = false) (events : List Event) :
    (link.after events).connection.closed ↔ ∃ before event calls,
      before ++ [event] <+: events ∧ (link.after before).Closes event calls := by
  induction events using List.reverseRecOn
  case nil =>
    have hn : (link.after []).connection.closed = false := hc
    simp [hn]
  case append_singleton events event hi =>
    rw [after_concat, closed_step_iff, hi]
    constructor
    case mp =>
      rintro (⟨before, first, calls, hp, hcl⟩ | ⟨calls, hcl⟩)
      · exact ⟨before, first, calls, hp.trans <| List.prefix_append .., hcl⟩
      · exact ⟨events, event, calls, List.prefix_rfl, hcl⟩
    case mpr =>
      intro ⟨before, first, calls, hp, hcl⟩
      rcases List.prefix_concat_iff.mp hp with heq | hp
      · obtain ⟨rfl, hl⟩ := List.append_inj' heq rfl
        cases hl
        exact .inr ⟨calls, hcl⟩
      · exact .inl ⟨before, first, calls, hp, hcl⟩

-- A link is closed if, and only if, one of the three ways to close it came up in its run, and it
-- stays closed from that step on. In the same step the calls then in flight are shown as closed.
-- Of a link that has closed nothing more can be had.
theorem closes_in_three_ways (config : LinkConfig) (events : List Event) :
    let link := (start config).after events
    (link.connection.closed ↔ ∃ before event calls,
      before ++ [event] <+: events ∧ ((start config).after before).Closes event calls) ∧
    (∀ event, (link.step event).2.connection.closed ↔
      link.connection.closed ∨ ∃ calls, link.Closes event calls) ∧
    (∀ event calls, link.Closes event calls →
      (event = .act .close ∨ event = .peerClose ∨ event = .peerDrop ∨ link.requests event ≠ []) ∧
      ∀ call ∈ calls, (call.ticket, .failed .closed) ∈ (link.step event).1.finished) ∧
    (link.connection.closed → link.Dead) := by
  have ha := Accounts.start config |>.run events
  have hs := Settled.start config |>.run events
  exact ⟨closed_after_iff rfl events, closed_step_iff _,
    fun event calls hcl => ⟨hcl.cause hs, fun call => hcl.finished ha⟩, hs.dead ha.coherent⟩

end Link
end LedgerWire
