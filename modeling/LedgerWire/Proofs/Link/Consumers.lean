import LedgerWire.Proofs.Link.Pushes
import LedgerWire.Proofs.Link.Replies

namespace LedgerWire.Link

variable {link : Link} {event : Event} {kind : Stream.Kind} {buffer : List Fields}

def ofKind (kind : Stream.Kind) (pushes : List (Stream.Kind × Fields)) : List Fields :=
  pushes.filterMap fun (k, push) => if k = kind then some push else none

-- The pushes that arrive in a step and are counted as delivered, each with its stream.
def accepted (link : Link) (event : Event) : List (Stream.Kind × Fields) :=
  if (link.step event).2.connection.hub.delivered = link.connection.hub.delivered then []
  else link.pushes event

-- The pushes among the readings that an event gives back.
def Answer.pushes : Answer → List Fields
  | .readings rs => rs.filterMap Stream.Reading.push?
  | _            => []

-- The pushes that the consumer of a stream reads in a step.
def consumed (kind : Stream.Kind) (link : Link) (event : Event) : List Fields :=
  match event with
  | .act (.read k _) => if k = kind then (link.step event).1.answer.pushes else []
  | _                => []

theorem answer_read (hc : link.connection.hub.channel kind = .live buffer) (most : Nat) :
    (link.step (.act (.read kind most))).1.answer =
      .readings (Stream.Hub.readings link.connection.hub.closed buffer most) := by
  have hl : (link.connection.hub.channel kind).isLive := by rw [hc]; rfl
  simp only [Link.step, work, onEvent, act, if_pos hl, Connection.read, Stream.Hub.read_fst hc]

namespace Settled

theorem pushes_peerSend (h : link.Settled) (text : String) :
    link.pushes (.peerSend text) =
      if link.reading then (link.connection.pushed? text).toList else [] := by
  rw [pushes, h.heard_peerSend]
  split
  case isFalse => rfl
  case isTrue  => cases hp : link.connection.pushed? text <;> simp [hp]

-- A push that arrives is offered to the channel of its stream.
theorem hub_step_of_push (h : link.Settled) {text : String} {push : Fields}
    (hp : (kind, push) ∈ link.pushes (.peerSend text)) :
    link.pushes (.peerSend text) = [(kind, push)] ∧
      ∃ closed, (link.step (.peerSend text)).2.connection.hub =
        { link.connection.hub.offer kind push with closed } := by
  have ⟨closed, hs⟩ := h.hub_step (.peerSend text)
  rw [hubAfter, h.heard_peerSend] at hs
  rw [h.pushes_peerSend] at hp ⊢
  cases hr : link.reading
  case false => simp [hr] at hp
  case true =>
    have hp : link.connection.pushed? text = some (kind, push) := by simpa [hr] using hp
    refine ⟨by simp [hp], closed, hs.trans ?_⟩
    simp [hr, Connection.hub_route_of_pushed hp]

theorem hub_step_of_no_push (h : link.Settled) {text : String}
    (hp : link.pushes (.peerSend text) = []) :
    ∃ dropped closed, (link.step (.peerSend text)).2.connection.hub =
      { link.connection.hub with dropped, closed } := by
  have ⟨closed, hs⟩ := h.hub_step (.peerSend text)
  rw [hubAfter, h.heard_peerSend] at hs
  rw [h.pushes_peerSend] at hp
  cases hr : link.reading
  case false =>
    simp only [hr] at hs
    exact ⟨_, closed, hs⟩
  case true =>
    have hp : link.connection.pushed? text = none := by simpa [hr] using hp
    simp only [hr, if_pos, List.foldl_cons, List.foldl_nil] at hs
    cases Connection.hub_route_of_not_pushed hp
    case inl hc => exact ⟨_, closed, hs.trans (by rw [hc])⟩
    case inr hc => exact ⟨_, closed, hs.trans (by rw [hc]; rfl)⟩

-- What a text does to the streams: no channel sees any of it, or one channel gets one more push.
theorem arrival_cases (h : link.Settled) (text : String) :
    (link.accepted (.peerSend text) = [] ∧ ∃ dropped closed,
      (link.step (.peerSend text)).2.connection.hub =
        { link.connection.hub with dropped, closed }) ∨
    ∃ kind push buffer closed, link.accepted (.peerSend text) = [(kind, push)] ∧
      link.connection.hub.channel kind = .live buffer ∧
      (link.step (.peerSend text)).2.connection.hub =
        { link.connection.hub.setChannel kind (.live (buffer ++ [push])) with
          delivered := link.connection.hub.delivered + 1, closed } := by
  cases hp : link.pushes (.peerSend text)
  case nil => exact .inl ⟨by simp [accepted, hp], h.hub_step_of_no_push hp⟩
  case cons push pushes =>
    obtain ⟨kind, push⟩ := push
    have ⟨hs, closed, ho⟩ := h.hub_step_of_push (hp ▸ List.mem_cons_self ..)
    by_cases hr : link.connection.hub.Refuses kind
    case pos =>
      rw [Stream.Hub.offer_of_refuses hr] at ho
      exact .inl ⟨by simp [accepted, ho, Stream.Hub.drop], _, closed, ho⟩
    case neg =>
      have ⟨buffer, hc, _, he⟩ := Stream.Hub.offer_of_not_refuses hr push
      rw [he] at ho
      exact .inr ⟨kind, push, buffer, closed, by simp [accepted, ho, hs], hc, ho⟩

theorem accepted_of_ne (h : link.Settled) (hn : ∀ text, event ≠ .peerSend text) :
    link.accepted event = [] := by
  simp [accepted, pushes, h.heard_of_ne hn]

-- The consumer itself takes from the front of its buffer, and no other event takes anything.
theorem step_live_of_ne (h : link.Settled) (hn : ∀ text, event ≠ .peerSend text)
    (hc : link.connection.hub.channel kind = .live buffer)
    (hd : event ≠ .act (.dropConsumer kind)) :
    ∃ rest, (link.step event).2.connection.hub.channel kind = .live rest ∧
      link.consumed kind event ++ rest = buffer := by
  have ⟨closed, hs⟩ := h.hub_step event
  have channel : (link.step event).2.connection.hub.channel kind =
      (link.hubAfter event).channel kind := by rw [hs]; rfl
  rw [channel]
  cases event
  case act action =>
    cases action
    case take k =>
      have ht : (link.connection.hub.channel kind).isTaken := by rw [hc]; rfl
      exact ⟨buffer, (Stream.Hub.channel_take ht k).trans hc, rfl⟩
    case dropConsumer k =>
      have hk : kind ≠ k := fun heq => hd <| by rw [heq]
      exact ⟨buffer, (Stream.Hub.channel_dropConsumer_of_ne hk).trans hc, rfl⟩
    case read k most =>
      by_cases hk : kind = k
      case pos =>
        subst hk
        refine ⟨buffer.drop most, (Stream.Hub.channel_read hc most).trans (if_pos rfl), ?_⟩
        simp only [consumed, if_pos, answer_read hc, Answer.pushes, Stream.Hub.pushes_readings]
        exact buffer.take_append_drop most
      case neg =>
        refine ⟨buffer, (Stream.Hub.channel_read_of_ne hk most).trans hc, ?_⟩
        rw [consumed, if_neg (Ne.symm hk), List.nil_append]
    all_goals exact ⟨buffer, hc, rfl⟩
  case peerSend text => exact absurd rfl (hn text)
  all_goals exact ⟨buffer, hc, rfl⟩

theorem step_live (h : link.Settled) (hc : link.connection.hub.channel kind = .live buffer)
    (hd : event ≠ .act (.dropConsumer kind)) :
    ∃ rest, (link.step event).2.connection.hub.channel kind = .live rest ∧
      link.consumed kind event ++ rest = buffer ++ ofKind kind (link.accepted event) := by
  rcases event.arrives with hn | ⟨text, rfl⟩
  case inl =>
    rw [h.accepted_of_ne hn, ofKind, List.filterMap_nil, List.append_nil]
    exact h.step_live_of_ne hn hc hd
  case inr =>
    rcases h.arrival_cases text with ⟨ha, _, _, hs⟩ | ⟨k, push, held, _, ha, hk, hs⟩
    case inl =>
      refine ⟨buffer, by rw [hs]; exact hc, ?_⟩
      rw [ha, ofKind, List.filterMap_nil, List.append_nil]
      rfl
    case inr =>
      have channel : (link.step (.peerSend text)).2.connection.hub.channel kind =
          if kind = k then .live (held ++ [push]) else .live buffer := by
        rw [hs, ← hc]
        exact Stream.Hub.channel_setChannel ..
      by_cases heq : kind = k
      case pos =>
        subst heq
        cases hk.symm.trans hc
        exact ⟨buffer ++ [push], channel.trans (if_pos rfl), by simp [ha, ofKind, consumed]⟩
      case neg =>
        exact ⟨buffer, channel.trans (if_neg heq), by simp [ha, ofKind, consumed, Ne.symm heq]⟩

-- As long as a consumer is there, what it has read and what its buffer holds is what the buffer held
-- at first and what was accepted since.
theorem run_live (h : link.Settled) (hc : link.connection.hub.channel kind = .live buffer)
    {events : List Event} (hd : .act (.dropConsumer kind) ∉ events) :
    ∃ rest, (link.after events).connection.hub.channel kind = .live rest ∧
      link.gather (consumed kind) events ++ rest =
        buffer ++ ofKind kind (link.gather accepted events) := by
  induction events generalizing link buffer
  case nil => exact ⟨buffer, hc, by simp [gather, ofKind]⟩
  case cons event events hi =>
    have ⟨ne, hd⟩ := not_or.mp <| mt List.mem_cons.mpr hd
    have ⟨held, hh, hs⟩ := h.step_live hc (Ne.symm ne)
    have ⟨rest, hr, he⟩ := hi (h.step event) hh hd
    refine ⟨rest, hr, ?_⟩
    calc link.gather (consumed kind) (event :: events) ++ rest
      _ = link.consumed kind event ++
            ((link.step event).2.gather (consumed kind) events ++ rest) := by
        rw [gather, List.append_assoc]
      _ = link.consumed kind event ++ held ++
            ofKind kind ((link.step event).2.gather accepted events) := by
        rw [he, List.append_assoc]
      _ = buffer ++ ofKind kind (link.gather accepted (event :: events)) := by
        rw [hs, gather, ofKind, ofKind, ofKind, List.filterMap_append, List.append_assoc]

theorem delivered_step (h : link.Settled) (event : Event) :
    (link.step event).2.connection.hub.delivered =
      link.connection.hub.delivered + (link.accepted event).length := by
  rcases event.arrives with hn | ⟨text, rfl⟩
  case inl =>
    obtain ⟨_, hs⟩ := h.hub_step event
    obtain ⟨_, he⟩ := link.hubAfter_effect hn
    rw [h.accepted_of_ne hn, hs, he]
    rfl
  case inr =>
    rcases h.arrival_cases text with ⟨ha, _, _, hs⟩ | ⟨k, push, held, _, ha, _, hs⟩
    all_goals rw [ha, hs]; rfl

theorem delivered_run (h : link.Settled) (events : List Event) :
    (link.after events).connection.hub.delivered =
      link.connection.hub.delivered + (link.gather accepted events).length := by
  induction events generalizing link
  case nil => rfl
  case cons event events hi =>
    rw [gather, List.length_append, ← Nat.add_assoc, ← h.delivered_step event]
    exact hi (h.step event)

end Settled

theorem streamsKeep_bounded (room : Nat) : StreamsKeep (Stream.Hub.Bounded room) where
  take _ kind h         := h.take kind
  read _ kind most h    := h.read kind most
  dropConsumer _ kind h := h.dropConsumer kind
  offer _ kind push h   := h.offer kind push
  drop _ h              := { h with }
  ended _ _ h           := { h with }

theorem streamsKeep_taken (kind : Stream.Kind) :
    StreamsKeep (fun hub => (hub.channel kind).isTaken) where
  take _ k h         := (congrArg _ <| Stream.Hub.channel_take h k).trans h
  read _ k most h    := Stream.Hub.isTaken_read h k most
  dropConsumer _ k h := Stream.Hub.isTaken_dropConsumer h k
  offer _ k push h   := Stream.Hub.isTaken_offer h k push
  drop _ h           := h
  ended _ _ h        := h

theorem bounded_after (config : LinkConfig) (events : List Event) :
    ((start config).after events).connection.hub.Bounded (max config.streamCapacity 1) :=
  (streamsKeep_bounded _).run (.start config) (.start _) events

theorem answer_take (link : Link) (kind : Stream.Kind) :
    (link.step (.act (.take kind))).1.answer = .flag (link.connection.hub.take kind).1 :=
  rfl

-- Who gets a consumer finds it with an empty buffer.
theorem Settled.step_take (h : link.Settled)
    (ht : (link.step (.act (.take kind))).1.answer = .flag true) :
    (link.step (.act (.take kind))).2.connection.hub.channel kind = .live [] := by
  have ⟨_, hs⟩ := h.hub_step (.act (.take kind))
  rw [hs]
  exact Stream.Hub.channel_of_take <| Answer.flag.inj ht

-- What becomes of a push for a stream depends on its consumer, and no other consumer sees it.
theorem Settled.push_fate {room : Nat} (h : link.Settled)
    (hb : link.connection.hub.Bounded room) {text : String} {push : Fields}
    (hp : (kind, push) ∈ link.pushes (.peerSend text)) :
    let hub  := link.connection.hub
    let next := (link.step (.peerSend text)).2.connection.hub
    let lost := hub.closed ∨ (hub.channel kind).isLive = false ∨
      ∃ buffer, hub.channel kind = .live buffer ∧ buffer.length = room
    (next.dropped = hub.dropped + 1 ↔ lost) ∧ (next.delivered = hub.delivered + 1 ↔ ¬lost) ∧
      ∀ other ≠ kind, next.channel other = hub.channel other := by
  have ⟨_, _, hs⟩ := h.hub_step_of_push hp
  have hc := link.connection.hub.counts_offer kind push
  simp only [← Stream.Hub.refuses_iff hb, hs]
  refine ⟨?_, ?_, fun other ne => Stream.Hub.channel_offer_of_ne ne push⟩
  all_goals
    by_cases hr : link.connection.hub.Refuses kind
    case pos => simp [hr, hc.left hr]
    case neg => simp [hr, hc.right hr]

-- A consumer can be taken at most once. From then on until it is dropped, what it has read and what
-- is buffered for it is what was accepted for its stream, in that order, and every push that was
-- counted as delivered was accepted for one stream. A push is lost exactly if nobody is there or the
-- buffer is full. A closed link gives what is buffered, and says only then that it has ended.
theorem consumers_get_what_is_accepted (config : LinkConfig) (events : List Event)
    (kind : Stream.Kind) :
    let link := (start config).after events
    let hub  := link.connection.hub
    let room := max config.streamCapacity 1
    let step := link.step (.act (.take kind))
    (step.1.answer = .flag true → ∀ more,
      ((step.2.after more).step (.act (.take kind))).1.answer = .flag false ∧
      (.act (.dropConsumer kind) ∉ more → ∃ buffer,
        (step.2.after more).connection.hub.channel kind = .live buffer ∧
          step.2.gather (consumed kind) more ++ buffer =
            ofKind kind (step.2.gather accepted more))) ∧
    ((start config).gather accepted events).length = hub.delivered ∧
    (∀ buffer, hub.channel kind = .live buffer → buffer.length ≤ room) ∧
    (∀ text push, (kind, push) ∈ link.pushes (.peerSend text) →
      let next := (link.step (.peerSend text)).2.connection.hub
      let lost := link.connection.closed ∨ (hub.channel kind).isLive = false ∨
        ∃ buffer, hub.channel kind = .live buffer ∧ buffer.length = room
      (next.dropped = hub.dropped + 1 ↔ lost) ∧ (next.delivered = hub.delivered + 1 ↔ ¬lost) ∧
        ∀ other ≠ kind, next.channel other = hub.channel other) ∧
    (∀ buffer, hub.channel kind = .live buffer → ∀ most,
      (link.step (.act (.read kind most))).1.answer = .readings ((buffer.take most).map .push ++
        if buffer.length < most then [if link.connection.closed then .ended else .empty]
        else [])) := by
  have hs := (Settled.start config).run events
  have hb := bounded_after config events
  have hc := ((Accounts.start config).run events).coherent.hub
  dsimp only
  rw [← hc]
  refine ⟨fun ht more => ⟨?_, fun hd => ?_⟩, ?_, hb.buffers kind,
    fun _ _ => hs.push_fate hb, fun _ => answer_read⟩
  case refine_1 =>
    have hl := (streamsKeep_taken kind).run (hs.step _)
      (by rw [hs.step_take ht]; rfl) more
    rw [answer_take, Stream.Hub.take_of_taken hl]
  case refine_2 => exact (hs.step _).run_live (hs.step_take ht) hd
  case refine_3 =>
    have hd := (Settled.start config).delivered_run events
    simpa [Link.start, Connection.start, Stream.Hub.start] using hd.symm

end LedgerWire.Link
