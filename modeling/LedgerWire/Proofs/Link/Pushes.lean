import LedgerWire.Proofs.Link.Arrivals
import LedgerWire.Proofs.Stream.Delivery

namespace LedgerWire

namespace Connection

variable {c : Connection} {frame : Fields}

-- Whether a frame carries the id of a pending request.
def awaits (c : Connection) (frame : Fields) : Bool :=
  (Frame.requestId? frame).any c.pending.contains

-- The push in a text, and the stream that it is for. A frame without a stream is for none.
def pushed? (c : Connection) (text : String) : Option (Stream.Kind × Fields) :=
  (Frame.ofText? text).bind fun frame =>
    if c.awaits frame then none else (Frame.stream? frame).map fun kind => (c.hub.resolve kind, frame)

theorem awaits_iff (h : c.Coherent) :
    c.awaits frame ↔ ∃ call ∈ c.calls, Frame.requestId? frame = some call.id := by
  unfold awaits
  cases Frame.requestId? frame
  case none    => simp
  case some id =>
    rw [Option.any_some, h.pending, Pending.contains_ofCalls, List.mem_map]
    exact exists_congr fun call => and_congr_right fun _ => by rw [Option.some_inj, eq_comm]

theorem routeFrame_of_not_awaits (h : c.awaits frame = false) :
    c.routeFrame frame = c.push frame := by
  unfold routeFrame
  cases hi : Frame.requestId? frame
  case none => rfl
  case some id =>
    have ht : c.pending.ticket? id = none := by simpa [awaits, hi, Pending.contains] using h
    simp only [ht]

theorem hub_finish (c : Connection) (ticket : Nat) (outcome : Outcome LinkError) :
    (c.finish ticket outcome).hub = c.hub := by
  have ⟨_, _, h⟩ := c.finish_effect ticket outcome
  rw [h]

theorem hub_answer (c : Connection) (ticket : Nat) (reply : Fields) :
    (c.answer ticket reply).hub = c.hub := by
  unfold answer
  split
  case h_1 call _ => exact c.hub_finish ticket (call.purpose.conclude c.active reply).1
  case h_2        => rfl

theorem hub_routeFrame_of_awaits (h : c.awaits frame) : (c.routeFrame frame).hub = c.hub := by
  unfold routeFrame
  cases hi : Frame.requestId? frame
  case none => simp [awaits, hi] at h
  case some id =>
    have ⟨ticket, ht⟩ : ∃ ticket, c.pending.ticket? id = some ticket := by
      simpa [awaits, hi, Pending.contains, Option.isSome_iff_exists] using h
    simp only [ht]
    exact hub_answer ..

theorem pushed?_eq_some_iff {text : String} {kind : Stream.Kind} :
    c.pushed? text = some (kind, frame) ↔ Frame.ofText? text = some frame ∧
      c.awaits frame = false ∧ ∃ k, Frame.stream? frame = some k ∧ c.hub.resolve k = kind := by
  rw [pushed?, Option.bind_eq_some_iff]
  constructor
  case mp =>
    intro ⟨_, hf, hp⟩
    rw [Option.ite_none_left_eq_some, Option.map_eq_some_iff] at hp
    obtain ⟨ha, k, hs, hk⟩ := hp
    cases hk
    exact ⟨hf, Bool.eq_false_iff.mpr ha, k, hs, rfl⟩
  case mpr =>
    intro ⟨hf, ha, k, hs, hk⟩
    refine ⟨frame, hf, ?_⟩
    rw [if_neg (Bool.eq_false_iff.mp ha), hs, Option.map_some, hk]

theorem hub_route_of_pushed {text : String} {kind : Stream.Kind}
    (h : c.pushed? text = some (kind, frame)) :
    (c.route text).hub = c.hub.offer kind frame := by
  have ⟨hf, ha, _, hs, hk⟩ := pushed?_eq_some_iff.mp h
  simp only [route, hf, routeFrame_of_not_awaits ha, push, hs, Stream.Hub.deliver, hk]

-- A text that holds no push is dropped at most.
theorem hub_route_of_not_pushed {text : String} (h : c.pushed? text = none) :
    (c.route text).hub = c.hub ∨ (c.route text).hub = c.hub.drop := by
  unfold pushed? at h
  unfold route
  cases hf : Frame.ofText? text
  case none => exact .inl rfl
  case some frame =>
    cases ha : c.awaits frame
    case true => exact .inl (hub_routeFrame_of_awaits ha)
    case false =>
      have hs : Frame.stream? frame = none := by simpa [hf, ha] using h
      simp only [routeFrame_of_not_awaits ha, push, hs, or_true]

theorem hub_shutDown (c : Connection) : ∃ closed, c.shutDown.hub = { c.hub with closed } := by
  have loop (tickets : List Nat) (c : Connection) :
      (tickets.foldl (fun c ticket => c.finish ticket (.failed .closed)) c).hub = c.hub := by
    induction tickets generalizing c
    case nil => rfl
    case cons ticket tickets hi => exact (hi _).trans (c.hub_finish ..)
  unfold shutDown
  split
  case isTrue  => exact ⟨_, rfl⟩
  case isFalse => exact ⟨_, loop ..⟩

end Connection

namespace Link

variable {link : Link} {event : Event}

-- The pushes that arrive during a step, each with the stream that it is for.
def pushes (link : Link) (event : Event) : List (Stream.Kind × Fields) :=
  (link.heard event).filterMap link.connection.pushed?

-- What an event does to the streams, short of ending them.
def hubAfter (link : Link) : Event → Stream.Hub
  | .act (.take kind)         => (link.connection.hub.take kind).2
  | .act (.read kind most)    => (link.connection.hub.read kind most).2
  | .act (.dropConsumer kind) => (link.connection.hub.dropConsumer kind).2
  | .peerSend text            =>
    ((link.heard (.peerSend text)).foldl Connection.route link.connection).hub
  | _                         => link.connection.hub

-- Only texts that arrive are counted.
theorem hubAfter_effect (link : Link) (hn : ∀ text, event ≠ .peerSend text) : ∃ channels,
    link.hubAfter event = { link.connection.hub with channels } := by
  cases event
  case act action =>
    cases action
    case take kind         => exact link.connection.hub.take_effect kind
    case read kind most    => exact link.connection.hub.read_effect kind most
    case dropConsumer kind => exact link.connection.hub.dropConsumer_effect kind
    all_goals exact ⟨_, rfl⟩
  case peerSend text => exact absurd rfl (hn text)
  all_goals exact ⟨_, rfl⟩

theorem hub_callTimes (link : Link) (request : Request) (times : Nat) :
    (link.callTimes request times).connection.hub = link.connection.hub := by
  induction times generalizing link
  case zero => rfl
  case succ times hi =>
    have ⟨_, _, _, _, _, h⟩ := link.connection.call_effect link.tickets link.clock request
    exact (hi _).trans (by rw [call, h])

-- Only a text that arrives is not dealt with at once.
theorem hub_onEvent (link : Link) (hn : ∀ text, event ≠ .peerSend text) :
    ∃ closed, (link.onEvent event).2.connection.hub = { link.hubAfter event with closed } := by
  cases event
  case act action =>
    cases action
    case issue command times => exact ⟨_, link.hub_callTimes _ times⟩
    case issueWithin         => exact ⟨_, link.hub_callTimes _ 1⟩
    case subscribe           => exact ⟨_, link.hub_callTimes _ 1⟩
    case unsubscribe         => exact ⟨_, link.hub_callTimes _ 1⟩
    case take                => exact ⟨_, rfl⟩
    case dropConsumer        => exact ⟨_, rfl⟩
    case close               => exact Connection.hub_shutDown _
    case cancel ticket =>
      have ⟨_, _, _, h⟩ := link.connection.cancel_effect ticket
      have hc := congrArg Connection.hub h
      exact ⟨_, hc⟩
    case advance ms =>
      have ⟨_, _, _, h⟩ := link.connection.expire_effect (link.clock + ms)
      have he := congrArg Connection.hub h
      exact ⟨_, he⟩
    case read kind most =>
      simp only [Link.onEvent, act]
      split
      case isTrue => exact ⟨_, rfl⟩
      case isFalse h =>
        have hr := Stream.Hub.read_of_not_live (Bool.eq_false_iff.mpr h) most
        exact ⟨_, congrArg Prod.snd hr.symm⟩
  case peerSend text => exact absurd rfl (hn text)
  case peerClose =>
    rw [Link.onEvent]
    split <;> exact ⟨_, rfl⟩
  all_goals exact ⟨_, rfl⟩

-- The loops end the streams at most.
theorem Settled.hub_step (h : link.Settled) (event : Event) :
    ∃ closed, (link.step event).2.connection.hub = { link.hubAfter event with closed } := by
  suffices hs : ∃ closed,
      (link.onEvent event).2.settle.connection.hub = { link.hubAfter event with closed } from hs
  rcases event.arrives with hn | ⟨text, rfl⟩
  case inl =>
    apply h.settle_keeps hn (P := fun c => ∃ closed, c.hub = { link.hubAfter event with closed })
    case hp => exact link.hub_onEvent hn
    case k =>
      constructor
      case fail =>
        intro c id error _ ⟨closed, hc⟩
        have ⟨_, _, _, hf⟩ := c.failRequest_effect id error
        exact ⟨closed, (congrArg Connection.hub hf).trans hc⟩
      case close =>
        intro c ⟨_, hc⟩
        have ⟨closed, hs⟩ := c.hub_shutDown
        exact ⟨closed, hs.trans (by rw [hc])⟩
  case inr =>
    exact ⟨_, congrArg Connection.hub <| h.settle_peerSend_connection text⟩

-- What everything that can happen to the streams keeps.
structure StreamsKeep (P : Stream.Hub → Prop) : Prop where
  take         : ∀ hub kind, P hub → P (hub.take kind).2
  read         : ∀ hub kind most, P hub → P (hub.read kind most).2
  dropConsumer : ∀ hub kind, P hub → P (hub.dropConsumer kind).2
  offer        : ∀ hub kind push, P hub → P (hub.offer kind push)
  drop         : ∀ hub, P hub → P hub.drop
  ended        : ∀ hub closed, P hub → P { hub with closed }

namespace StreamsKeep

variable {P : Stream.Hub → Prop}

theorem route (k : StreamsKeep P) {c : Connection} (h : P c.hub) (text : String) :
    P (c.route text).hub := by
  cases hp : c.pushed? text
  case none =>
    cases Connection.hub_route_of_not_pushed hp
    case inl hr => exact hr ▸ h
    case inr hr => exact hr ▸ k.drop _ h
  case some pushed => exact Connection.hub_route_of_pushed hp ▸ k.offer _ pushed.1 pushed.2 h

theorem hubAfter (k : StreamsKeep P) (h : P link.connection.hub) (event : Event) :
    P (link.hubAfter event) := by
  cases event
  case act action =>
    cases action
    case take kind         => exact k.take _ kind h
    case read kind most    => exact k.read _ kind most h
    case dropConsumer kind => exact k.dropConsumer _ kind h
    all_goals exact h
  case peerSend text => exact foldl_route_keeps (P := (P ·.hub)) (fun _ text h => k.route h text) _ h
  all_goals exact h

theorem step (k : StreamsKeep P) (h : link.Settled) (hp : P link.connection.hub) (event : Event) :
    P (link.step event).2.connection.hub := by
  have ⟨closed, hs⟩ := h.hub_step event
  exact hs ▸ k.ended _ closed (k.hubAfter hp event)

theorem run (k : StreamsKeep P) (h : link.Settled) (hp : P link.connection.hub)
    (events : List Event) : P (link.after events).connection.hub := by
  induction events generalizing link
  case nil => exact hp
  case cons event events hi => exact hi (h.step event) (k.step h hp event)

end StreamsKeep

end Link
end LedgerWire
