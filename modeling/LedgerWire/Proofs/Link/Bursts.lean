import LedgerWire.Proofs.Link.Closure
import LedgerWire.Proofs.Link.Numbering

namespace LedgerWire

namespace Outbound

-- The id of the request that an item is for.
def id? : Outbound → Option Nat
  | frame id _ => some id
  | close      => none

-- The frame of a call, which is its command under its id.
def ofCall (p : Call × Fields) : Outbound :=
  .frame p.1.id (p.2.insert Frame.idField (.int p.1.id)).text

end Outbound

namespace Link

variable {link : Link} {event : Event} {events : List Event}

-- What the turns bring, one after the other.
def overall {α : Type} (brings : Link → List Event → List α) (link : Link) :
    List (List Event) → List α
  | []               => []
  | events :: bursts => brings link events ++ (link.turn events).2.2.overall brings bursts

-- The calls that requests set out as, each with the command that it was made for.
def dispatches (link : Link) : List Request → List (Call × Fields)
  | [] => []
  | request :: requests =>
    (link.connection.dispatch? link.tickets link.clock request).toList.map (·, request.command) ++
      (link.call request).dispatches requests

-- The items that an event queues.
def queues (link : Link) : Event → List Outbound
  | .act .close => [.close]
  | event       => (link.dispatches (link.requests event)).map .ofCall

-- The items that a burst queues.
def queued (link : Link) : List Event → List Outbound
  | []              => []
  | event :: events => link.queues event ++ (link.onEvent event).2.queued events

-- The calls that a burst dispatches.
def made (link : Link) : List Event → List Call
  | []              => []
  | event :: events =>
    link.dispatched (link.requests event) ++ (link.onEvent event).2.made events

theorem map_fst_dispatches (link : Link) (requests : List Request) :
    (link.dispatches requests).map (·.1) = link.dispatched requests := by
  induction requests generalizing link
  case nil => rfl
  case cons request requests hi => simp [dispatches, dispatched, hi, Function.comp_def]

theorem queues_of_ne (he : event ≠ .act .close) :
    link.queues event = (link.dispatches (link.requests event)).map .ofCall := by
  unfold queues
  split
  case h_1 => contradiction
  case h_2 => rfl

theorem ids_queues (link : Link) (event : Event) :
    (link.queues event).filterMap Outbound.id? =
      (link.dispatched (link.requests event)).map (·.id) := by
  by_cases he : event = .act .close
  case pos => subst he; rfl
  case neg =>
    rw [queues_of_ne he, ← map_fst_dispatches, List.filterMap_map, List.map_map]
    exact congrFun List.filterMap_eq_map _

theorem ids_queued (link : Link) (events : List Event) :
    (link.queued events).filterMap Outbound.id? = (link.made events).map (·.id) := by
  induction events generalizing link
  case nil => rfl
  case cons event events hi =>
    rw [queued, List.filterMap_append, ids_queues, hi, made, List.map_append]

theorem outbound_call (link : Link) (request : Request) :
    (link.call request).connection.outbound =
      link.connection.outbound ++ (link.dispatches [request]).map .ofCall := by
  simp only [call, Connection.call, dispatches, Connection.dispatch?]
  cases ha : link.connection.allocate?
  case ok id =>
    obtain ⟨_, _, _, he⟩ :=
      (link.connection.dispatch id link.tickets link.clock request).expire_effect link.clock
    exact congrArg Connection.outbound he
  case error => simp

theorem outbound_callTimes (link : Link) (request : Request) (times : Nat) :
    (link.callTimes request times).connection.outbound =
      link.connection.outbound ++ (link.dispatches (.replicate times request)).map .ofCall := by
  induction times generalizing link
  case zero => simp [callTimes, dispatches]
  case succ times hi =>
    rw [callTimes, hi, outbound_call, List.replicate_succ, List.append_assoc, ← List.map_append]
    simp [dispatches]

-- The queue only grows. Nothing that ends a call takes its frame back.
theorem outbound_onEvent (link : Link) (event : Event) :
    (link.onEvent event).2.connection.outbound = link.connection.outbound ++ link.queues event := by
  by_cases he : event = .act .close
  case pos =>
    subst he
    obtain ⟨_, _, _, _, h⟩ := Connection.shutDown_effect
      { link.connection with outbound := link.connection.outbound ++ [.close] }
    simp only [onEvent, act, Connection.close, h]
    rfl
  case neg =>
    rw [queues_of_ne he]
    by_cases hn : link.requests event = []
    case pos =>
      obtain ⟨_, _, _, _, h⟩ := onEvent_of_no_request hn he
      simp [h, hn, dispatches]
    case neg =>
      obtain ⟨_, _, hr, h⟩ := onEvent_of_requests hn
      rw [h, hr, outbound_callTimes]

theorem outbound_burst (link : Link) (events : List Event) :
    (link.burst events).connection.outbound = link.connection.outbound ++ link.queued events := by
  induction events generalizing link
  case nil => simp [burst, queued]
  case cons event events hi => rw [burst, hi, outbound_onEvent, queued, List.append_assoc]

theorem dispatches_of_closed (h : link.connection.closed) (requests : List Request) :
    link.dispatches requests = [] := by
  induction requests generalizing link
  case nil => rfl
  case cons request requests hi =>
    have hn : link.connection.dispatch? link.tickets link.clock request = none := by
      simp [Connection.dispatch?, Connection.allocate?, h]
    have hc : (link.call request).connection.closed := (closed_callTimes link request 1).trans h
    rw [dispatches, hn, hi hc]
    rfl

theorem closed_burst (h : link.connection.closed) (events : List Event) :
    (link.burst events).connection.closed := by
  induction events generalizing link
  case nil => exact h
  case cons event events hi => exact hi <| closed_onEvent h event

theorem closed_settle (h : link.connection.closed) : link.settle.connection.closed := by
  rw [settle, release_connection]
  exact closed_read_of_closed <| (write_drained fun (_ : True) => h).right trivial

theorem closed_turn (h : (link.burst events).connection.closed) :
    (link.turn events).2.2.connection.closed :=
  closed_settle h

theorem eq_close_of_queues (h : link.connection.closed) {item : Outbound}
    (mem : item ∈ link.queues event) : item = .close := by
  by_cases he : event = .act .close
  case pos => subst he; exact List.mem_singleton.mp mem
  case neg => simp [queues_of_ne he, dispatches_of_closed h] at mem

theorem eq_close_of_queued (h : link.connection.closed) {item : Outbound}
    (mem : item ∈ link.queued events) : item = .close := by
  induction events generalizing link
  case nil => cases mem
  case cons event events hi =>
    cases List.mem_append.mp mem
    case inl mem => exact eq_close_of_queues h mem
    case inr mem => exact hi (closed_onEvent h event) mem

theorem closed_of_close_mem_queues (h : .close ∈ link.queues event) :
    (link.onEvent event).2.connection.closed := by
  by_cases he : event = .act .close
  case pos => subst he; exact Connection.closed_shutDown _
  case neg => simp [queues_of_ne he, Outbound.ofCall] at h

theorem closed_of_close_mem_queued (h : .close ∈ link.queued events) :
    (link.burst events).connection.closed := by
  induction events generalizing link
  case nil => cases h
  case cons event events hi =>
    cases List.mem_append.mp h
    case inl h => exact closed_burst (closed_of_close_mem_queues h) events
    case inr h => exact hi h

-- An event queues frames, or one close.
theorem pairwise_queues (link : Link) (event : Event) :
    (link.queues event).Pairwise fun a b => a = .close → b = .close := by
  by_cases he : event = .act .close
  case pos => subst he; exact List.pairwise_singleton ..
  case neg =>
    rw [queues_of_ne he]
    exact List.pairwise_map.mpr <| List.pairwise_of_forall fun _ _ h => nomatch h

theorem pairwise_queued (link : Link) (events : List Event) :
    (link.queued events).Pairwise fun a b => a = .close → b = .close := by
  induction events generalizing link
  case nil => exact .nil
  case cons event events hi =>
    refine List.pairwise_append.mpr ⟨link.pairwise_queues event, hi _, ?_⟩
    rintro a ha b hb rfl
    exact eq_close_of_queued (closed_of_close_mem_queues ha) hb

theorem eq_close_of_overall_queued (h : link.connection.closed) {bursts : List (List Event)}
    {item : Outbound} (mem : item ∈ link.overall queued bursts) : item = .close := by
  induction bursts generalizing link
  case nil => cases mem
  case cons events bursts hi =>
    cases List.mem_append.mp mem
    case inl mem => exact eq_close_of_queued h mem
    case inr mem => exact hi (closed_turn <| closed_burst h events) mem

theorem pairwise_overall_queued (link : Link) (bursts : List (List Event)) :
    (link.overall queued bursts).Pairwise fun a b => a = .close → b = .close := by
  induction bursts generalizing link
  case nil => exact .nil
  case cons events bursts hi =>
    refine List.pairwise_append.mpr ⟨link.pairwise_queued events, hi _, ?_⟩
    rintro a ha b hb rfl
    exact eq_close_of_overall_queued (closed_turn <| closed_of_close_mem_queued ha) hb

-- What each event keeps, with the calls that it dispatches, a burst keeps with all of them.
theorem EventsKeep.burst {P : Connection → Nat → List Call → Prop} (k : EventsKeep P)
    {log : List Call} (h : P link.connection link.tickets log) (events : List Event) :
    P (link.burst events).connection (link.burst events).tickets (log ++ link.made events) := by
  induction events generalizing link log
  case nil => simpa [Link.burst, made] using h
  case cons event events hi =>
    have := hi <| k.onEvent log h event
    simpa [Link.burst, made] using this

theorem Numbered.burst {first : Nat} {log : List Call} (h : link.Numbered first log)
    (events : List Event) : (link.burst events).Numbered first (log ++ link.made events) :=
  (eventsKeep first).burst h events

theorem Numbered.turn {first : Nat} {log : List Call} (h : link.Numbered first log)
    (events : List Event) : (link.turn events).2.2.Numbered first (log ++ link.made events) := by
  have hs := (h.burst events).settle
  exact hs.congr rfl

theorem Numbered.overall {first : Nat} {log : List Call} (h : link.Numbered first log)
    (bursts : List (List Event)) : ∃ calls, (link.turns bursts).Numbered first (log ++ calls) ∧
      (link.overall queued bursts).filterMap Outbound.id? = calls.map (·.id) := by
  induction bursts generalizing link log
  case nil => exact ⟨[], (List.append_nil log).symm ▸ h, rfl⟩
  case cons events bursts hi =>
    have ⟨more, hm, hr⟩ := hi (h.turn events)
    refine ⟨link.made events ++ more, List.append_assoc .. ▸ hm, ?_⟩
    rw [Link.overall, List.filterMap_append, ids_queued, hr, List.map_append]

-- The ids of the frames that a run queues are those of its calls, which follow each other.
theorem ids_overall_queued (config : LinkConfig) (bursts : List (List Event)) :
    let ids := ((start config).overall queued bursts).filterMap Outbound.id?
    ids = List.range' config.firstId.toNat ids.length := by
  have ⟨calls, hc, hq⟩ := (Numbered.start config).overall bursts
  have hi := hc.ids
  simp only [List.nil_append] at hi
  simp only [hq, hi, List.length_range']

end Link
end LedgerWire
