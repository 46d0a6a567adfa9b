import LedgerWire.Proofs.Link.Late
import LedgerWire.Proofs.Link.Overdue

namespace LedgerWire.Link

variable {link : Link} {faults : List LinkError} {log : List Call}
variable {shown : List (Nat × Outcome LinkError)}

-- How long an event takes.
def Event.elapsed : Event → Nat
  | .act (.advance ms) => ms
  | _                  => 0

theorem clock_callTimes (link : Link) (request : Request) (times : Nat) :
    (link.callTimes request times).clock = link.clock := by
  induction times generalizing link
  case zero          => rfl
  case succ times hi => exact hi (link.call request)

theorem clock_onEvent (link : Link) (event : Event) :
    (link.onEvent event).2.clock = link.clock + event.elapsed := by
  have he := link.onEvent_effect event
  cases event
  case act action =>
    cases action
    case issue command times => exact clock_callTimes ..
    case read kind most =>
      simp only [onEvent, act]
      split <;> rfl
    all_goals rfl
  all_goals
    obtain ⟨_, _, he⟩ := he (by simp)
    rw [he]
    rfl

theorem clock_step (link : Link) (event : Event) :
    (link.step event).2.clock = link.clock + event.elapsed :=
  (settle_clock _).trans (link.clock_onEvent event)

-- A call starts when it is made.
theorem start_of_mem_dispatched {requests : List Request} {call : Call}
    (mem : call ∈ link.dispatched requests) : call.start = link.clock := by
  induction requests generalizing link
  case nil => cases mem
  case cons request requests hi =>
    cases List.mem_append.mp mem
    case inr mem => exact @hi (link.call request) mem
    case inl mem =>
      rw [Connection.dispatch?] at mem
      split at mem
      case h_1 => rw [List.mem_singleton.mp mem]
      case h_2 => cases mem

-- Writing only uses them up, and nothing else that the loops do touches those of the sends.
theorem sends_settle (link : Link) : link.settle.faults.sends ⊆ link.faults.sends := by
  have k : WritesKeep (fun _ => True) link.faults.sends :=
    ⟨fun _ _ _ _ _ => trivial, fun _ _ => trivial⟩
  have hw := (@WritesKeep.foldl { link with connection := link.connection.flushed } _ _ k
    link.connection.outbound trivial (List.Subset.refl _)).right
  have ⟨_, hs⟩ := link.settle_faults
  rw [hs]
  exact hw

theorem sends_onEvent {event : Event} {error : LinkError}
    (mem : error ∈ (link.onEvent event).2.faults.sends) :
    error ∈ link.faults.sends ∨ event = .failSend error := by
  cases event
  case act action =>
    have ⟨_, _, _, h⟩ := link.act_effect action
    rw [onEvent, h] at mem
    exact .inl mem
  case peerSend text =>
    rw [onEvent] at mem
    split at mem
    case isFalse => exact .inl mem
    case isTrue  => split at mem <;> exact .inl mem
  case peerClose =>
    rw [onEvent] at mem
    split at mem <;> exact .inl mem
  case failSend fault =>
    cases List.mem_append.mp mem
    case inl mem => exact .inl mem
    case inr mem => exact .inr <| congrArg _ (List.mem_singleton.mp mem).symm
  all_goals exact .inl mem

-- What is in store for a send was put there.
theorem failSend_mem {error : LinkError} {events : List Event}
    (mem : error ∈ (link.after events).faults.sends) :
    error ∈ link.faults.sends ∨ .failSend error ∈ events := by
  induction events generalizing link
  case nil => exact .inl mem
  case cons event events hi =>
    cases @hi (link.step event).2 mem
    case inr mem => exact .inr (.tail _ mem)
    case inl mem =>
      refine (sends_onEvent <| sends_settle _ mem).imp_right fun h => ?_
      exact h ▸ .head _

theorem Settled.finished_failSend (h : link.Settled) (error : LinkError) :
    (link.step (.failSend error)).1.finished = [] := by
  have hs : (link.onEvent (.failSend error)).2.Settled := { h with }
  have hf : (link.onEvent (.failSend error)).2.settle.connection.finished = [] := by
    rw [settle, release_connection, hs.read_write, hs.finished]
  simp only [Link.step, work, harvest, hf, List.mergeSort_nil]

def Timed (faults : List LinkError) (link : Link) (log : List Call)
    (shown : List (Nat × Outcome LinkError)) : Prop :=
  link.connection.Timed faults link.clock link.tickets log shown

namespace Timed

theorem start (config : LinkConfig) : (start config).Timed faults [] [] where
  accounts := Accounts.start config
  due      := nofun
  punctual := nofun

-- With nothing waiting to be shown it does not matter what the wire has in store.
theorem of_finished (h : link.Timed faults log shown) (hf : link.connection.finished = [])
    (faults' : List LinkError) : link.Timed faults' log shown where
  accounts := h.accounts
  due      := by simp [Connection.Due, hf]
  punctual := h.punctual

theorem callTimes (h : link.Timed faults log shown) (request : Request) (times : Nat) :
    (link.callTimes request times).Timed faults
      (log ++ link.dispatched (.replicate times request)) shown := by
  induction times generalizing link log
  case zero => simpa [Link.callTimes, dispatched] using h
  case succ times hi =>
    have hc : (link.call request).Timed faults _ shown := Connection.Timed.call h request
    simpa [Link.callTimes, List.replicate_succ, dispatched] using hi hc

theorem onEvent (h : link.Timed faults log shown) (hf : link.connection.finished = [])
    (event : Event) : (link.onEvent event).2.Timed faults
      (log ++ link.dispatched (link.requests event)) shown := by
  by_cases hr : link.requests event = []
  case neg =>
    obtain ⟨request, times, hr, he⟩ := onEvent_of_requests hr
    rw [he, hr]
    exact h.callTimes request times
  case pos =>
    rw [hr, dispatched, List.append_nil]
    have of_hub (hub : Stream.Hub) (hh : hub.closed = link.connection.hub.closed) :
        Timed faults { link with connection := { link.connection with hub } } log shown :=
      Connection.Timed.congr h (h.accounts.of_hub hh) rfl
    have he := link.onEvent_effect event
    cases event
    case act action =>
      cases action
      case cancel ticket => exact Connection.Timed.cancel h ticket
      case advance ms    => exact .expire h.accounts hf _
      case close         =>
        exact Connection.Timed.shutDown <|
          Connection.Timed.congr h (h.accounts.of_outbound (_ ++ [.close])) rfl
      case take kind         => exact of_hub _ (link.connection.hub.closed_take kind)
      case dropConsumer kind => exact of_hub _ (link.connection.hub.closed_dropConsumer kind)
      case read kind most    =>
        simp only [Link.onEvent, act]
        split
        case isTrue  => exact of_hub _ (link.connection.hub.closed_read kind most)
        case isFalse => exact h
      case issue command times =>
        cases (List.replicate_eq_nil_iff _).mp hr
        exact h
      all_goals contradiction
    all_goals
      obtain ⟨_, _, he⟩ := he (by simp)
      exact he ▸ h

theorem settle (h : link.Timed link.faults.sends log shown) :
    link.settle.Timed link.faults.sends log shown := by
  rw [Timed, settle_clock, settle_tickets]
  refine settle_keeps (P := fun c =>
    c.Timed link.faults.sends link.clock link.tickets log shown) ⟨?_, ?_⟩ ?_ ?_
  · exact fun c id error he hc => hc.failRequest id he
  · exact fun c hc => hc.shutDown
  · exact fun c text hc => hc.route text
  · exact Connection.Timed.congr h (h.accounts.of_outbound []) rfl

-- Once the outcomes are shown, no call is left whose time is up.
theorem harvest (h : link.Timed faults log shown) :
    link.harvest.2.Timed faults log (shown ++ link.harvest.1) where
  accounts := Accounts.harvest h.accounts
  due      := nofun
  punctual := by
    intro call mem limit ho
    rw [mem_underWay, List.map_append, List.mem_append, not_or] at mem
    have hf := h.punctual call (mem_underWay.mpr ⟨mem.left, mem.right.left⟩) limit ho
    exact absurd (List.mem_map_of_mem <| List.mem_mergeSort.mpr hf) mem.right.right

theorem worked (h : link.Timed faults log shown) (hf : link.connection.finished = [])
    (event : Event) :
    (link.onEvent event).2.settle.Timed (link.onEvent event).2.faults.sends
      (log ++ link.dispatched (link.requests event)) shown :=
  ((h.of_finished hf _).onEvent hf event).settle

theorem step (h : link.Timed faults log shown) (hf : link.connection.finished = [])
    (event : Event) : (link.step event).2.Timed faults
      (log ++ link.dispatched (link.requests event)) (shown ++ (link.step event).1.finished) :=
  have hw : (link.step event).2.Timed _ _ _ := (h.worked hf event).harvest
  hw.of_finished rfl faults

theorem run (h : link.Timed faults log shown) (hf : link.connection.finished = [])
    (events : List Event) : (link.after events).Timed faults (log ++ link.history events)
      (shown ++ link.endings events) := by
  induction events generalizing link log shown
  case nil => simpa [after, Link.run, history, endings] using h
  case cons event events hi =>
    have := hi (h.step hf event) rfl
    simpa [after, Link.run, history, endings] using this

end Timed

section

variable {event : Event} {limit : Duration}

-- The loops do not move the clock.
theorem Timed.timedOut_of_overdue (h : link.Timed faults log shown)
    (hf : link.connection.finished = []) {call : Call}
    (mem : call ∈ underWay (log ++ link.dispatched (link.requests event)) shown)
    (hl : limit ∈ call.limit) (ht : call.start + limit.ticks ≤ (link.step event).2.clock) :
    (call.ticket, .failed (.timeout limit)) ∈ (link.step event).1.finished :=
  mem_step_finished.mpr <| (h.worked hf event).punctual call mem limit <|
    Call.overdue?_eq_some_iff.mpr ⟨hl, ht⟩

theorem Timed.overdue_of_timedOut (h : link.Timed faults log shown) (hs : link.Settled)
    {ticket : Nat} (mem : (ticket, .failed (.timeout limit)) ∈ (link.step event).1.finished) :
    .timeout limit ∈ link.faults.sends ∨
      ∃ call ∈ underWay (log ++ link.dispatched (link.requests event)) shown,
        call.ticket = ticket ∧ call.limit = some limit ∧
          call.start + limit.ticks ≤ (link.step event).2.clock := by
  cases (h.worked hs.finished event).due ticket limit (mem_step_finished.mp mem)
  case inl hm =>
    refine (sends_onEvent hm).imp_right fun he => ?_
    rw [he, hs.finished_failSend] at mem
    cases mem
  case inr hc =>
    have ⟨call, hm, ht, ho⟩ := hc
    exact .inr ⟨call, hm, ht, Call.overdue?_eq_some_iff.mp ho⟩

theorem Timed.lt_deadline (h : link.Timed faults log shown) (hf : link.connection.finished = [])
    {call : Call} (mem : call ∈ underWay log shown) (hl : limit ∈ call.limit) :
    link.clock < call.start + limit.ticks := by
  by_contra hn
  have hm := h.punctual call mem limit <|
    Call.overdue?_eq_some_iff.mpr ⟨hl, Nat.le_of_not_lt hn⟩
  rw [hf] at hm
  cases hm

end

-- The requests in flight are those that nothing has ended yet, and the time of none of them is up. A
-- step ends every request with a timeout whose time is up by then, and no other, unless an error of
-- a send was made to look so. A frame that comes for a request that has ended, by its timeout, its
-- cancellation or else, has no part in what becomes of any request.
theorem timeouts_are_punctual (config : LinkConfig) (events : List Event) :
    let link  := (start config).after events
    let log   := (start config).history events
    let ended := (start config).endings events
    link.connection.pending = .ofCalls (underWay log ended) ∧
    (∀ call ∈ underWay log ended, ∀ limit ∈ call.limit, link.clock < call.start + limit.ticks) ∧
    (∀ event,
      let clock    := (link.step event).2.clock
      let made     := link.dispatched (link.requests event)
      let calls    := underWay (log ++ made) ended
      let finished := (link.step event).1.finished
      clock = link.clock + event.elapsed ∧ (∀ call ∈ made, call.start = link.clock) ∧
      ((ended ++ finished).map (·.1)).Nodup ∧
      (∀ call ∈ calls, ∀ limit ∈ call.limit, call.start + limit.ticks ≤ clock →
        (call.ticket, .failed (.timeout limit)) ∈ finished) ∧
      ∀ ticket limit, (ticket, .failed (.timeout limit)) ∈ finished →
        .failSend (.timeout limit) ∈ events ∨ ∃ call ∈ calls, call.ticket = ticket ∧
          call.limit = some limit ∧ call.start + limit.ticks ≤ clock) ∧
    ∀ call ∈ log, call.ticket ∈ ended.map (·.1) → ∀ text,
      (Frame.carrying? call.id text).isSome → link.Inert text := by
  intro link log ended
  have hs : link.Settled := (Settled.start config).run events
  have hr : link.Rested := (Rested.start config).run events
  have ht : link.Timed [] log ended := (Timed.start config).run rfl events
  have hn : link.Numbered config.firstId.toNat log := (Numbered.start config).run events
  refine ⟨?_, fun call mem limit hl => ht.lt_deadline hs.finished mem hl, fun event => ?_, ?_⟩
  case refine_1 =>
    rw [ht.accounts.coherent.pending]
    exact congrArg _ (calls_eq_underWay config events)
  case refine_2 =>
    refine ⟨link.clock_step event, fun call => start_of_mem_dispatched, ?_,
      fun call mem limit hl hc => ht.timedOut_of_overdue hs.finished mem hl hc,
      fun ticket limit mem => ?_⟩
    case refine_1 =>
      have hn := (Accounts.step ht.accounts event).nodup_ended
      rwa [(hs.step event).finished, List.append_nil] at hn
    case refine_2 =>
      refine (ht.overdue_of_timedOut hs mem).imp_left fun hm => ?_
      exact (failSend_mem hm).resolve_left nofun
  case refine_3 =>
    intro call mem he text hf
    refine hr.inert <| hn.not_awaits ht.accounts mem ?_ hf
    rwa [hs.finished, List.append_nil]

end LedgerWire.Link
