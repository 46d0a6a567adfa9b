import LedgerWire.Proofs.Link.Closed
import LedgerWire.Proofs.Link.Losses

namespace LedgerWire

-- The outcomes of calls that did not wait any longer.
inductive Outcome.GivenUp : Outcome LinkError → Prop
  | cancelled : GivenUp .cancelled
  | timeout (limit : Duration) : GivenUp (.failed (.timeout limit))

namespace Link

variable {link : Link} {events : List Event}

-- Whether an event is up to the near end and does not close the link.
def Event.own : Event → Bool
  | .act .close  => false
  | .peerSend _  => false
  | .peerClose   => false
  | .peerDrop    => false
  | _            => true

-- What a burst of such events leaves as it was.
structure Kept (link link' : Link) : Prop where
  closed : link'.connection.closed = link.connection.closed
  inbox  : link'.duplex.near.inbox = link.duplex.near.inbox
  peer   : link'.duplex.far.standing = link.duplex.far.standing

theorem Kept.burst (own : ∀ event ∈ events, event.own) : Kept link (link.burst events) := by
  induction events generalizing link
  case nil => exact ⟨rfl, rfl, rfl⟩
  case cons event events hi =>
    have ⟨ho, own⟩ := List.forall_mem_cons.mp own
    have h := @hi (link.onEvent event).2 own
    constructor
    case closed => exact h.closed.trans <| closed_onEvent_of_ne (by rintro rfl; cases ho)
    case inbox  =>
      exact h.inbox.trans <| (Nearby.onEvent link event).inbox (by rintro text rfl; cases ho)
    case peer   =>
      exact h.peer.trans <| onEvent_far_standing (by rintro rfl; cases ho) (by rintro rfl; cases ho)

theorem close_not_mem_queued (own : ∀ event ∈ events, event.own) : .close ∉ link.queued events := by
  induction events generalizing link
  case nil => exact nofun
  case cons event events hi =>
    have ⟨ho, own⟩ := List.forall_mem_cons.mp own
    have he : event ≠ .act .close := by rintro rfl; cases ho
    rw [queued, queues_of_ne he, List.mem_append, not_or]
    exact ⟨by simp [Outbound.ofCall], hi own⟩

theorem queued_of_closed (own : ∀ event ∈ events, event.own) (h : link.connection.closed) :
    link.queued events = [] := by
  refine List.eq_nil_iff_forall_not_mem.mpr fun item mem => ?_
  exact close_not_mem_queued own <| eq_close_of_queued h mem ▸ mem

theorem open_of_made (own : ∀ event ∈ events, event.own) {call : Call}
    (mem : call ∈ link.made events) : (link.burst events).connection.closed = false := by
  have hk : Kept link (link.burst events) := .burst own
  refine Bool.eq_false_iff.mpr fun hc => ?_
  have hq := link.ids_queued events
  rw [queued_of_closed own (hk.closed.symm.trans hc)] at hq
  cases List.map_eq_nil_iff.mp hq.symm ▸ mem

theorem le_ticket_of_mem_made {call : Call} (mem : call ∈ link.made events) :
    link.tickets ≤ call.ticket := by
  have k : EventsKeep fun _ tickets log =>
      link.tickets ≤ tickets ∧ ∀ call ∈ log, link.tickets ≤ call.ticket := by
    constructor
    case call =>
      intro c tickets log now request h
      refine ⟨Nat.le_succ_of_le h.left, fun call mem => ?_⟩
      cases List.mem_append.mp mem
      case inl mem => exact h.right call mem
      case inr mem =>
        rw [Connection.dispatch?] at mem
        split at mem
        case h_1 => exact List.mem_singleton.mp mem ▸ h.left
        case h_2 => cases mem
    all_goals intros; assumption
  have h : link.tickets ≤ link.tickets ∧ ∀ call ∈ ([] : List Call), link.tickets ≤ call.ticket :=
    ⟨Nat.le_refl _, by simp⟩
  exact (k.burst h events).right call mem

end Link

namespace Connection

variable {c : Connection} {tickets : Nat} {log : List Call} {shown : List (Nat × Outcome LinkError)}

-- As long as the connection is open, the calls whose outcomes wait to be shown have given up.
structure Impatient (c : Connection) (tickets : Nat) (log : List Call)
    (shown : List (Nat × Outcome LinkError)) : Prop where
  accounts : c.Accounts tickets log shown
  finished : c.closed = false → ∀ call ∈ log, ∀ outcome,
    (call.ticket, outcome) ∈ c.finished → outcome.GivenUp

namespace Impatient

theorem retire (h : c.Impatient tickets log shown) {verdict : Call → Option (Outcome LinkError)}
    (hv : ∀ call outcome, verdict call = some outcome → outcome.GivenUp) :
    (c.retire verdict).Impatient tickets log shown where
  accounts := h.accounts.retire
  finished := by
    intro closed call hc outcome mem
    obtain mem | ⟨other, _, given, ho, he⟩ := mem_finished_retire.mp mem
    case inl => exact h.finished closed call hc outcome mem
    case inr => exact (Prod.mk.inj he).right ▸ hv other given ho

theorem expire (h : c.Impatient tickets log shown) (now : Nat) :
    (c.expire now).Impatient tickets log shown := by
  rw [expire_eq h.accounts.coherent]
  refine h.retire fun call outcome ho => ?_
  have ⟨limit, _, hl⟩ := Option.map_eq_some_iff.mp ho
  exact hl ▸ .timeout limit

theorem cancel (h : c.Impatient tickets log shown) (ticket : Nat) :
    (c.cancel ticket).2.Impatient tickets log shown := by
  rw [cancel_eq h.accounts.coherent]
  refine h.retire fun call outcome ho => ?_
  split at ho <;> cases ho
  exact .cancelled

-- No outcome that waits has the ticket that comes next, so the new call has none.
theorem call (h : c.Impatient tickets log shown) (now : Nat) (request : Request) :
    (c.call tickets now request).Impatient (tickets + 1)
      (log ++ (c.dispatch? tickets now request).toList) shown := by
  rw [Connection.call]
  cases ha : c.allocate?
  case ok id =>
    have hd : (c.dispatch id tickets now request).Impatient (tickets + 1)
        (log ++ [⟨tickets, id, request.purpose, request.limit, now⟩]) shown := by
      refine ⟨h.accounts.dispatch ha, fun closed call hc outcome mem => ?_⟩
      cases List.mem_append.mp hc
      case inl hc => exact h.finished closed call hc outcome mem
      case inr hc =>
        cases List.mem_singleton.mp hc
        exact absurd (List.mem_map_of_mem <| List.mem_append_right _ mem) h.accounts.not_ended
    simpa [dispatch?, ha] using hd.expire now
  case error error =>
    simp only [dispatch?, ha, Option.toList_none, List.append_nil]
    refine ⟨h.accounts.refuse (.failed error), fun closed call hc outcome mem => ?_⟩
    cases List.mem_append.mp mem
    case inl mem => exact h.finished closed call hc outcome mem
    case inr mem =>
      cases List.mem_singleton.mp mem
      exact absurd (h.accounts.ticket_lt hc) (Nat.lt_irrefl _)

theorem eventsKeep (shown : List (Nat × Outcome LinkError)) :
    Link.EventsKeep (fun c tickets log => c.Impatient tickets log shown) where
  call _ _ _ now request h := h.call now request
  expire _ _ _ now h       := h.expire now
  cancel _ _ _ ticket h    := h.cancel ticket
  hub _ _ _ _ hh h         := ⟨h.accounts.of_hub hh, h.finished⟩
  close _ _ _ h            := ⟨h.accounts.close, fun closed =>
    absurd (closed_shutDown _) (Bool.eq_false_iff.mp closed)⟩

end Impatient
end Connection

namespace Link

variable {link : Link} {config : LinkConfig} {log : List Call} {events : List Event}
variable {shown : List (Nat × Outcome LinkError)}

open Connection (spoiled spoiled_eq_none spared outcomes failAll_eq)

namespace Ready

-- A call of the burst is still under way at its end, or has given up in it.
theorem made_cases (h : link.Ready config log shown)
    (ho : (link.burst events).connection.closed = false) {call : Call}
    (mem : call ∈ link.made events) :
    call ∈ (link.burst events).connection.calls ∨
      ∃ outcome, outcome.GivenUp ∧ (call.ticket, outcome) ∈ (link.burst events).connection.finished := by
  have hi : link.connection.Impatient link.tickets log shown :=
    ⟨h.accounts, by simp [h.finished]⟩
  have hb := (Connection.Impatient.eventsKeep shown).burst hi events
  have hm : call ∈ log ++ link.made events := List.mem_append_right _ mem
  rw [hb.accounts.calls, mem_underWay, List.map_append]
  by_cases hf : call.ticket ∈ (link.burst events).connection.finished.map (·.1)
  case pos =>
    have ⟨⟨_, outcome⟩, hp, ht⟩ := List.mem_map.mp hf
    cases ht
    exact .inr ⟨outcome, hb.finished ho call hm outcome hp, hp⟩
  case neg =>
    refine .inl ⟨hm, fun hs => (List.mem_append.mp hs).elim (fun hs => ?_) hf⟩
    have hr := h.accounts.tickets.mem_iff.mp <| List.mem_append_left _ <|
      List.map_append ▸ List.mem_append_left _ hs
    exact absurd (le_ticket_of_mem_made mem) (Nat.not_le_of_lt <| List.mem_range.mp hr)

theorem queue_burst (h : link.Ready config log shown) (events : List Event) :
    (link.burst events).connection.outbound = link.queued events := by
  rw [outbound_burst, h.outbound, List.nil_append]

theorem accounts_burst (h : link.Ready config log shown) (events : List Event) :
    (link.burst events).Accounts (log ++ link.made events) shown :=
  (Accounts.eventsKeep shown).burst h.accounts events

-- Whatever errors are in store, the loops do no more than fail the requests of the lost frames.
theorem settle_burst (h : link.Ready config log shown) (own : ∀ event ∈ events, event.own)
    {faults : Faults} (hf : .closed ∉ faults.sends) :
    (settle { link.burst events with faults }).connection =
      (link.burst events).connection.flushed.failAll
        (lost (link.burst events).connection.outbound faults.sends) := by
  have hk : Kept link (link.burst events) := .burst own
  have hq := h.queue_burst events
  have hr := link.burst_reading events
  cases hc : link.connection.closed
  case false =>
    have hl := h.reading_of_open hc
    have hw : Writable { link.burst events with faults } := { (h.writable hc).burst events with }
    exact hw.settle_lossy (hr.trans hl) (hk.peer.trans <| h.peer hl) (hk.inbox.trans <| h.inbox hl)
      (hq ▸ close_not_mem_queued own) hf
  case true =>
    have hb := (h.accounts_burst events).coherent
    have hp : (link.burst events).connection.pending = .empty := by
      rw [hb.pending, hb.closed (hk.closed.trans hc)]
      rfl
    have hs := @settle_of_closed { link.burst events with faults } (hk.closed.trans hc) hp
      fun hl => hk.inbox.trans <| h.inbox <| hr.symm.trans hl
    rw [hs, hq, queued_of_closed own hc]
    rfl

theorem ids_pairwise (h : link.Ready config log shown) (events : List Event) :
    (log ++ link.made events).Pairwise (·.id < ·.id) := by
  have hi := (h.numbered.burst events).ids
  have hp : ((log ++ link.made events).map (·.id)).Pairwise (· < ·) :=
    hi ▸ List.pairwise_lt_range'
  exact List.pairwise_map.mp hp

theorem lost_pairwise (h : link.Ready config log shown) (events : List Event)
    (errors : List LinkError) :
    (lost (link.burst events).connection.outbound errors).Pairwise (·.1 < ·.1) := by
  refine List.pairwise_map.mp <| .sublist (map_fst_lost_sublist ..) ?_
  rw [h.queue_burst, ids_queued, List.pairwise_map]
  exact (List.pairwise_append.mp <| h.ids_pairwise events).right.left

-- Every frame that is lost is the frame of a call of the burst.
theorem exists_made_of_lost (h : link.Ready config log shown) {errors : List LinkError}
    {id : Nat} {error : LinkError}
    (mem : (id, error) ∈ lost (link.burst events).connection.outbound errors) :
    ∃ call ∈ link.made events, call.id = id := by
  have hi : id ∈ (link.made events).map (·.id) := by
    rw [← ids_queued, ← h.queue_burst]
    exact (map_fst_lost_sublist _ errors).mem <| List.mem_map_of_mem mem
  exact List.mem_map.mp hi

theorem failAll_burst (h : link.Ready config log shown) (events : List Event)
    (errors : List LinkError) :
    (link.burst events).connection.flushed.failAll
        (lost (link.burst events).connection.outbound errors) =
      (link.burst events).connection.flushed.retire
        (spoiled <| lost (link.burst events).connection.outbound errors) := by
  have ha := h.accounts_burst events
  refine failAll_eq (ha.of_outbound []).coherent ?_ (h.lost_pairwise events errors)
  have hc : (link.burst events).connection.calls.Pairwise (·.id < ·.id) := by
    rw [ha.calls]
    exact (h.ids_pairwise events).filter _
  exact hc

theorem sendings_burst (h : link.Ready config log shown) (own : ∀ event ∈ events, event.own)
    (hf : .closed ∉ (link.burst events).faults.sends) :
    link.sendings events =
      lossy (link.burst events).connection.outbound (link.burst events).faults.sends := by
  have hk : Kept link (link.burst events) := .burst own
  have hq := h.queue_burst events
  rw [sendings]
  cases hc : link.connection.closed
  case false =>
    have hl := h.reading_of_open hc
    have hd : (link.burst events).duplex.far.standing ≠ .dropped := by
      simp [hk.peer.trans (h.peer hl)]
    have hw : Writable ((link.burst events).written []) := { (h.writable hc).burst events with }
    exact (hw.foldl_lossy hd (hq ▸ close_not_mem_queued own) rfl hf).left
  case true =>
    rw [hq, queued_of_closed own hc]
    simp [fates, lossy]

end Ready

theorem arrivals_lossy (items : List Outbound) (errors : List LinkError) :
    (lossy items errors).filterMap Fate.arrival? =
      (items.drop errors.length).filterMap Outbound.text? := by
  have hs : Fate.arrival? ∘ (·, Fate.done) = Outbound.text? := by
    funext item
    cases item <;> rfl
  rw [lossy, List.filterMap_append, List.filterMap_map, List.filterMap_map, hs,
    List.append_left_eq_self, List.filterMap_eq_nil_iff]
  rintro ⟨_ | _, error⟩ _ <;> rfl

-- The error that a frame was lost with is the outcome of its call.
theorem spoiled_of_mem {frames : List (Nat × LinkError)} (hf : frames.Pairwise (·.1 < ·.1))
    {call : Call} {error : LinkError} (mem : (call.id, error) ∈ frames) :
    spoiled frames call = some (.failed error) := by
  obtain ⟨before, after, rfl⟩ := List.append_of_mem mem
  have ⟨_, _, hl⟩ := List.pairwise_append.mp hf
  have hs : (before ++ (call.id, error) :: after).lookup call.id = some error := by
    refine List.lookup_eq_some_iff.mpr ⟨before, after, rfl, fun p hp => ?_⟩
    have := hl p hp _ (.head _)
    simpa using Nat.ne_of_gt this
  rw [spoiled, hs, Option.map_some]

-- A send that fails without ending the connection costs the one request whose frame it was: the
-- request ends with the error, unless it has been cancelled or timed out before. The frames behind
-- are sent in their order, all other requests are still pending, and nothing else of the connection
-- is different from what it would be if every send had succeeded.
theorem failed_writes_fail_their_requests (config : LinkConfig) (bursts : List (List Event))
    (events : List Event) (own : ∀ event ∈ events, event.own)
    (hf : .closed ∉ (((start config).turns bursts).burst events).faults.sends) :
    let link   := (start config).turns bursts
    let burst  := link.burst events
    let queue  := burst.connection.outbound
    let errors := burst.faults.sends
    let frames := lost queue errors
    let smooth := (settle { burst with faults := { burst.faults with sends := [] } }).connection
    let after  := burst.settle.connection
    link.sendings events = lossy queue errors ∧
    (link.turn events).1 = (queue.drop errors.length).filterMap Outbound.text? ∧
    smooth = burst.connection.flushed ∧
    after = { smooth with
      pending  := .ofCalls (spared (spoiled frames) smooth.calls)
      calls    := spared (spoiled frames) smooth.calls
      finished := smooth.finished ++ outcomes (spoiled frames) smooth.calls } ∧
    (∀ id error, (id, error) ∈ frames → ∃ call ∈ link.made events, call.id = id ∧
      (call ∈ smooth.calls ∧ (∀ outcome,
          (call.ticket, outcome) ∈ after.finished ↔ outcome = .failed error) ∨
        ∃ outcome, outcome.GivenUp ∧ (call.ticket, outcome) ∈ smooth.finished)) ∧
    ∀ call ∈ smooth.calls, (∀ error, (call.id, error) ∉ frames) →
      after.pending.ticket? call.id = some call.ticket := by
  intro link burst queue errors frames smooth after
  have ⟨log, shown, h⟩ := (Ready.start config).turns bursts
  have hb : burst.Accounts (log ++ link.made events) shown := h.accounts_burst events
  have hp : frames.Pairwise (·.1 < ·.1) := h.lost_pairwise events errors
  have hs : smooth = burst.connection.flushed := by
    have hn := @Ready.settle_burst link config log events shown h own
      { burst.faults with sends := [] } nofun
    rw [lost_of_no_error] at hn
    exact hn
  have ha : after = smooth.retire (spoiled frames) := by
    have hl := @Ready.settle_burst link config log events shown h own burst.faults hf
    exact hl.trans <| (h.failAll_burst events errors).trans <| hs ▸ rfl
  have hc : smooth.Coherent := hs ▸ (hb.of_outbound []).coherent
  refine ⟨h.sendings_burst own hf, ?_, hs, ha, fun id error mem => ?_, fun call mem hn => ?_⟩
  case refine_1 =>
    rw [texts_turn h.sent, h.sendings_burst own hf]
    exact arrivals_lossy queue errors
  case refine_2 =>
    obtain ⟨call, hm, rfl⟩ := h.exists_made_of_lost mem
    have ho : burst.connection.closed = false := open_of_made own hm
    refine ⟨call, hm, rfl, ?_⟩
    rw [hs]
    refine (h.made_cases ho hm).imp_left fun hcall => ⟨hcall, fun outcome => ?_⟩
    have hl : (call.ticket, .failed error) ∈ after.finished := by
      rw [ha, hs]
      exact Connection.mem_finished_retire.mpr <|
        .inr ⟨call, hcall, _, spoiled_of_mem hp mem, rfl⟩
    exact ⟨fun ho => hb.settle.outcome_unique ho hl, fun ho => ho ▸ hl⟩
  case refine_3 =>
    rw [ha]
    refine hc.retire.ticket?_id <| Connection.mem_calls_retire.mpr ⟨mem, ?_⟩
    exact spoiled_eq_none fun p hp he => hn p.2 (he ▸ hp)

theorem failed_writes_fail_their_requests_beside_a_cancellation :
    let ping : Fields := [(Frame.commandField, .string "ping")]
    let events : List Event := [
      .failSend (.transport "lost"), .failSend (.transport "lost too"), .act (.issue ping 3),
      .act (.cancel 1)
    ]
    let burst := (start {}).burst events
    (∀ event ∈ events, event.own) ∧ .closed ∉ burst.faults.sends ∧
    lost burst.connection.outbound burst.faults.sends =
      [(1, .transport "lost"), (2, .transport "lost too")] ∧
    ((start {}).turn events).1 = ["\x7b\"command\":\"ping\",\"id\":3\x7d"] ∧
    burst.settle.connection.pending.tickets = [2] := by
  intro ping events burst
  have own : ∀ event ∈ events, event.own := by decide +kernel
  have hf : .closed ∉ burst.faults.sends := by decide +kernel
  have hl : lost burst.connection.outbound burst.faults.sends =
      [(1, .transport "lost"), (2, .transport "lost too")] := by decide +kernel
  have ht := (failed_writes_fail_their_requests {} [] events own hf).right.left
  exact ⟨own, hf, hl, ht.trans (by decide +kernel), by decide +kernel⟩

end Link
end LedgerWire
