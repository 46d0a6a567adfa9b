import LedgerWire.Proofs.Link.Prompt

namespace LedgerWire

-- The limit is rounded up to whole milliseconds.
theorem Duration.ticks_le_iff (d : Duration) (ms : Nat) :
    d.ticks ≤ ms ↔ d.nanos ≤ ms * 1000000 := by
  rw [ticks]
  omega

theorem Call.overdue?_eq_some_iff {call : Call} {now : Nat} {limit : Duration} :
    call.overdue? now = some limit ↔
      call.limit = some limit ∧ call.start + limit.ticks ≤ now := by
  rw [overdue?, Option.filter_eq_some_iff, decide_eq_true_eq]

theorem Frame.rejected_of_refusal? {reply : Fields} {error : LinkError}
    (h : refusal? reply = some error) : ∃ code message, error = .rejected code message := by
  rw [refusal?] at h
  split at h
  case h_1 => exact ⟨_, _, (Option.some.inj h).symm⟩
  case h_2 =>
    split at h
    case isTrue  => exact ⟨_, _, (Option.some.inj h).symm⟩
    case isFalse => cases h

-- A server that refuses a request does not time it out.
theorem Purpose.verdict_ne_timeout (purpose : Purpose) (reply : Fields) (limit : Duration) :
    purpose.verdict reply ≠ .failed (.timeout limit) := by
  intro h
  cases hr : Frame.refusal? reply
  case none => cases purpose <;> simp [verdict, conclude, hr] at h
  case some error =>
    obtain ⟨_, _, rfl⟩ := Frame.rejected_of_refusal? hr
    cases purpose <;> simp [verdict, conclude, hr] at h

namespace Connection

variable {c : Connection} {faults : List LinkError} {now tickets : Nat} {log : List Call}
variable {shown : List (Nat × Outcome LinkError)}

-- A timeout that waits to be shown is that of a call whose time is up, unless the wire had this very
-- error in store for a send.
def Due (faults : List LinkError) (now : Nat) (c : Connection) (log : List Call)
    (shown : List (Nat × Outcome LinkError)) : Prop :=
  ∀ ticket limit, (ticket, .failed (.timeout limit)) ∈ c.finished → .timeout limit ∈ faults ∨
    ∃ call ∈ underWay log shown, call.ticket = ticket ∧ call.overdue? now = some limit

-- No timeout comes too early, and each call whose time is up has its timeout.
structure Timed (faults : List LinkError) (now : Nat) (c : Connection) (tickets : Nat)
    (log : List Call) (shown : List (Nat × Outcome LinkError)) : Prop where
  accounts : c.Accounts tickets log shown
  due      : Due faults now c log shown
  punctual : ∀ call ∈ underWay log shown, ∀ limit, call.overdue? now = some limit →
    (call.ticket, .failed (.timeout limit)) ∈ c.finished

theorem Accounts.mem_underWay_of_mem_calls (h : c.Accounts tickets log shown) {call : Call}
    (mem : call ∈ c.calls) : call ∈ underWay log shown := by
  rw [h.calls, mem_underWay, List.map_append, List.mem_append, not_or] at mem
  exact mem_underWay.mpr ⟨mem.left, mem.right.left⟩

namespace Timed

-- No call that is left has run out of time.
theorem prompt (h : c.Timed faults now tickets log shown) : c.Prompt now := by
  intro call mem
  cases ho : call.overdue? now
  case none => rfl
  case some limit =>
    have hf := h.punctual call (h.accounts.mem_underWay_of_mem_calls mem) limit ho
    rw [h.accounts.calls, mem_underWay] at mem
    exact absurd (List.mem_map_of_mem <| List.mem_append_right _ hf) mem.right

-- A rule that speaks of timeouts only where time is up, or where the wire does, can be followed.
theorem retire (h : c.Timed faults now tickets log shown)
    {verdict : Call → Option (Outcome LinkError)}
    (hv : ∀ call ∈ c.calls, ∀ limit, verdict call = some (.failed (.timeout limit)) →
      .timeout limit ∈ faults) :
    (c.retire verdict).Timed faults now tickets log shown where
  accounts := h.accounts.retire
  due      := by
    intro ticket limit mem
    obtain mem | ⟨call, hm, outcome, ho, he⟩ := mem_finished_retire.mp mem
    case inl => exact h.due ticket limit mem
    case inr =>
      cases he
      exact .inl <| hv call hm limit ho
  punctual := fun call mem limit ho => List.mem_append_left _ <| h.punctual call mem limit ho

theorem congr {c' : Connection} (h : c.Timed faults now tickets log shown)
    (ha : c'.Accounts tickets log shown) (hf : c'.finished = c.finished) :
    c'.Timed faults now tickets log shown where
  accounts := ha
  due      := by
    rw [Due, hf]
    exact h.due
  punctual := hf ▸ h.punctual

-- At a moment when all calls whose time is up are still there, or have their outcome already, those
-- that are still there get theirs.
theorem of_expire (ha : c.Accounts tickets log shown)
    (hd : Due faults now c log shown)
    (hp : ∀ call ∈ underWay log shown, ∀ limit, call.overdue? now = some limit →
      call ∈ c.calls ∨ (call.ticket, .failed (.timeout limit)) ∈ c.finished) :
    (c.expire now).Timed faults now tickets log shown := by
  rw [expire_eq ha.coherent]
  constructor
  case accounts => exact ha.retire
  case due =>
    intro ticket limit mem
    obtain mem | ⟨call, hm, outcome, ho, he⟩ := mem_finished_retire.mp mem
    case inl => exact hd ticket limit mem
    case inr =>
      cases he
      have ⟨_, ho, he⟩ := Option.map_eq_some_iff.mp ho
      cases he
      exact .inr ⟨call, ha.mem_underWay_of_mem_calls hm, rfl, ho⟩
  case punctual =>
    intro call mem limit ho
    cases hp call mem limit ho
    case inl mem =>
      have ht : timedOut now call = some (.failed (.timeout limit)) := by rw [timedOut, ho]; rfl
      exact mem_finished_retire.mpr <| .inr ⟨call, mem, _, ht, rfl⟩
    case inr mem => exact List.mem_append_left _ mem

-- With no outcome waiting, all calls are still there.
theorem expire (ha : c.Accounts tickets log shown) (hf : c.finished = []) (now : Nat) :
    (c.expire now).Timed faults now tickets log shown := by
  refine of_expire ha (by simp [Due, hf]) fun call mem _ _ => .inl ?_
  rwa [ha.calls, hf, List.append_nil]

-- Only the new call can be overdue, and it is there.
theorem dispatch (h : c.Timed faults now tickets log shown) {id : Nat} {request : Request}
    (ha : c.allocate? = .ok id) :
    ((c.dispatch id tickets now request).expire now).Timed faults now (tickets + 1)
      (log ++ [⟨tickets, id, request.purpose, request.limit, now⟩]) shown := by
  refine of_expire (h.accounts.dispatch ha) ?_ ?_
  case refine_1 =>
    intro ticket limit mem
    refine (h.due ticket limit mem).imp_right fun ⟨call, hm, ho⟩ => ⟨call, ?_, ho⟩
    rw [underWay, List.filter_append]
    exact List.mem_append_left _ hm
  case refine_2 =>
    intro call mem limit ho
    rw [underWay, List.filter_append, List.mem_append] at mem
    cases mem
    case inl mem => exact .inr <| h.punctual call mem limit ho
    case inr mem =>
      exact .inl <| List.mem_append_right _ <| List.mem_of_mem_filter mem

theorem call (h : c.Timed faults now tickets log shown) (request : Request) :
    (c.call tickets now request).Timed faults now (tickets + 1)
      (log ++ (c.dispatch? tickets now request).toList) shown := by
  rw [Connection.call]
  cases ha : c.allocate?
  case ok id => simpa [dispatch?, ha] using h.dispatch ha
  case error error =>
    simp only [dispatch?, ha, Option.toList_none, List.append_nil]
    constructor
    case accounts => exact h.accounts.refuse (.failed error)
    case due =>
      intro ticket limit mem
      cases List.mem_append.mp mem
      case inl mem => exact h.due ticket limit mem
      case inr mem =>
        cases List.mem_singleton.mp mem
        exact absurd (allocate?_error ha) (by simp)
    case punctual =>
      exact fun call mem limit ho => List.mem_append_left _ <| h.punctual call mem limit ho

theorem cancel (h : c.Timed faults now tickets log shown) (ticket : Nat) :
    (c.cancel ticket).2.Timed faults now tickets log shown := by
  rw [cancel_eq h.accounts.coherent]
  refine h.retire fun call _ limit ho => ?_
  split at ho <;> cases ho

theorem failRequest (h : c.Timed faults now tickets log shown) (id : Nat) {error : LinkError}
    (he : Link.Unwritten faults error) :
    (c.failRequest id error).Timed faults now tickets log shown := by
  rw [failRequest_eq h.accounts.coherent]
  refine h.retire fun call _ limit ho => ?_
  rw [only] at ho
  split at ho <;> cases ho
  cases he
  case inl he => cases he
  case inr he => exact he

theorem shutDown (h : c.Timed faults now tickets log shown) :
    c.shutDown.Timed faults now tickets log shown := by
  have hr : (c.retire fun _ => some (.failed .closed)).Timed faults now tickets log shown :=
    h.retire fun _ _ _ ho => nomatch ho
  exact hr.congr h.accounts.shutDown (by rw [shutDown_eq h.accounts.coherent])

theorem route (h : c.Timed faults now tickets log shown) (text : String) :
    (c.route text).Timed faults now tickets log shown := by
  have ⟨_, _, hr⟩ := route_eq h.accounts.coherent text
  have ht : (c.retire (replied text)).Timed faults now tickets log shown := by
    refine h.retire fun call _ limit ho => ?_
    have ⟨frame, _, hv⟩ := Option.map_eq_some_iff.mp ho
    exact absurd hv (call.purpose.verdict_ne_timeout frame limit)
  exact ht.congr (h.accounts.route text) (by rw [hr])

end Timed
end Connection
end LedgerWire
