import LedgerWire.Proofs.Link.Retire
import Mathlib.Data.List.Perm.Basic

namespace LedgerWire

-- The calls of a log that have not ended.
def underWay (log : List Call) (ended : List (Nat × Outcome LinkError)) : List Call :=
  log.filter fun call => call.ticket ∉ ended.map (·.1)

theorem mem_underWay {log : List Call} {ended : List (Nat × Outcome LinkError)} {call : Call} :
    call ∈ underWay log ended ↔ call ∈ log ∧ call.ticket ∉ ended.map (·.1) := by
  simp [underWay]

-- It does not matter whether calls are taken out at once or one group after the other.
theorem underWay_append (log : List Call) (ended more : List (Nat × Outcome LinkError)) :
    underWay log (ended ++ more) = underWay (underWay log ended) more := by
  simp only [underWay, List.filter_filter, List.map_append, List.mem_append]
  apply List.filter_congr
  simp [Bool.and_comm]

theorem underWay_perm {ended ended' : List (Nat × Outcome LinkError)} (log : List Call)
    (h : ended.Perm ended') : underWay log ended = underWay log ended' := by
  simp only [underWay, (h.map _).mem_iff]

theorem underWay_concat {log : List Call} {ended : List (Nat × Outcome LinkError)} {call : Call}
    (h : call.ticket ∉ ended.map (·.1)) :
    underWay (log ++ [call]) ended = underWay log ended ++ [call] := by
  simpa [underWay, List.filter_append, List.filter_cons] using h

namespace Connection

variable {c : Connection} {verdict : Call → Option (Outcome LinkError)}

theorem allocate?_ok {id : Nat} (h : c.allocate? = .ok id) :
    c.closed = false ∧ ¬c.pending.contains id := by
  rw [allocate?] at h
  split at h
  case isTrue => cases h
  case isFalse hc =>
    split at h
    case h_1 => cases h
    case h_2 =>
      split at h
      case isTrue => cases h
      case isFalse hn => cases h; exact ⟨by simpa using hc, hn⟩

theorem allocate?_error {error : LinkError} (h : c.allocate? = .error error) :
    error = .closed ∨ error = .idsExhausted := by
  rw [allocate?] at h
  split at h
  case isTrue => cases h; exact .inl rfl
  case isFalse =>
    split at h
    case h_1 => cases h; exact .inr rfl
    case h_2 => split at h <;> cases h; exact .inr rfl

-- The call that a request sets out as, unless it fails at once.
def dispatch? (c : Connection) (ticket now : Nat) (request : Request) : Option Call :=
  match c.allocate? with
  | .ok id   => some ⟨ticket, id, request.purpose, request.limit, now⟩
  | .error _ => none

theorem map_fst_outcomes (verdict : Call → Option (Outcome LinkError)) (calls : List Call) :
    (outcomes verdict calls).map (·.1) =
      (calls.filter fun call => (verdict call).isSome).map (·.ticket) := by
  rw [outcomes]
  induction calls
  case nil => rfl
  case cons call calls hi => cases hv : verdict call <;> simp [hv, hi]

-- Those that remain after the rule has spoken are those that it spares, because no two calls share
-- a ticket: an outcome cannot end any call but its own.
theorem underWay_outcomes {calls : List Call} (h : (calls.map (·.ticket)).Nodup)
    (verdict : Call → Option (Outcome LinkError)) :
    underWay calls (outcomes verdict calls) = spared verdict calls := by
  rw [underWay, map_fst_outcomes]
  apply List.filter_congr
  intro call mem
  have hm : call.ticket ∈ (calls.filter fun call => (verdict call).isSome).map (·.ticket) ↔
      (verdict call).isSome := by
    simp only [List.mem_map, List.mem_filter]
    constructor
    case mp =>
      intro ⟨other, ⟨hm, hv⟩, ht⟩
      exact List.inj_on_of_nodup_map h hm mem ht ▸ hv
    case mpr => exact fun hv => ⟨call, ⟨mem, hv⟩, rfl⟩
  cases hv : verdict call <;> simp [hm, hv]

namespace Coherent

theorem shutDown (h : c.Coherent) : c.shutDown.Coherent := by
  rw [shutDown_eq h]
  exact { h.retire with closed := fun _ => by simp [Connection.retire, spared], hub := rfl }

theorem dispatch {id ticket now : Nat} {request : Request} (h : c.Coherent)
    (ha : c.allocate? = .ok id) (hn : ticket ∉ c.calls.map (·.ticket)) :
    (c.dispatch id ticket now request).Coherent := by
  have ⟨hc, hi⟩ := allocate?_ok ha
  rw [h.pending, Pending.contains_ofCalls] at hi
  constructor
  case pending => simp only [Connection.dispatch, h.pending, ← Pending.insert_ofCalls]
  case ids     => simpa [Connection.dispatch, List.nodup_append] using ⟨h.ids, by simpa using hi⟩
  case tickets =>
    simpa [Connection.dispatch, List.nodup_append] using ⟨h.tickets, by simpa using hn⟩
  case closed  => simp [Connection.dispatch, hc]
  case hub     => exact h.hub

end Coherent

-- The outcomes shown are in `shown`, those that wait to be shown in `c.finished`.
structure Accounts (c : Connection) (tickets : Nat) (log : List Call)
    (shown : List (Nat × Outcome LinkError)) : Prop where
  coherent : c.Coherent
  logged   : (log.map (·.ticket)).Sublist (List.range tickets)
  calls    : c.calls = underWay log (shown ++ c.finished)
  tickets  : ((shown ++ c.finished).map (·.1) ++ c.calls.map (·.ticket)).Perm (List.range tickets)

namespace Accounts

variable {tickets : Nat} {log : List Call} {shown : List (Nat × Outcome LinkError)}

-- Nothing else of a connection is in the accounts.
theorem congr {c' : Connection} (h : c.Accounts tickets log shown) (hc : c'.Coherent)
    (calls : c'.calls = c.calls) (finished : c'.finished = c.finished) :
    c'.Accounts tickets log shown where
  coherent := hc
  logged   := h.logged
  calls    := by rw [calls, finished, h.calls]
  tickets  := by rw [calls, finished]; exact h.tickets

theorem retire (h : c.Accounts tickets log shown) :
    (c.retire verdict).Accounts tickets log shown where
  coherent := h.coherent.retire
  logged   := h.logged
  calls    := by
    simp only [Connection.retire, ← List.append_assoc]
    rw [underWay_append, ← h.calls, underWay_outcomes h.coherent.tickets]
  tickets  := by
    simp only [Connection.retire, ← List.append_assoc]
    rw [List.map_append, map_fst_outcomes, List.append_assoc, ← List.map_append]
    -- The tickets of the retired calls move over to the outcomes, and nothing is lost on the way.
    refine .trans (.append_left _ <| .map _ ?_) h.tickets
    simpa [spared] using List.filter_append_perm (fun call => (verdict call).isSome) c.calls

theorem ticket_lt (h : c.Accounts tickets log shown) {call : Call} (mem : call ∈ log) :
    call.ticket < tickets :=
  List.mem_range.mp <| h.logged.mem <| List.mem_map_of_mem mem

theorem not_ended (h : c.Accounts tickets log shown) :
    tickets ∉ (shown ++ c.finished).map (·.1) := by
  intro mem
  exact absurd (h.tickets.mem_iff.mp <| List.mem_append_left _ mem) List.not_mem_range_self

-- No call has two outcomes.
theorem nodup_ended (h : c.Accounts tickets log shown) :
    ((shown ++ c.finished).map (·.1)).Nodup :=
  (List.nodup_append.mp <| h.tickets.nodup_iff.mpr List.nodup_range).left

theorem outcome_unique (h : c.Accounts tickets log shown) {ticket : Nat}
    {outcome outcome' : Outcome LinkError} (mem : (ticket, outcome) ∈ c.finished)
    (mem' : (ticket, outcome') ∈ c.finished) : outcome = outcome' := by
  have he := List.inj_on_of_nodup_map h.nodup_ended
    (List.mem_append_right _ mem) (List.mem_append_right _ mem') rfl
  exact (Prod.mk.inj he).right

theorem dispatch {id now : Nat} {request : Request} (h : c.Accounts tickets log shown)
    (ha : c.allocate? = .ok id) :
    (c.dispatch id tickets now request).Accounts (tickets + 1)
      (log ++ [⟨tickets, id, request.purpose, request.limit, now⟩]) shown where
  coherent := h.coherent.dispatch ha fun mem =>
    absurd (h.tickets.mem_iff.mp <| List.mem_append_right _ mem) List.not_mem_range_self
  logged   := by
    rw [List.map_append, List.range_succ]
    exact h.logged.append (.refl _)
  calls    := by
    simp only [Connection.dispatch, h.calls]
    exact underWay_concat h.not_ended |>.symm
  tickets  := by
    simp only [Connection.dispatch, List.map_append, List.range_succ, ← List.append_assoc]
    exact (List.map_append ▸ h.tickets).append_right _

-- A request that fails at once has an outcome without ever having been a call.
theorem refuse (outcome : Outcome LinkError) (h : c.Accounts tickets log shown) :
    Accounts { c with finished := c.finished ++ [(tickets, outcome)] }
      (tickets + 1) log shown where
  coherent := { h.coherent with }
  logged   := h.logged.trans <| List.range_succ ▸ List.sublist_append_left ..
  calls    := by
    simp only [← List.append_assoc]
    rw [underWay_append, ← h.calls, underWay, eq_comm, List.filter_eq_self]
    intro call mem
    rw [h.calls, mem_underWay] at mem
    simpa using Nat.ne_of_lt <| h.ticket_lt mem.left
  tickets  := by
    simp only [← List.append_assoc]
    rw [List.map_append, List.append_assoc, List.range_succ]
    refine .trans (.append_left _ List.perm_append_comm) ?_
    rw [← List.append_assoc]
    exact h.tickets.append_right _

theorem expire (h : c.Accounts tickets log shown) (now : Nat) :
    (c.expire now).Accounts tickets log shown :=
  expire_eq h.coherent now ▸ h.retire

theorem cancel (h : c.Accounts tickets log shown) (ticket : Nat) :
    (c.cancel ticket).2.Accounts tickets log shown :=
  cancel_eq h.coherent ticket ▸ h.retire

theorem failRequest (h : c.Accounts tickets log shown) (id : Nat) (error : LinkError) :
    (c.failRequest id error).Accounts tickets log shown :=
  failRequest_eq h.coherent id error ▸ h.retire

theorem shutDown (h : c.Accounts tickets log shown) : c.shutDown.Accounts tickets log shown := by
  have hr : (c.retire fun _ => some (.failed .closed)).Accounts tickets log shown := h.retire
  refine hr.congr h.coherent.shutDown ?_ ?_
  all_goals rw [shutDown_eq h.coherent]

theorem of_outbound (h : c.Accounts tickets log shown) (outbound : List Outbound) :
    Accounts { c with outbound } tickets log shown :=
  h.congr { h.coherent with } rfl rfl

theorem of_hub {hub : Stream.Hub} (h : c.Accounts tickets log shown)
    (hc : hub.closed = c.hub.closed) : Accounts { c with hub } tickets log shown :=
  h.congr { h.coherent with hub := hc.trans h.coherent.hub } rfl rfl

theorem close (h : c.Accounts tickets log shown) : c.close.Accounts tickets log shown :=
  (h.of_outbound _).shutDown

theorem push (h : c.Accounts tickets log shown) (frame : Fields) :
    (c.push frame).Accounts tickets log shown := by
  rw [Connection.push]
  split
  case h_1 => exact h.of_hub <| c.hub.closed_deliver ..
  case h_2 => exact h.of_hub c.hub.closed_drop

theorem route (h : c.Accounts tickets log shown) (text : String) :
    (c.route text).Accounts tickets log shown := by
  rw [Connection.route]
  split
  case h_2 => exact h
  case h_1 frame _ =>
    rw [routeFrame_eq h.coherent]
    split
    case h_1 => exact h.retire.congr { h.coherent.retire with } rfl rfl
    case h_2 => exact h.push frame

theorem call (h : c.Accounts tickets log shown) (now : Nat) (request : Request) :
    (c.call tickets now request).Accounts (tickets + 1)
      (log ++ (c.dispatch? tickets now request).toList) shown := by
  rw [Connection.call]
  cases ha : c.allocate?
  case ok id    => simpa [dispatch?, ha] using (h.dispatch ha).expire now
  case error er => simpa [dispatch?, ha] using h.refuse (.failed er)

end Accounts
end Connection
end LedgerWire
