import LedgerWire.Link.Connection
import LedgerWire.Proofs.Stream.Closing
import Mathlib.Data.List.Nodup

namespace LedgerWire

-- The outcome that a reply has for a call does not depend on the active streams.
def Purpose.verdict (purpose : Purpose) (reply : Fields) : Outcome LinkError :=
  (purpose.conclude .empty reply).1

theorem Purpose.conclude_fst (purpose : Purpose) (active : Stream.Names) (reply : Fields) :
    (purpose.conclude active reply).1 = purpose.verdict reply := by
  rw [verdict]
  cases purpose <;> simp only [conclude] <;> split <;> rfl

-- If keys are distinct, filtering one of them out removes the one element that has it.
theorem filter_ne_middle {α β : Type} [DecidableEq β] {key : α → β} {before after : List α} {a : α}
    (h : ((before ++ a :: after).map key).Nodup) :
    (before ++ a :: after).filter (key · ≠ key a) = before ++ after := by
  rw [List.map_append, List.map_cons, List.nodup_middle, List.nodup_cons] at h
  have hk : (before ++ after).filter (key · ≠ key a) = before ++ after := by
    rw [List.filter_eq_self]
    intro b mem
    simp only [decide_eq_true_eq]
    intro eq
    exact h.left <| eq ▸ List.map_append ▸ List.mem_map_of_mem mem
  simpa using hk

-- The table of these calls, and of no others.
def Pending.ofCalls (calls : List Call) : Pending :=
  ⟨calls.map fun call => (call.id, call.ticket)⟩

namespace Pending

variable (calls : List Call) (id : Nat)

theorem ticket?_ofCalls :
    (ofCalls calls).ticket? id = (calls.find? (·.id = id)).map (·.ticket) := by
  simp only [ticket?, ofCalls]
  induction calls
  case nil => rfl
  case cons call calls hi =>
    by_cases h : call.id = id
    case pos =>
      rw [List.map_cons, h, List.lookup_cons_self, List.find?_cons_of_pos (by simpa using h),
        Option.map_some]
    case neg =>
      have hb : (id == call.id) = false := by simpa using Ne.symm h
      rw [List.map_cons, List.lookup_cons, hb, List.find?_cons_of_neg (by simpa using h)]
      exact hi

theorem contains_ofCalls : (ofCalls calls).contains id ↔ id ∈ calls.map (·.id) := by
  simp [contains, ticket?_ofCalls]

theorem insert_ofCalls (call : Call) :
    (ofCalls calls).insert call.id call.ticket = ofCalls (calls ++ [call]) := by
  simp [insert, ofCalls]

theorem erase_ofCalls : (ofCalls calls).erase id = ofCalls (calls.filter (·.id ≠ id)) := by
  simp [erase, ofCalls, List.filter_map, Function.comp_def]

theorem ids_ofCalls : (ofCalls calls).ids = calls.map (·.id) := by
  simp [ids, ofCalls]

theorem tickets_ofCalls : (ofCalls calls).tickets = calls.map (·.ticket) := by
  simp [tickets, ofCalls]

theorem size_ofCalls : (ofCalls calls).size = calls.length := by
  simp [size, ofCalls]

end Pending

namespace Connection

-- The table and the calls are two views of what is under way, and an id or a ticket stands for one
-- call. Nothing is under way on a closed connection.
structure Coherent (c : Connection) : Prop where
  pending : c.pending = .ofCalls c.calls
  ids     : (c.calls.map (·.id)).Nodup
  tickets : (c.calls.map (·.ticket)).Nodup
  closed  : c.closed → c.calls = []
  hub     : c.hub.closed = c.closed

-- The calls that a rule gives no outcome to.
def spared (verdict : Call → Option (Outcome LinkError)) (calls : List Call) : List Call :=
  calls.filter fun call => (verdict call).isNone

-- The outcomes of the other calls, by ticket.
def outcomes (verdict : Call → Option (Outcome LinkError)) (calls : List Call) :
    List (Nat × Outcome LinkError) :=
  calls.filterMap fun call => (verdict call).map (call.ticket, ·)

-- Ends all calls at once that the rule gives an outcome to.
def retire (c : Connection) (verdict : Call → Option (Outcome LinkError)) : Connection :=
  { c with
    pending  := .ofCalls (spared verdict c.calls)
    calls    := spared verdict c.calls
    finished := c.finished ++ outcomes verdict c.calls }

variable {c : Connection} {verdict : Call → Option (Outcome LinkError)} {call : Call}
variable {before after : List Call}

theorem Coherent.retire (h : c.Coherent) : (c.retire verdict).Coherent where
  pending := rfl
  ids     := h.ids.sublist <| List.filter_sublist.map _
  tickets := h.tickets.sublist <| List.filter_sublist.map _
  closed closed := by simp [Connection.retire, spared, h.closed closed]
  hub     := h.hub

-- What is shown afterwards was there already, or is the outcome of a call.
theorem mem_finished_retire {p : Nat × Outcome LinkError} :
    p ∈ (c.retire verdict).finished ↔ p ∈ c.finished ∨
      ∃ call ∈ c.calls, ∃ outcome, verdict call = some outcome ∧ (call.ticket, outcome) = p := by
  simp only [Connection.retire, outcomes, List.mem_append, List.mem_filterMap,
    Option.map_eq_some_iff]

theorem mem_calls_retire :
    call ∈ (c.retire verdict).calls ↔ call ∈ c.calls ∧ verdict call = none := by
  simp only [Connection.retire, spared, List.mem_filter, Option.isNone_iff_eq_none]

theorem retire_congr {verdict' : Call → Option (Outcome LinkError)}
    (hv : ∀ call ∈ c.calls, verdict call = verdict' call) :
    c.retire verdict = c.retire verdict' := by
  have hs : spared verdict c.calls = spared verdict' c.calls :=
    List.filter_congr fun call mem => by rw [hv call mem]
  have ho : outcomes verdict c.calls = outcomes verdict' c.calls :=
    List.filterMap_congr fun call mem => by rw [hv call mem]
  simp only [Connection.retire, hs, ho]

theorem spared_of_none {calls : List Call} (hn : ∀ call ∈ calls, verdict call = none) :
    spared verdict calls = calls := by
  simpa [spared, List.filter_eq_self] using hn

theorem outcomes_of_none {calls : List Call} (hn : ∀ call ∈ calls, verdict call = none) :
    outcomes verdict calls = [] := by
  simpa [outcomes, List.filterMap_eq_nil_iff] using hn

theorem retire_none (h : c.Coherent) (hn : ∀ call ∈ c.calls, verdict call = none) :
    c.retire verdict = c := by
  simp only [Connection.retire, spared_of_none hn, outcomes_of_none hn, ← h.pending,
    List.append_nil]

-- The outcome of the one call that has the id.
def only (id : Nat) (outcome : Outcome LinkError) (call : Call) : Option (Outcome LinkError) :=
  if call.id = id then some outcome else none

theorem spared_only (outcome : Outcome LinkError)
    (h : ((before ++ call :: after).map (·.id)).Nodup) :
    spared (only call.id outcome) (before ++ call :: after) = before ++ after := by
  simpa [spared, only, apply_ite] using filter_ne_middle h

theorem outcomes_only (outcome : Outcome LinkError)
    (h : ((before ++ call :: after).map (·.id)).Nodup) :
    outcomes (only call.id outcome) (before ++ call :: after) = [(call.ticket, outcome)] := by
  have hn : ∀ other ∈ before ++ after, only call.id outcome other = none := by
    intro other mem
    rw [← spared_only outcome h] at mem
    simpa using (List.mem_filter.mp mem).right
  have hb := outcomes_of_none fun other mem => hn other <| List.mem_append_left _ mem
  have ha := outcomes_of_none fun other mem => hn other <| List.mem_append_right _ mem
  rw [outcomes] at hb ha ⊢
  rw [List.filterMap_append, hb, List.filterMap_cons, ha]
  simp [only]

theorem retire_only (outcome : Outcome LinkError) (h : c.Coherent)
    (hc : c.calls = before ++ call :: after) :
    c.retire (only call.id outcome) = { c with
      pending  := .ofCalls (before ++ after)
      calls    := before ++ after
      finished := c.finished ++ [(call.ticket, outcome)] } := by
  have hi := hc ▸ h.ids
  rw [Connection.retire, hc, spared_only outcome hi, outcomes_only outcome hi]

theorem finish_eq (outcome : Outcome LinkError) (h : (c.calls.map (·.ticket)).Nodup)
    (hc : c.calls = before ++ call :: after) :
    c.finish call.ticket outcome = { c with
      calls := before ++ after, finished := c.finished ++ [(call.ticket, outcome)] } := by
  have hm : c.calls.any (·.ticket = call.ticket) := by simp [hc]
  rw [finish, if_pos hm, hc, filter_ne_middle <| hc ▸ h]

theorem erase_eq (h : c.Coherent) (hc : c.calls = before ++ call :: after) :
    c.pending.erase call.id = .ofCalls (before ++ after) := by
  rw [h.pending, Pending.erase_ofCalls, hc, filter_ne_middle <| hc ▸ h.ids]

theorem abandon_eq (outcome : Outcome LinkError) (h : c.Coherent) (mem : call ∈ c.calls) :
    c.abandon call outcome = c.retire (only call.id outcome) := by
  obtain ⟨before, after, hc⟩ := List.append_of_mem mem
  rw [abandon, erase_eq h hc, retire_only outcome h hc]
  exact finish_eq (c := { c with pending := _ }) outcome h.tickets hc

theorem cancel_eq (h : c.Coherent) (ticket : Nat) :
    (c.cancel ticket).2 =
      c.retire fun call => if call.ticket = ticket then some .cancelled else none := by
  rw [cancel]
  split
  case h_1 call hs =>
    -- No other call has the id of this one, so abandoning its id ends the call of the ticket only.
    have mem := List.mem_of_find?_eq_some hs
    have ht := List.find?_some hs
    simp only [decide_eq_true_eq] at ht
    rw [abandon_eq _ h mem]
    apply retire_congr
    intro other hm
    have hi : other.id = call.id ↔ other.ticket = ticket := by
      constructor <;> intro he
      case mp  => rw [List.inj_on_of_nodup_map h.ids hm mem he, ht]
      case mpr => rw [List.inj_on_of_nodup_map h.tickets hm mem (he.trans ht.symm)]
    simp [only, hi]
  case h_2 hn =>
    simp only [List.find?_eq_none, decide_eq_true_eq] at hn
    rw [retire_none h]
    exact fun call mem => if_neg <| hn call mem

theorem failRequest_eq (h : c.Coherent) (id : Nat) (error : LinkError) :
    c.failRequest id error = c.retire (only id (.failed error)) := by
  rw [failRequest, h.pending, Pending.ticket?_ofCalls]
  cases hs : c.calls.find? (·.id = id)
  case none =>
    simp only [List.find?_eq_none, decide_eq_true_eq] at hs
    exact retire_none h (fun call mem => if_neg <| hs call mem) |>.symm
  case some call =>
    have mem := List.mem_of_find?_eq_some hs
    have hi := List.find?_some hs
    simp only [decide_eq_true_eq] at hi
    subst hi
    simp only [Option.map_some, ← h.pending]
    exact abandon_eq _ h mem

def timedOut (now : Nat) (call : Call) : Option (Outcome LinkError) :=
  (call.overdue? now).map fun limit => .failed (.timeout limit)

-- A call with a limit, but not of zero, has time left when it is made.
theorem overdue?_new {request : Request} (hl : ∀ limit ∈ request.limit, limit.nanos ≠ 0)
    (ticket id now : Nat) :
    Call.overdue? ⟨ticket, id, request.purpose, request.limit, now⟩ now = none := by
  refine Option.filter_eq_none_iff.mpr fun limit mem => ?_
  have hp := hl limit mem
  have ht : 0 < limit.ticks := Nat.div_pos (by omega) (by decide)
  exact fun hd => absurd (of_decide_eq_true hd) (by simp only; omega)

-- The calls in `kept` have been looked at and go on, those in `todo` are still to be looked at.
theorem expire_loop {todo : List Call} (now : Nat) (kept : List Call) (h : c.Coherent)
    (hc : c.calls = kept ++ todo) :
    (todo.foldl (fun c call =>
      match call.overdue? now with
      | some limit => c.abandon call (.failed (.timeout limit))
      | none       => c) c) =
    { c with
      pending  := .ofCalls (kept ++ spared (timedOut now) todo)
      calls    := kept ++ spared (timedOut now) todo
      finished := c.finished ++ outcomes (timedOut now) todo } := by
  induction todo generalizing c kept
  case nil => simp [spared, outcomes, ← hc, ← h.pending]
  case cons call todo hi =>
    rw [List.foldl_cons]
    cases ho : call.overdue? now
    case none =>
      rw [hi (kept ++ [call]) h (by simpa using hc)]
      simp [spared, outcomes, timedOut, ho]
    case some limit =>
      have mem : call ∈ c.calls := by simp [hc]
      have hr := retire_only (.failed (.timeout limit)) h hc
      simp only [abandon_eq _ h mem]
      rw [hi kept h.retire (by rw [hr])]
      simp [hr, spared, outcomes, timedOut, ho]

theorem expire_eq (h : c.Coherent) (now : Nat) : c.expire now = c.retire (timedOut now) := by
  rw [expire]
  exact expire_loop now [] h rfl

-- Each round ends the first call that is left, so the calls end in their order.
theorem shutDown_loop (h : (c.calls.map (·.ticket)).Nodup) :
    (c.calls.map (·.ticket)).foldl (fun c ticket => c.finish ticket (.failed .closed)) c =
    { c with
      calls    := []
      finished := c.finished ++ c.calls.map fun call => (call.ticket, .failed .closed) } := by
  generalize hc : c.calls = calls
  induction calls generalizing c
  case nil => obtain ⟨⟩ := c; simp_all
  case cons call calls hi =>
    have hf := finish_eq (.failed .closed) h (hc.trans (List.nil_append _).symm)
    rw [hc] at h
    simp only [List.map_cons, List.foldl_cons, hf]
    rw [hi (by simpa using h.of_cons) (by simp)]
    simp

theorem shutDown_eq (h : c.Coherent) :
    c.shutDown =
      { c.retire fun _ => some (.failed .closed) with closed := true, hub := c.hub.close } := by
  rw [shutDown]
  split
  -- There is no call left to retire, and the hub is closed too.
  case isTrue hc =>
    rw [retire_none h (by simp [h.closed hc]), c.hub.close_of_closed (h.hub.trans hc)]
    obtain ⟨⟩ := c
    simp_all
  case isFalse hc =>
    have hl := shutDown_loop (c := { c with closed := true, hub := c.hub.close, pending := .empty })
      h.tickets
    rw [h.pending, Pending.tickets_ofCalls, hl]
    simp [Connection.retire, spared, outcomes, Pending.ofCalls, Pending.empty]

-- What a frame tells a call: nothing, unless it carries the id of the call.
def answered (frame : Fields) (call : Call) : Option (Outcome LinkError) :=
  if Frame.requestId? frame = some call.id then some (call.purpose.verdict frame) else none

theorem find?_ticket (h : c.Coherent) (mem : call ∈ c.calls) :
    c.calls.find? (·.ticket = call.ticket) = some call := by
  cases hs : c.calls.find? (·.ticket = call.ticket)
  case none => simpa using List.find?_eq_none.mp hs call mem
  case some other =>
    have ht := List.find?_some hs
    simp only [decide_eq_true_eq] at ht
    rw [List.inj_on_of_nodup_map h.tickets (List.mem_of_find?_eq_some hs) mem ht]

theorem find?_id (h : c.Coherent) (mem : call ∈ c.calls) :
    c.calls.find? (·.id = call.id) = some call := by
  cases hs : c.calls.find? (·.id = call.id)
  case none => simpa using List.find?_eq_none.mp hs call mem
  case some other =>
    have hi := List.find?_some hs
    simp only [decide_eq_true_eq] at hi
    rw [List.inj_on_of_nodup_map h.ids (List.mem_of_find?_eq_some hs) mem hi]

theorem Coherent.ticket?_id (h : c.Coherent) (mem : call ∈ c.calls) :
    c.pending.ticket? call.id = some call.ticket := by
  rw [h.pending, Pending.ticket?_ofCalls, find?_id h mem, Option.map_some]

theorem answer_eq (h : c.Coherent) (mem : call ∈ c.calls) (reply : Fields) :
    answer { c with pending := c.pending.erase call.id } call.ticket reply =
      { c.retire (only call.id (call.purpose.verdict reply)) with
        active := (call.purpose.conclude c.active reply).2 } := by
  simp only [answer, find?_ticket h mem, Purpose.conclude_fst, ← abandon_eq _ h mem, abandon]

theorem routeFrame_eq (h : c.Coherent) (frame : Fields) :
    c.routeFrame frame =
      match c.calls.find? (Frame.requestId? frame = some ·.id) with
      | some call => { c.retire (answered frame) with
          active := (call.purpose.conclude c.active frame).2 }
      | none => c.push frame := by
  rw [routeFrame]
  cases hf : Frame.requestId? frame
  case none =>
    have hn : c.calls.find? (fun call => none = some call.id) = none := by simp
    simp only [hn]
  case some id =>
    have he (call : Call) : some id = some call.id ↔ call.id = id := by simp [eq_comm]
    simp only [h.pending, Pending.ticket?_ofCalls, he]
    cases hs : c.calls.find? (·.id = id)
    case none => rfl
    case some call =>
      have mem := List.mem_of_find?_eq_some hs
      have hi := List.find?_some hs
      simp only [decide_eq_true_eq] at hi
      subst hi
      simp only [Option.map_some, ← h.pending, answer_eq h mem]
      -- The frame answers this call and no other, since no other has its id.
      have hr : c.retire (only call.id (call.purpose.verdict frame)) =
          c.retire (answered frame) := by
        apply retire_congr
        intro other hm
        by_cases hi : other.id = call.id
        case pos => simp [only, answered, hf, List.inj_on_of_nodup_map h.ids hm mem hi]
        case neg => simp [only, answered, hf, hi, Ne.symm hi]
      rw [hr]

end Connection
end LedgerWire
