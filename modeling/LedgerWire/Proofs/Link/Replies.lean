import LedgerWire.Proofs.Link.Arrivals

namespace LedgerWire

-- The frame in a text, if the id that it carries is this one.
def Frame.carrying? (id : Nat) (text : String) : Option Fields :=
  (ofText? text).filter (requestId? · = some id)

theorem Frame.requestId?_of_get? {frame : Fields} {id : Nat}
    (hg : frame.get? idField = some (.int id)) (hi : id < 2 ^ 64) : requestId? frame = some id := by
  rw [requestId?, hg, Option.bind_some, Json.unsigned?, if_pos (by omega)]
  simp

namespace Connection

variable {c : Connection}

-- What a text tells a call: nothing, unless it holds a frame that carries the id of the call.
def replied (text : String) (call : Call) : Option (Outcome LinkError) :=
  (Frame.carrying? call.id text).map call.purpose.verdict

-- Only one call can have the id that a text carries.
theorem outcomes_replied {calls : List Call} {call : Call} {text : String} {frame : Fields}
    (h : (calls.map (·.id)).Nodup) (mem : call ∈ calls)
    (hf : Frame.carrying? call.id text = some frame) :
    outcomes (replied text) calls = [(call.ticket, call.purpose.verdict frame)] := by
  have ⟨ht, hi⟩ := Option.filter_eq_some_iff.mp hf
  simp only [decide_eq_true_eq] at hi
  have ho : outcomes (replied text) calls =
      outcomes (only call.id (call.purpose.verdict frame)) calls := by
    refine List.filterMap_congr fun other hm => ?_
    by_cases he : other.id = call.id
    case pos => simp [replied, only, List.inj_on_of_nodup_map h hm mem he, hf]
    case neg => simp [replied, only, Frame.carrying?, ht, hi, Option.filter, he, Ne.symm he]
  obtain ⟨before, after, rfl⟩ := List.append_of_mem mem
  rw [ho, outcomes_only _ h]

theorem route_eq (h : c.Coherent) (text : String) : ∃ active hub,
    c.route text = { c.retire (replied text) with active, hub } := by
  rw [route]
  split
  case h_2 hf =>
    rw [retire_none h (by simp [replied, Frame.carrying?, hf])]
    exact ⟨_, _, rfl⟩
  case h_1 frame hf =>
    have hr : c.retire (replied text) = c.retire (answered frame) := by
      apply retire_congr
      intro call _
      by_cases hi : Frame.requestId? frame = some call.id
      all_goals simp [replied, answered, Frame.carrying?, hf, hi, Option.filter]
    rw [routeFrame_eq h, hr]
    split
    case h_1 => exact ⟨_, _, rfl⟩
    case h_2 hn =>
      have hn : ∀ call ∈ c.calls, answered frame call = none := fun call mem => by
        simpa [answered] using List.find?_eq_none.mp hn call mem
      rw [retire_none h hn]
      obtain ⟨hub, hp⟩ := c.push_effect frame
      exact ⟨_, hub, hp⟩

end Connection

-- The outcomes of calls that no reply has ended, if sending meets these faults.
inductive Outcome.Unanswered (faults : List LinkError) : Outcome LinkError → Prop
  | cancelled : Unanswered faults .cancelled
  | timeout (limit : Duration) : Unanswered faults (.failed (.timeout limit))
  | exhausted : Unanswered faults (.failed .idsExhausted)
  | closed : Unanswered faults (.failed .closed)
  | unwritten {error : LinkError} : error ∈ faults → Unanswered faults (.failed error)

namespace Connection

variable {c : Connection} {tickets : Nat} {log : List Call} {shown : List (Nat × Outcome LinkError)}

-- No outcome that waits to be shown is that of a reply.
structure Unanswered (faults : List LinkError) (c : Connection) (tickets : Nat) (log : List Call)
    (shown : List (Nat × Outcome LinkError)) : Prop where
  accounts : c.Accounts tickets log shown
  finished : ∀ p ∈ c.finished, p.2.Unanswered faults

namespace Unanswered

variable {faults : List LinkError}

theorem retire {verdict : Call → Option (Outcome LinkError)}
    (h : c.Unanswered faults tickets log shown)
    (hv : ∀ call outcome, verdict call = some outcome → outcome.Unanswered faults) :
    (c.retire verdict).Unanswered faults tickets log shown where
  accounts := h.accounts.retire
  finished := by
    intro p mem
    obtain mem | ⟨call, _, outcome, ho, rfl⟩ := mem_finished_retire.mp mem
    case inl => exact h.finished p mem
    case inr => exact hv call outcome ho

theorem expire (h : c.Unanswered faults tickets log shown) (now : Nat) :
    (c.expire now).Unanswered faults tickets log shown := by
  rw [expire_eq h.accounts.coherent]
  apply h.retire
  intro call outcome ho
  have ⟨limit, _, hl⟩ := Option.map_eq_some_iff.mp ho
  exact hl ▸ .timeout limit

theorem cancel (h : c.Unanswered faults tickets log shown) (ticket : Nat) :
    (c.cancel ticket).2.Unanswered faults tickets log shown := by
  rw [cancel_eq h.accounts.coherent]
  apply h.retire
  intro call outcome ho
  split at ho <;> cases ho
  exact .cancelled

theorem failRequest (h : c.Unanswered faults tickets log shown) (id : Nat) {error : LinkError}
    (he : Link.Unwritten faults error) :
    (c.failRequest id error).Unanswered faults tickets log shown := by
  rw [failRequest_eq h.accounts.coherent]
  apply h.retire
  intro call outcome ho
  rw [only] at ho
  split at ho <;> cases ho
  cases he
  case inl he => exact he ▸ .closed
  case inr he => exact .unwritten he

theorem shutDown (h : c.Unanswered faults tickets log shown) :
    c.shutDown.Unanswered faults tickets log shown where
  accounts := h.accounts.shutDown
  finished := by
    rw [shutDown_eq h.accounts.coherent]
    have hr : (c.retire fun _ => some (.failed .closed)).Unanswered faults tickets log shown :=
      h.retire fun _ _ ho => by cases ho; exact .closed
    exact hr.finished

theorem call (h : c.Unanswered faults tickets log shown) (now : Nat) (request : Request) :
    (c.call tickets now request).Unanswered faults (tickets + 1)
      (log ++ (c.dispatch? tickets now request).toList) shown := by
  rw [Connection.call]
  cases ha : c.allocate?
  case ok id =>
    have hd : (c.dispatch id tickets now request).Unanswered faults (tickets + 1)
        (log ++ [⟨tickets, id, request.purpose, request.limit, now⟩]) shown :=
      ⟨h.accounts.dispatch ha, h.finished⟩
    simpa [dispatch?, ha] using hd.expire now
  case error error =>
    have hr := h.accounts.refuse (.failed error)
    refine ⟨by simpa [dispatch?, ha] using hr, ?_⟩
    intro p mem
    cases List.mem_append.mp mem
    case inl mem => exact h.finished p mem
    case inr mem =>
      cases List.mem_singleton.mp mem
      cases allocate?_error ha
      case inl he => exact he ▸ .closed
      case inr he => exact he ▸ .exhausted

end Unanswered
end Connection

namespace Link

open Connection (replied outcomes outcomes_of_none outcomes_replied spared retire)

variable {link : Link} {log : List Call} {shown : List (Nat × Outcome LinkError)}

theorem mem_step_finished {event : Event} {p : Nat × Outcome LinkError} :
    p ∈ (link.step event).1.finished ↔ p ∈ (link.onEvent event).2.settle.connection.finished :=
  List.mem_mergeSort

namespace Settled

theorem unanswered (h : link.Settled) (ha : link.Accounts log shown) {event : Event}
    (hn : ∀ text, event ≠ .peerSend text) :
    ∀ p ∈ (link.step event).1.finished, p.2.Unanswered (link.onEvent event).2.faults.sends := by
  generalize hf : (link.onEvent event).2.faults.sends = faults
  have he : (link.onEvent event).2.connection.Unanswered faults (link.onEvent event).2.tickets
      (log ++ link.dispatched (link.requests event)) shown := by
    refine EventsKeep.onEvent (P := (Connection.Unanswered faults · · · shown)) ?_ log ?_ event
    · constructor
      case call   => exact fun c _ _ now request hc => hc.call now request
      case expire => exact fun c _ _ now hc => hc.expire now
      case cancel => exact fun c _ _ ticket hc => hc.cancel ticket
      case hub    => exact fun c _ _ hub hh hc => ⟨hc.accounts.of_hub hh, hc.finished⟩
      case close  => exact fun c _ _ hc =>
        Connection.Unanswered.shutDown ⟨hc.accounts.of_outbound _, hc.finished⟩
    · exact ⟨ha, by simp [h.finished]⟩
  generalize log ++ link.dispatched (link.requests event) = log at he
  -- The loops fail requests and end the connection, but they route no text.
  have hs := h.settle_keeps hn (P := (Connection.Unanswered faults · _ log shown))
    ⟨fun c id error hu hc => hc.failRequest id (hf ▸ hu), fun c hc => hc.shutDown⟩
    ⟨he.accounts.of_outbound _, he.finished⟩
  intro p mem
  rw [mem_step_finished] at mem
  exact hs.finished p mem

-- What a text does. If the link does not read any more it has closed, and then no call is there for
-- the text to end.
theorem settle_peerSend (h : link.Settled) (ha : link.Accounts log shown) (text : String) :
    ∃ active hub, (link.onEvent (.peerSend text)).2.settle.connection =
      { link.connection.retire (Connection.replied text) with active, hub } := by
  rw [h.settle_peerSend_connection, h.heard_peerSend]
  cases hr : link.reading
  case true => exact Connection.route_eq ha.coherent text
  case false =>
    have hv : ∀ call ∈ link.connection.calls, Connection.replied text call = none := by
      simp [ha.coherent.closed <| h.closed hr]
    rw [Connection.retire_none ha.coherent hv]
    exact ⟨_, _, rfl⟩

theorem step_peerSend (h : link.Settled) (ha : link.Accounts log shown) (text : String) :
    (link.step (.peerSend text)).1.finished =
      (outcomes (replied text) link.connection.calls).mergeSort (·.1 ≤ ·.1) ∧
    (link.step (.peerSend text)).2.connection.calls =
      spared (replied text) link.connection.calls := by
  have ⟨active, hub, hs⟩ := h.settle_peerSend ha text
  have hf : (link.onEvent (.peerSend text)).2.settle.connection.finished =
      outcomes (replied text) link.connection.calls := by
    simp [hs, retire, h.finished]
  constructor
  case left  => simp only [Link.step, work, harvest, hf]
  case right => simp only [Link.step, work, harvest, collect, hs, retire]

theorem at_most_one_reply (h : link.Settled) (ha : link.Accounts log shown) (text : String) :
    (link.step (.peerSend text)).1.finished = [] ∨
      ∃ call ∈ link.connection.calls, ∃ frame, Frame.carrying? call.id text = some frame ∧
        (link.onEvent (.peerSend text)).1 = .sent ∧
        (link.step (.peerSend text)).1.finished = [(call.ticket, call.purpose.verdict frame)] := by
  rw [(h.step_peerSend ha text).left]
  by_cases hn : ∀ call ∈ link.connection.calls, replied text call = none
  case pos => exact .inl (by rw [outcomes_of_none hn, List.mergeSort_nil])
  case neg =>
    simp only [not_forall] at hn
    have ⟨call, mem, hc⟩ := hn
    have ⟨frame, hf⟩ := Option.ne_none_iff_exists'.mp fun h => hc <| Option.map_eq_none_iff.mpr h
    refine .inr ⟨call, mem, frame, hf, ?_, ?_⟩
    case refine_1 =>
      -- A link that does not read any more has closed, and then no call is under way.
      cases hr : link.reading
      case true  => rw [h.onEvent_peerSend hr]
      case false => simp [ha.coherent.closed <| h.closed hr] at mem
    case refine_2 => rw [outcomes_replied ha.coherent.ids mem hf, List.mergeSort_singleton]

-- Whatever comes before it, the first text that carries the id of a call ends that call.
theorem first_reply (h : link.Settled) (ha : link.Accounts log shown) {call : Call}
    (mem : call ∈ link.connection.calls) {frame : Fields} {texts : List String}
    (hf : texts.findSome? (Frame.carrying? call.id) = some frame) :
    (call.ticket, call.purpose.verdict frame) ∈ link.endings (texts.map .peerSend) := by
  induction texts generalizing link log shown
  case nil => cases hf
  case cons text texts hi =>
    have ⟨hs, hc⟩ := h.step_peerSend ha text
    simp only [endings, List.map_cons, Link.run, List.flatMap_cons, List.mem_append]
    rw [List.findSome?_cons] at hf
    split at hf
    case h_1 hr =>
      cases hf
      rw [hs, outcomes_replied ha.coherent.ids mem hr]
      exact .inl (by simp)
    -- The call survives a text that does not carry its id, and so waits for the rest.
    case h_2 hr =>
      refine .inr <| hi (h.step _) (ha.step _) ?_ hf
      rw [hc]
      exact Connection.mem_calls_retire.mpr ⟨mem, by simp [replied, hr]⟩

end Settled

-- A call ends at most once. Each text of the peer ends at most one call: one that was dispatched
-- before it came, that nothing had ended yet, and whose id it carries. In a sequence of texts the
-- first that carries the id of a call is the one that ends it, whatever comes before and between.
theorem replies_end_their_calls (config : LinkConfig) (events : List Event) :
    let link  := (start config).after events
    let log   := (start config).history events
    let ended := (start config).endings events
    (log.map (·.ticket)).Nodup ∧ (ended.map (·.1)).Nodup ∧
      (∀ text, (link.step (.peerSend text)).1.finished = [] ∨
        ∃ call ∈ underWay log ended, ∃ frame, Frame.carrying? call.id text = some frame ∧
          (link.onEvent (.peerSend text)).1 = .sent ∧
          (link.step (.peerSend text)).1.finished = [(call.ticket, call.purpose.verdict frame)]) ∧
      (∀ event, (∀ text, event ≠ .peerSend text) → ∀ p ∈ (link.step event).1.finished,
        p.2.Unanswered (link.onEvent event).2.faults.sends) ∧
      (∀ texts : List String, ∀ call ∈ underWay log ended, ∀ frame,
        texts.findSome? (Frame.carrying? call.id) = some frame →
          (call.ticket, call.purpose.verdict frame) ∈ link.endings (texts.map .peerSend)) := by
  have ha := Accounts.start config |>.run events
  have hs := Settled.start config |>.run events
  have ht := ha.tickets.nodup_iff.mpr List.nodup_range
  dsimp only
  rw [← calls_eq_underWay]
  refine ⟨List.nodup_range.sublist ha.logged, ?_, hs.at_most_one_reply ha,
    fun event => hs.unanswered ha, fun texts call mem frame => hs.first_reply ha mem⟩
  simpa [hs.finished] using (List.nodup_append.mp ht).left

end Link
end LedgerWire
