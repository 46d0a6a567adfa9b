import LedgerWire.Proofs.Link.Replies
import Mathlib.Data.Set.Basic

namespace LedgerWire

namespace Stream.Names

variable {names : Names}

def members (names : Names) : Set String :=
  {name | name ∈ names}

@[simp] theorem members_empty : empty.members = ∅ :=
  Set.eq_empty_of_forall_notMem not_mem_empty

@[simp] theorem members_insertAll (more : List String) :
    (names.insertAll more).members = names.members ∪ {name | name ∈ more} := by
  apply Set.ext
  exact fun name => mem_insertAll.trans or_comm

@[simp] theorem members_eraseAll (fewer : List String) :
    (names.eraseAll fewer).members = names.members \ {name | name ∈ fewer} := by
  apply Set.ext
  exact fun name => mem_eraseAll

-- Ascending lists with the same members are the same list.
theorem members_injective : Function.Injective members := by
  intro ⟨_, ha⟩ ⟨_, hb⟩ h
  have hp := (List.perm_ext_iff_of_nodup ha.nodup hb.nodup).mpr (Set.ext_iff.mp h)
  cases hp.eq_of_pairwise (fun _ _ _ _ hab hba => absurd hba (String.lt_asymm hab)) ha hb
  rfl

end Stream.Names

namespace Frame

variable {reply : Fields}

-- A reply accepts its request if it says nothing about an error.
structure Accepts (reply : Fields) : Prop where
  error  : reply.get? errorField = none
  status : reply.get? statusField ≠ some (.string "error")

theorem bind_string?_eq_some {value : Option Json} {s : String} :
    value.bind Json.string? = some s ↔ value = some (.string s) := by
  rcases value with _ | _ | _ | _ | _ | _ | _ | _ <;> simp [Json.string?]

theorem refusal?_eq_none : refusal? reply = none ↔ Accepts reply := by
  rw [refusal?]
  split
  case h_1 value he => exact iff_of_false nofun fun h => nomatch he.symm.trans h.error
  case h_2 he =>
    split
    case isTrue hs  => exact iff_of_false nofun fun h => h.status (bind_string?_eq_some.mp hs)
    case isFalse hs => exact iff_of_true rfl ⟨he, mt bind_string?_eq_some.mpr hs⟩

end Frame

namespace Purpose

variable {purpose : Purpose} {frame reply : Fields}

-- What an accepted call does to the names of the active streams.
def amend : Purpose → Set String → Set String
  | command, names           => names
  | subscribe more, names    => names ∪ {name | name ∈ more}
  | unsubscribe fewer, names => names \ {name | name ∈ fewer}

theorem verdict_eq_replied_iff :
    purpose.verdict frame = .replied reply ↔
      reply = frame ∧ (purpose = .command ∨ Frame.Accepts frame) := by
  rw [← Frame.refusal?_eq_none]
  cases purpose <;> cases hr : Frame.refusal? frame <;> simp [verdict, conclude, hr, eq_comm]

theorem members_conclude (purpose : Purpose) (active : Stream.Names) (reply : Fields) :
    (purpose.conclude active reply).2.members =
      match purpose.verdict reply with
      | .replied _ => purpose.amend active.members
      | _          => active.members := by
  cases purpose <;> cases hr : Frame.refusal? reply <;> simp [verdict, conclude, amend, hr]

end Purpose

-- What an outcome does to these names, if the log holds the call that ended with it.
def amended (log : List Call) (names : Set String) (p : Nat × Outcome LinkError) : Set String :=
  match p.2, log.find? (·.ticket = p.1) with
  | .replied _, some call => call.purpose.amend names
  | _, _                  => names

theorem amended_of_unanswered {faults : List LinkError} {p : Nat × Outcome LinkError}
    (h : p.2.Unanswered faults) (log : List Call) (names : Set String) :
    amended log names p = names := by
  obtain ⟨_, outcome⟩ := p
  cases h <;> rfl

-- Calls that come later do not matter to an outcome whose call is known.
theorem amended_append {log : List Call} {p : Nat × Outcome LinkError}
    (h : ∀ reply, p.2 = .replied reply → ∃ call ∈ log, call.ticket = p.1) (more : List Call)
    (names : Set String) : amended (log ++ more) names p = amended log names p := by
  obtain ⟨ticket, reply | _ | _⟩ := p
  case replied =>
    have ⟨call, mem, ht⟩ := h reply rfl
    have hs : (log.find? (·.ticket = ticket)).isSome :=
      List.find?_isSome.mpr ⟨call, mem, decide_eq_true ht⟩
    simp only [amended, List.find?_append, Option.or_of_isSome hs]
  all_goals rfl

theorem amended_call {log : List Call} {call : Call}
    (h : log.find? (·.ticket = call.ticket) = some call) (active : Stream.Names) (frame : Fields) :
    amended log active.members (call.ticket, call.purpose.verdict frame) =
      (call.purpose.conclude active frame).2.members := by
  rw [Purpose.members_conclude]
  simp only [amended, h]
  cases call.purpose.verdict frame <;> rfl

namespace Connection

variable {c : Connection} {text : String}

theorem replied_cases (h : (c.calls.map (·.id)).Nodup) (text : String) :
    outcomes (replied text) c.calls = [] ∨ ∃ call ∈ c.calls, ∃ frame,
      Frame.carrying? call.id text = some frame ∧
        outcomes (replied text) c.calls = [(call.ticket, call.purpose.verdict frame)] := by
  by_cases hn : ∀ call ∈ c.calls, replied text call = none
  case pos => exact .inl <| outcomes_of_none hn
  case neg =>
    simp only [not_forall] at hn
    have ⟨call, mem, hc⟩ := hn
    have ⟨frame, hf⟩ := Option.ne_none_iff_exists'.mp fun h => hc <| Option.map_eq_none_iff.mpr h
    exact .inr ⟨call, mem, frame, hf, outcomes_replied h mem hf⟩

-- A text that carries the id of a call answers that call, and does nothing else.
theorem route_of_carrying (h : c.Coherent) {call : Call} (mem : call ∈ c.calls) {frame : Fields}
    (hf : Frame.carrying? call.id text = some frame) :
    c.route text = { c.retire (only call.id (call.purpose.verdict frame)) with
      active := (call.purpose.conclude c.active frame).2 } := by
  have ⟨ht, hi⟩ := Option.filter_eq_some_iff.mp hf
  simp only [route, ht, routeFrame, of_decide_eq_true hi, h.ticket?_id mem]
  exact answer_eq h mem frame

theorem active_push (c : Connection) (frame : Fields) : (c.push frame).active = c.active := by
  have ⟨_, h⟩ := c.push_effect frame
  rw [h]

-- A text changes the active streams as the call does that it answers.
theorem active_route (h : c.Coherent) {log : List Call}
    (hl : ∀ call ∈ c.calls, log.find? (·.ticket = call.ticket) = some call) (text : String) :
    (c.route text).active.members =
      (outcomes (replied text) c.calls).foldl (amended log) c.active.members := by
  rw [route]
  cases hf : Frame.ofText? text
  case none =>
    rw [outcomes_of_none (by simp [replied, Frame.carrying?, hf])]
    rfl
  case some frame =>
    simp only [routeFrame_eq h]
    split
    case h_1 call hs =>
      have mem := List.mem_of_find?_eq_some hs
      have hi := List.find?_some hs
      have hc : Frame.carrying? call.id text = some frame := by
        simpa [Frame.carrying?, hf, Option.filter] using hi
      rw [outcomes_replied h.ids mem hc, List.foldl_cons, List.foldl_nil, amended_call (hl call mem)]
    case h_2 hn =>
      have hn : ∀ call ∈ c.calls, replied text call = none := fun call mem => by
        simpa [replied, Frame.carrying?, hf, Option.filter] using List.find?_eq_none.mp hn call mem
      rw [outcomes_of_none hn]
      exact congrArg _ <| c.active_push frame

end Connection

namespace Link

open Connection (outcomes outcomes_of_none outcomes_replied replied replied_cases)

variable {link : Link} {event : Event} {log : List Call} {shown : List (Nat × Outcome LinkError)}

theorem active_onEvent (link : Link) (event : Event) :
    (link.onEvent event).2.connection.active = link.connection.active := by
  refine EventsKeep.onEvent (P := fun c _ _ => c.active = link.connection.active) ?_ [] rfl event
  constructor
  case call =>
    intro c ticket _ now request hc
    have ⟨_, _, _, _, _, h⟩ := c.call_effect ticket now request
    exact h ▸ hc
  case expire =>
    intro c _ _ now hc
    have ⟨_, _, _, h⟩ := c.expire_effect now
    exact h ▸ hc
  case cancel =>
    intro c _ _ ticket hc
    have ⟨_, _, _, h⟩ := c.cancel_effect ticket
    exact h ▸ hc
  case hub => exact fun c _ _ hub _ hc => hc
  case close =>
    intro c _ _ hc
    have ⟨_, _, _, _, h⟩ := Connection.shutDown_effect { c with outbound := c.outbound ++ [.close] }
    rw [Connection.close, h]
    exact hc

namespace Settled

theorem active_step_of_ne (h : link.Settled) (hn : ∀ text, event ≠ .peerSend text) :
    (link.step event).2.connection.active = link.connection.active := by
  refine h.settle_keeps hn (P := (·.active = link.connection.active)) ⟨?_, ?_⟩
    (link.active_onEvent event)
  · intro c id error _ hc
    have ⟨_, _, _, h⟩ := c.failRequest_effect id error
    exact h ▸ hc
  · intro c hc
    have ⟨_, _, _, _, h⟩ := c.shutDown_effect
    exact h ▸ hc

theorem active_step_peerSend (h : link.Settled) (ha : link.Accounts log shown)
    {log' : List Call}
    (hl : ∀ call ∈ link.connection.calls, log'.find? (·.ticket = call.ticket) = some call)
    (text : String) :
    (link.step (.peerSend text)).2.connection.active.members =
      (link.step (.peerSend text)).1.finished.foldl (amended log')
        link.connection.active.members := by
  have hc : (link.step (.peerSend text)).2.connection.active.members =
      (outcomes (replied text) link.connection.calls).foldl (amended log')
        link.connection.active.members := by
    have hs := congrArg Connection.active (h.settle_peerSend_connection text)
    rw [h.heard_peerSend] at hs
    cases hr : link.reading
    case true =>
      rw [hr] at hs
      exact (congrArg _ hs).trans <| Connection.active_route ha.coherent hl text
    -- A link that does not read any more has closed, and then no call is under way.
    case false =>
      rw [hr] at hs
      rw [ha.coherent.closed <| h.closed hr]
      exact congrArg _ hs
  rw [hc, (h.step_peerSend ha text).left]
  rcases replied_cases ha.coherent.ids text with ho | ⟨_, _, _, _, ho⟩
  case inl => rw [ho, List.mergeSort_nil]
  case inr => rw [ho, List.mergeSort_singleton]

-- The calls that end in a step change the active streams, and nothing else does.
theorem active_step (h : link.Settled) (ha : link.Accounts log shown) {log' : List Call}
    (hl : ∀ call ∈ link.connection.calls, log'.find? (·.ticket = call.ticket) = some call)
    (event : Event) :
    (link.step event).2.connection.active.members =
      (link.step event).1.finished.foldl (amended log') link.connection.active.members := by
  rcases event.arrives with hn | ⟨text, rfl⟩
  case inl =>
    rw [h.active_step_of_ne hn]
    have hu := h.unanswered ha hn
    generalize (link.step event).1.finished = finished at hu
    induction finished
    case nil => rfl
    case cons p finished hi =>
      rw [List.foldl_cons, amended_of_unanswered (hu p (.head _))]
      exact hi fun p mem => hu p (.tail _ mem)
  case inr => exact h.active_step_peerSend ha hl text

end Settled

theorem Accounts.find?_ticket (h : link.Accounts log shown) {call : Call} (mem : call ∈ log)
    (more : List Call) : (log ++ more).find? (·.ticket = call.ticket) = some call := by
  have hn : (log.map (·.ticket)).Nodup := List.nodup_range.sublist h.logged
  rw [List.find?_append]
  cases hs : log.find? (·.ticket = call.ticket)
  case none => simpa using List.find?_eq_none.mp hs call mem
  case some other =>
    have ht := List.find?_some hs
    simp only [decide_eq_true_eq] at ht
    rw [List.inj_on_of_nodup_map hn (List.mem_of_find?_eq_some hs) mem ht]
    rfl

theorem Accounts.mem_log (h : link.Accounts log shown) {call : Call}
    (mem : call ∈ link.connection.calls) : call ∈ log := by
  rw [h.calls, mem_underWay] at mem
  exact mem.left

-- The active streams are what these outcomes have made of none. A reply among them is that of a
-- call in the log, and was accepted if it had to be.
structure Registered (link : Link) (log : List Call) (shown : List (Nat × Outcome LinkError)) :
    Prop where
  active : link.connection.active.members = shown.foldl (amended log) ∅
  known  : ∀ p ∈ shown, ∀ reply, p.2 = .replied reply → ∃ call ∈ log, call.ticket = p.1 ∧
    (call.purpose = .command ∨ Frame.Accepts reply)

namespace Registered

theorem start (config : LinkConfig) : (start config).Registered [] [] :=
  ⟨Stream.Names.members_empty, List.forall_mem_nil _⟩

theorem known_step (hs : link.Settled) (ha : link.Accounts log shown) :
    ∀ p ∈ (link.step event).1.finished, ∀ reply, p.2 = .replied reply →
      ∃ call ∈ log, call.ticket = p.1 ∧ (call.purpose = .command ∨ Frame.Accepts reply) := by
  intro p mem reply hp
  rcases event.arrives with hn | ⟨text, rfl⟩
  case inl =>
    have hu := hs.unanswered ha hn p mem
    rw [hp] at hu
    cases hu
  case inr =>
    rcases hs.at_most_one_reply ha text with hf | ⟨call, hc, frame, _, _, hf⟩
    all_goals rw [hf] at mem
    case inl => cases mem
    case inr =>
      cases List.mem_singleton.mp mem
      have ⟨heq, hv⟩ := Purpose.verdict_eq_replied_iff.mp hp
      exact ⟨call, ha.mem_log hc, rfl, heq ▸ hv⟩

theorem step (h : link.Registered log shown) (hs : link.Settled) (ha : link.Accounts log shown)
    (event : Event) :
    (link.step event).2.Registered (log ++ link.dispatched (link.requests event))
      (shown ++ (link.step event).1.finished) := by
  generalize link.dispatched (link.requests event) = new
  have hl : ∀ p ∈ shown, ∀ reply, p.2 = .replied reply → ∃ call ∈ log, call.ticket = p.1 :=
    fun p mem reply hp => have ⟨call, hc, ht, _⟩ := h.known p mem reply hp; ⟨call, hc, ht⟩
  constructor
  case active =>
    calc (link.step event).2.connection.active.members
      _ = (link.step event).1.finished.foldl (amended (log ++ new))
            link.connection.active.members :=
        hs.active_step ha (fun call mem => ha.find?_ticket (ha.mem_log mem) new) event
      _ = (link.step event).1.finished.foldl (amended (log ++ new))
            (shown.foldl (amended (log ++ new)) ∅) := by
        rw [h.active]
        congr 1
        exact List.foldl_ext _ _ _ fun names p mem => (amended_append (hl p mem) new names).symm
      _ = (shown ++ (link.step event).1.finished).foldl (amended (log ++ new)) ∅ :=
        List.foldl_append.symm
  case known =>
    intro p mem reply hp
    have ⟨call, hc, hv⟩ := (List.mem_append.mp mem).elim (h.known p · reply hp)
      (known_step hs ha p · reply hp)
    exact ⟨call, List.mem_append_left _ hc, hv⟩

theorem run (h : link.Registered log shown) (hs : link.Settled) (ha : link.Accounts log shown)
    (events : List Event) :
    (link.after events).Registered (log ++ link.history events) (shown ++ link.endings events) := by
  induction events generalizing link log shown
  case nil => simpa [after, Link.run, history, endings] using h
  case cons event events hi =>
    have := hi (h.step hs ha event) (hs.step event) (ha.step event)
    simpa [after, Link.run, history, endings] using this

end Registered

-- What changes the active streams is a text that accepts a call to subscribe or to unsubscribe.
theorem Settled.accepted_of_active_step_ne (h : link.Settled) (ha : link.Accounts log shown)
    (hne : (link.step event).2.connection.active ≠ link.connection.active) :
    ∃ text, event = .peerSend text ∧ ∃ call ∈ link.connection.calls, ∃ frame,
      Frame.carrying? call.id text = some frame ∧ call.purpose ≠ .command ∧
        Frame.Accepts frame := by
  rcases event.arrives with hn | ⟨text, rfl⟩
  case inl => exact absurd (h.active_step_of_ne hn) hne
  case inr =>
    replace hne := Stream.Names.members_injective.ne hne
    have hl (call : Call) (mem : call ∈ link.connection.calls) :=
      ha.find?_ticket (ha.mem_log mem) []
    have hs := h.active_step ha hl (.peerSend text)
    rcases h.at_most_one_reply ha text with hf | ⟨call, mem, frame, hc, _, hf⟩
    all_goals rw [hf] at hs
    case inl => exact absurd hs hne
    case inr =>
      rw [List.foldl_cons, List.foldl_nil, amended_call (hl call mem), Purpose.members_conclude] at hs
      have hp : call.purpose ≠ .command := fun hp => hne <| by rw [hs, hp]; rfl
      split at hs
      case h_1 reply hv =>
        have ha := (Purpose.verdict_eq_replied_iff.mp hv).right.resolve_left hp
        exact ⟨text, rfl, call, mem, frame, hc, hp, ha⟩
      case h_2 => exact absurd hs hne

-- The active streams are what the calls that ended well have made of none, in the order in which
-- they ended. To end well, a call to subscribe or to unsubscribe must have been answered by a frame
-- without any error. Nothing but such a frame changes the active streams.
theorem registry_follows_accepted_calls (config : LinkConfig) (events : List Event) :
    let link  := (start config).after events
    let log   := (start config).history events
    let ended := (start config).endings events
    link.connection.active.members = ended.foldl (amended log) ∅ ∧
    (∀ p ∈ ended, ∀ reply, p.2 = .replied reply → ∃ call ∈ log, call.ticket = p.1 ∧
      (call.purpose = .command ∨ Frame.Accepts reply)) ∧
    (∀ text, ∀ call ∈ underWay log ended, ∀ frame, Frame.carrying? call.id text = some frame →
      ∃ outcome, (link.step (.peerSend text)).1.finished = [(call.ticket, outcome)] ∧
        ∀ reply, outcome = .replied reply ↔
          reply = frame ∧ (call.purpose = .command ∨ Frame.Accepts frame)) ∧
    (∀ event, (link.step event).2.connection.active ≠ link.connection.active →
      ∃ text, event = .peerSend text ∧ ∃ call ∈ underWay log ended, ∃ frame,
        Frame.carrying? call.id text = some frame ∧ call.purpose ≠ .command ∧
          Frame.Accepts frame) := by
  have ha := Accounts.start config |>.run events
  have hs := Settled.start config |>.run events
  have hr := Registered.start config |>.run (.start config) (.start config) events
  dsimp only
  rw [← calls_eq_underWay]
  refine ⟨hr.active, hr.known, fun text call mem frame hc => ⟨call.purpose.verdict frame, ?_, ?_⟩,
    fun event => hs.accepted_of_active_step_ne ha⟩
  case refine_1 =>
    rw [(hs.step_peerSend ha text).left, outcomes_replied ha.coherent.ids mem hc,
      List.mergeSort_singleton]
  case refine_2 => exact fun reply => Purpose.verdict_eq_replied_iff

end Link
end LedgerWire
