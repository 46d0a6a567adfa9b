import LedgerWire.Link.Duplex
import Mathlib.Logic.Basic

namespace LedgerWire

theorem Side.eq_other_iff {side s : Side} : side = s.other ↔ s = side.other := by
  cases side <;> cases s <;> decide

-- Only an end that is live can still be closed, and nothing undoes a drop.
def Standing.after (standing : Standing) : Duplex.Action → Standing
  | .close => if standing = .live then .closed else standing
  | .drop  => .dropped
  | _      => standing

namespace Duplex

variable {d d' : Duplex} {side s : Side} {action : Action} {text : String}
variable {steps : List (Side × Action)} {standing : Standing}

theorem after_dropped (action : Action) : Standing.dropped.after action = .dropped := by
  cases action <;> rfl

theorem after_eq_dropped_iff :
    standing.after action = .dropped ↔ standing = .dropped ∨ action = .drop := by
  cases action <;> cases standing <;> simp [Standing.after]

theorem after_eq_live_iff :
    standing.after action = .live ↔ standing = .live ∧ action ≠ .close ∧ action ≠ .drop := by
  cases action <;> cases standing <;> simp [Standing.after]

theorem get_send? (h : d.send? s text = some d') (side : Side) : d'.get side =
    ⟨if side = s.other then (d.get side).inbox ++ [text] else (d.get side).inbox,
      (d.get side).standing⟩ := by
  rw [send?] at h
  split at h
  case isFalse => cases h
  case isTrue =>
    cases h
    rw [get_set]
    split
    case isTrue hs => rw [hs]
    case isFalse   => rfl

theorem get_receive (d : Duplex) (s side : Side) : (d.receive s).2.get side =
    ⟨if side = s then (d.get side).inbox.tail else (d.get side).inbox,
      (d.get side).standing⟩ := by
  rw [receive]
  split
  case h_1 hi =>
    rw [get_set]
    split
    case isTrue hs => rw [hs, hi, List.tail_cons]
    case isFalse   => rfl
  case h_2 hi =>
    by_cases hs : side = s
    case pos => rw [if_pos hs, hs, hi, List.tail_nil, ← hi]
    case neg => rw [if_neg hs]

theorem get_close (d : Duplex) (s side : Side) : (d.close s).get side =
    ⟨(d.get side).inbox,
      if side = s then (d.get side).standing.after .close else (d.get side).standing⟩ := by
  rw [close]
  split
  case isTrue hl =>
    rw [get_set]
    split
    case isTrue hs => rw [hs, Standing.after, if_pos hl]
    case isFalse   => rfl
  case isFalse hl =>
    split
    case isTrue hs => rw [hs, Standing.after, if_neg hl]
    case isFalse   => rfl

theorem get_drop (d : Duplex) (s side : Side) :
    (d.drop s).get side = if side = s then ⟨[], .dropped⟩ else d.get side :=
  get_set ..

theorem step_of_dropped (h : (d.get s).standing = .dropped) (action : Action) :
    d.step s action = (.noEnd, d) :=
  if_pos h

theorem step_of_present (h : (d.get s).standing ≠ .dropped) (action : Action) :
    d.step s action = d.act s action :=
  if_neg h

theorem standing_act (d : Duplex) (s : Side) (action : Action) (side : Side) :
    ((d.act s action).2.get side).standing =
      if side = s then (d.get side).standing.after action else (d.get side).standing := by
  cases action
  case send text =>
    rw [act]
    split
    case h_1 hs => simp only [get_send? hs, Standing.after, ite_self]
    case h_2    => simp only [Standing.after, ite_self]
  case receive  => simp only [act, get_receive, Standing.after, ite_self]
  case close    => simp only [act, get_close]
  case isClosed => simp only [act, Standing.after, ite_self]
  case drop     => simp only [act, get_drop, Standing.after, apply_ite End.standing]

-- The standing of an end depends on what is done at that end, and on nothing else.
theorem standing_step (d : Duplex) (s : Side) (action : Action) (side : Side) :
    ((d.step s action).2.get side).standing =
      if side = s then (d.get side).standing.after action else (d.get side).standing := by
  by_cases h : (d.get s).standing = .dropped
  case neg => rw [step_of_present h, standing_act]
  case pos =>
    rw [step_of_dropped h]
    split
    case isTrue hs => rw [hs, h, after_dropped]
    case isFalse   => rfl

theorem run_cons (d : Duplex) (s : Side) (action : Action) (steps : List (Side × Action)) :
    d.run ((s, action) :: steps) =
      ((d.step s action).1 :: ((d.step s action).2.run steps).1,
        ((d.step s action).2.run steps).2) :=
  rfl

theorem dropped_run_iff : ((d.run steps).2.get side).standing = .dropped ↔
    (d.get side).standing = .dropped ∨ (side, .drop) ∈ steps := by
  induction steps generalizing d
  case nil => simp [run]
  case cons step steps hi =>
    obtain ⟨s, action⟩ := step
    rw [run_cons, hi, standing_step, List.mem_cons, Prod.mk.injEq, eq_comm (b := action)]
    by_cases hs : side = s <;> simp [hs, after_eq_dropped_iff, or_assoc]

theorem live_run_iff : ((d.run steps).2.get side).standing = .live ↔
    (d.get side).standing = .live ∧ (side, .close) ∉ steps ∧ (side, .drop) ∉ steps := by
  induction steps generalizing d
  case nil => simp [run]
  case cons step steps hi =>
    obtain ⟨s, action⟩ := step
    rw [run_cons, hi, standing_step, List.mem_cons, List.mem_cons, Prod.mk.injEq, Prod.mk.injEq,
      eq_comm (b := action), eq_comm (b := action)]
    by_cases hs : side = s <;> simp [hs, after_eq_live_iff, and_assoc, and_left_comm]

theorem dropped_after_iff :
    ((start.run steps).2.get side).standing = .dropped ↔ (side, .drop) ∈ steps := by
  have hl : (start.get side).standing = .live := by cases side <;> rfl
  simp [dropped_run_iff, hl]

theorem live_after_iff : ((start.run steps).2.get side).standing = .live ↔
    (side, .close) ∉ steps ∧ (side, .drop) ∉ steps := by
  have hl : (start.get side).standing = .live := by cases side <;> rfl
  simp [live_run_iff, hl]

-- The text that an end has sent in a step with this answer, if it has.
def sentIn (side : Side) : (Side × Action) × Answer → List String
  | ((s, .send text), .sent) => if s = side then [text] else []
  | _                        => []

-- The text that an end has received in a step with this answer, if it has.
def receivedIn (side : Side) : (Side × Action) × Answer → List String
  | ((s, .receive), .receipt (.text text)) => if s = side then [text] else []
  | _                                      => []

-- All that an end has sent in the course of these steps, the first text first.
def sent (d : Duplex) (side : Side) (steps : List (Side × Action)) : List String :=
  (steps.zip (d.run steps).1).flatMap (sentIn side)

-- All that an end has received in the course of these steps, the first text first.
def received (d : Duplex) (side : Side) (steps : List (Side × Action)) : List String :=
  (steps.zip (d.run steps).1).flatMap (receivedIn side)

theorem sent_cons (d : Duplex) (side s : Side) (action : Action) (steps : List (Side × Action)) :
    d.sent side ((s, action) :: steps) =
      sentIn side ((s, action), (d.step s action).1) ++ (d.step s action).2.sent side steps :=
  rfl

theorem received_cons (d : Duplex) (side s : Side) (action : Action)
    (steps : List (Side × Action)) :
    d.received side ((s, action) :: steps) =
      receivedIn side ((s, action), (d.step s action).1) ++
        (d.step s action).2.received side steps :=
  rfl

-- One step takes a text from the front of a queue, or puts one at its end, or does neither.
theorem inbox_act (hd : (s, action) ≠ (side, .drop)) :
    receivedIn side ((s, action), (d.act s action).1) ++ ((d.act s action).2.get side).inbox =
      (d.get side).inbox ++ sentIn side.other ((s, action), (d.act s action).1) := by
  cases action
  case send text =>
    rw [act]
    split
    case h_1 hs =>
      simp only [get_send? hs, receivedIn, sentIn, @Side.eq_other_iff side, List.nil_append]
      split <;> simp
    case h_2 => simp [receivedIn, sentIn]
  case receive =>
    simp only [act, get_receive, sentIn, List.append_nil]
    by_cases hs : side = s
    case pos =>
      subst hs
      rw [if_pos rfl, receive]
      split
      case h_1 hi => simp [receivedIn, hi]
      case h_2 hi => split <;> simp [receivedIn, hi]
    case neg =>
      rw [if_neg hs]
      simp only [receivedIn]
      split <;> simp_all [eq_comm]
  case close    => simp [act, get_close, receivedIn, sentIn]
  case isClosed => simp [act, receivedIn, sentIn]
  case drop =>
    have hs : side ≠ s := fun h => hd <| by rw [h]
    simp [act, get_drop, hs, receivedIn, sentIn]

theorem inbox_step (hd : (s, action) ≠ (side, .drop)) :
    receivedIn side ((s, action), (d.step s action).1) ++ ((d.step s action).2.get side).inbox =
      (d.get side).inbox ++ sentIn side.other ((s, action), (d.step s action).1) := by
  by_cases h : (d.get s).standing = .dropped
  case neg => rw [step_of_present h, inbox_act hd]
  case pos =>
    rw [step_of_dropped h]
    cases action <;> simp [receivedIn, sentIn]

-- What has come out of a queue and what is left in it is what was in it and what was put in.
theorem inbox_run (hd : (side, .drop) ∉ steps) :
    d.received side steps ++ ((d.run steps).2.get side).inbox =
      (d.get side).inbox ++ d.sent side.other steps := by
  induction steps generalizing d
  case nil => simp [received, sent, run]
  case cons step steps hi =>
    obtain ⟨s, action⟩ := step
    have ⟨ne, hd⟩ := not_or.mp <| mt List.mem_cons.mpr hd
    rw [received_cons, sent_cons, run_cons, List.append_assoc, hi hd, ← List.append_assoc,
      inbox_step (Ne.symm ne), List.append_assoc]

theorem canSend_iff : d.canSend side ↔
    (d.get side).standing = .live ∧ (d.get side.other).standing ≠ .dropped := by
  rw [canSend, decide_eq_true_iff]

theorem ended_iff :
    d.ended side ↔ (d.get side).inbox = [] ∧ (d.get side.other).standing ≠ .live := by
  rw [ended, decide_eq_true_iff, List.isEmpty_iff]

theorem step_send (present : (d.get side).standing ≠ .dropped) (text : String) :
    (d.step side (.send text)).1 = if d.canSend side then .sent else .refused := by
  rw [step_of_present present, act, send?]
  cases d.canSend side <;> rfl

theorem step_receive_of_cons {texts : List String} (present : (d.get side).standing ≠ .dropped)
    (hi : (d.get side).inbox = text :: texts) :
    d.step side .receive = (.receipt (.text text), (d.receive side).2) := by
  rw [step_of_present present, act, receive, hi]

theorem step_receive_of_nil (present : (d.get side).standing ≠ .dropped)
    (hi : (d.get side).inbox = []) :
    (d.step side .receive).1 = .receipt (if d.ended side then .ended else .pending) := by
  rw [step_of_present present, act, receive, hi]

theorem step_receive_eq_ended_iff (present : (d.get side).standing ≠ .dropped) :
    (d.step side .receive).1 = .receipt .ended ↔ d.ended side := by
  cases hi : (d.get side).inbox
  case nil =>
    rw [step_receive_of_nil present hi]
    cases d.ended side <;> decide
  case cons text texts => simp [step_receive_of_cons present hi, ended_iff, hi]

theorem sentIn_of_not_live (hl : (d.get side).standing ≠ .live) (s : Side) (action : Action) :
    sentIn side ((s, action), (d.step s action).1) = [] := by
  cases action
  case send text =>
    by_cases hs : s = side
    case neg => rw [sentIn.eq_def]; split <;> simp_all
    case pos =>
      subst hs
      by_cases hd : (d.get s).standing = .dropped
      case pos => rw [step_of_dropped hd]; rfl
      case neg =>
        rw [step_send hd, if_neg fun h => hl (canSend_iff.mp h).left]
        rfl
  all_goals rfl

-- Nobody is left to send anything to an end whose queue has ended.
theorem ended_step (h : d.ended side) (hd : (s, action) ≠ (side, .drop)) :
    (d.step s action).2.ended side := by
  have ⟨hi, hl⟩ := ended_iff.mp h
  have hq := inbox_step (d := d) hd
  rw [hi, sentIn_of_not_live hl, List.append_nil, List.append_eq_nil_iff] at hq
  refine ended_iff.mpr ⟨hq.right, ?_⟩
  rw [standing_step]
  split
  case isTrue  => exact fun h => hl (after_eq_live_iff.mp h).left
  case isFalse => exact hl

theorem ended_run (h : d.ended side) (hd : (side, .drop) ∉ steps) : (d.run steps).2.ended side := by
  induction steps generalizing d
  case nil => exact h
  case cons step steps hi =>
    have ⟨ne, hd⟩ := not_or.mp <| mt List.mem_cons.mpr hd
    exact hi (ended_step h (Ne.symm ne)) hd

theorem inbox_close (d : Duplex) (s side : Side) :
    ((d.step s .close).2.get side).inbox = (d.get side).inbox := by
  by_cases h : (d.get s).standing = .dropped
  case pos => rw [step_of_dropped h]
  case neg => rw [step_of_present h, act, get_close]

-- As many receives as there are texts in a queue hand out all of them.
theorem run_receive (present : (d.get side).standing ≠ .dropped) :
    (d.run <| List.replicate (d.get side).inbox.length (side, .receive)).1 =
      (d.get side).inbox.map fun text => .receipt (.text text) := by
  generalize hi : (d.get side).inbox = texts
  induction texts generalizing d
  case nil => rfl
  case cons text texts hr =>
    have hg := get_receive d side side
    rw [if_pos rfl, hi, List.tail_cons] at hg
    rw [List.length_cons, List.replicate_succ, run_cons, step_receive_of_cons present hi,
      hr (by rwa [hg]) (by rw [hg]), List.map_cons]

-- Whatever is done at the two ends, an end receives what the other has sent, and the rest of it is
-- on its way. Sending fails for an end only once it is closed or the other is dropped. A queue ends
-- only once it is empty and its sender is closed or dropped, and that for good. To close an end
-- takes nothing from either queue: all that is on its way is still received.
theorem queues_lose_nothing (steps : List (Side × Action)) (side : Side)
    (present : (side, .drop) ∉ steps) :
    let d := (start.run steps).2
    start.received side steps ++ (d.get side).inbox = start.sent side.other steps ∧
    (∀ text,
      ((d.step side (.send text)).1 = .refused ↔
        (side, .close) ∈ steps ∨ (side.other, .drop) ∈ steps) ∧
      ((d.step side (.send text)).1 = .sent ↔
        (side, .close) ∉ steps ∧ (side.other, .drop) ∉ steps)) ∧
    ((d.step side .receive).1 = .receipt .ended ↔ (d.get side).inbox = [] ∧
      ((side.other, .close) ∈ steps ∨ (side.other, .drop) ∈ steps)) ∧
    ((d.step side .receive).1 = .receipt .ended → ∀ more, (side, .drop) ∉ more →
      ((d.run more).2.step side .receive).1 = .receipt .ended) ∧
    ∀ s,
      let closed := (d.step s .close).2
      (closed.get side).inbox = (d.get side).inbox ∧
      (closed.run <| List.replicate (d.get side).inbox.length (side, .receive)).1 =
        (d.get side).inbox.map fun text => .receipt (.text text) := by
  have hp : ((start.run steps).2.get side).standing ≠ .dropped := mt dropped_after_iff.mp present
  have hs : (start.run steps).2.canSend side ↔
      (side, .close) ∉ steps ∧ (side.other, .drop) ∉ steps := by
    rw [canSend_iff, live_after_iff, ne_eq, dropped_after_iff, and_iff_left present]
  have he := step_receive_eq_ended_iff hp
  refine ⟨?fifo, ?send, ?receive, ?ended, ?close⟩
  case fifo =>
    have hi : (start.get side).inbox = [] := by cases side <;> rfl
    rw [inbox_run present, hi, List.nil_append]
  case send =>
    intro text
    rw [step_send hp]
    cases hc : (start.run steps).2.canSend side
    case true  => simp [hs.mp hc]
    case false =>
      have hn := mt hs.mpr (Bool.eq_false_iff.mp hc)
      rw [not_and_or, not_not, not_not] at hn
      simp [hn, ← not_or]
  case receive =>
    rw [he, ended_iff, ne_eq, live_after_iff, not_and_or, not_not, not_not]
  case ended =>
    intro h more hd
    have hp' : (((start.run steps).2.run more).2.get side).standing ≠ .dropped := by
      rw [ne_eq, dropped_run_iff]
      exact not_or.mpr ⟨hp, hd⟩
    exact (step_receive_eq_ended_iff hp').mpr <| ended_run (he.mp h) hd
  case close =>
    intro s
    have hi := inbox_close (start.run steps).2 s side
    refine ⟨hi, ?_⟩
    rw [← hi]
    refine run_receive ?_
    rw [standing_step]
    split
    case isTrue  => exact mt after_eq_dropped_iff.mp <| by simpa using hp
    case isFalse => exact hp

-- A text that was sent before its sender was closed is still on its way.
theorem queues_lose_nothing_behind_a_close :
    let steps := [(.near, .send "a"), (.near, .send "b"), (.far, .receive), (.near, .close)]
    (Side.far, Action.drop) ∉ steps ∧ start.received .far steps = ["a"] ∧
      start.received .far steps ++ ((start.run steps).2.get .far).inbox =
        start.sent .near steps :=
  ⟨by decide, by decide, (queues_lose_nothing _ .far (by decide)).left⟩

end Duplex
end LedgerWire
