import LedgerWire.Proofs.Link.Bursts

namespace LedgerWire

-- What becomes of an item that was queued.
inductive Fate where
  | done
  | failed (error : LinkError)
  -- The loop that writes had ended before, so the wire was never asked.
  | left
  deriving DecidableEq, Repr

namespace Fate

def ofResult : Except LinkError Unit → Fate
  | .ok ()        => .done
  | .error error  => .failed error

-- Whether the loop that writes ends with the item.
def ends : Outbound × Fate → Bool
  | (.frame .., fate) => fate = .failed .closed
  | (.close, fate)    => fate ≠ .left

-- Whether the wire is asked to close.
def closes : Outbound × Fate → Bool
  | (.frame .., _)  => false
  | (.close, fate)  => fate ≠ .left

-- The fault that a close meets.
def spent? : Outbound × Fate → Option LinkError
  | (.close, .failed error) => some error
  | _                       => none

-- How the near end stands when these items have had their turn, unless it was given up.
def standing (log : List (Outbound × Fate)) : Standing :=
  if (.close, .done) ∈ log then .closed else .live

-- The text that the far end gets to see.
def arrival? : Outbound × Fate → Option String
  | (.frame _ text, .done) => some text
  | _                      => none

theorem ofResult_ne_left (result : Except LinkError Unit) : ofResult result ≠ .left := by
  cases result <;> nofun

-- The items that are left are those that come after the loop has ended.
def Follow : (running : Bool) → List (Outbound × Fate) → Prop
  | _, []             => True
  | running, p :: log => (p.2 = .left ↔ running = false) ∧ Follow (running && !ends p) log

variable {running : Bool} {log before after : List (Outbound × Fate)} {p : Outbound × Fate}

theorem follow_append :
    Follow running (before ++ after) ↔
      Follow running before ∧ Follow (running && !before.any ends) after := by
  induction before generalizing running
  case nil => simp [Follow]
  case cons p before hi =>
    rw [List.cons_append, Follow, Follow, hi, and_assoc, List.any_cons, Bool.not_or, Bool.and_assoc]

theorem left_iff (h : Follow true (before ++ p :: after)) : p.2 = .left ↔ before.any ends := by
  have h := (follow_append.mp h).right.left
  simpa using h

-- The loop ends at most once.
theorem countP_ends (h : Follow running log) : log.countP ends ≤ running.toNat := by
  induction log generalizing running
  case nil => simp
  case cons p log hi =>
    have hl := hi h.right
    rw [List.countP_cons]
    cases he : ends p
    case false => simpa [he] using hl
    case true =>
      have hr : running = true := by
        by_contra hr
        have hf := h.left.mpr (by simpa using hr)
        obtain ⟨_ | _, _⟩ := p <;> simp_all [ends]
      simpa [he, hr] using hl

-- A frame that is queued has no close before it, so only a frame can have ended the loop.
theorem ends_of_not_close (h : ∀ q ∈ before, q.1 ≠ .close) :
    before.any ends ↔ ∃ id text, (.frame id text, .failed .closed) ∈ before := by
  rw [List.any_eq_true]
  constructor
  case mp =>
    intro ⟨⟨item, fate⟩, mem, he⟩
    cases item
    case frame id text => exact ⟨id, text, by simpa [ends] using (of_decide_eq_true he) ▸ mem⟩
    case close         => exact absurd rfl (h _ mem)
  case mpr => exact fun ⟨id, text, mem⟩ => ⟨_, mem, rfl⟩

theorem any_ends_of_close {fate : Fate} (h : Follow true before) (mem : (.close, fate) ∈ before) :
    before.any ends := by
  obtain ⟨_, after, rfl⟩ := List.append_of_mem mem
  by_cases hf : fate = .left
  case pos => exact List.any_append ▸ Bool.or_eq_true_iff.mpr (.inl <| (left_iff h).mp hf)
  case neg => exact List.any_eq_true.mpr ⟨_, mem, decide_eq_true hf⟩

theorem asked_iff {fate : Fate} (h : Follow true (before ++ (.close, fate) :: after)) :
    fate ≠ .left ↔ (∀ p ∈ before, p.1 ≠ .close) ∧
      ∀ id text, (.frame id text, .failed .closed) ∉ before := by
  rw [Ne, left_iff h]
  constructor
  case mp =>
    intro hn
    refine ⟨?_, fun id text mem => hn <| List.any_eq_true.mpr ⟨_, mem, rfl⟩⟩
    rintro ⟨_, fate⟩ mem rfl
    exact hn <| any_ends_of_close (follow_append.mp h).left mem
  case mpr =>
    intro ⟨hc, hf⟩
    rw [ends_of_not_close hc]
    exact fun ⟨id, text, mem⟩ => hf id text mem

theorem countP_closes (h : Follow running log) : log.countP closes ≤ 1 := by
  have hm : log.countP closes ≤ log.countP ends := by
    refine List.countP_mono_left fun p _ hp => ?_
    obtain ⟨_ | _, _⟩ := p
    case frame => cases hp
    case close => exact hp
  exact Nat.le_trans hm <| Nat.le_trans (countP_ends h) running.toNat_le

end Fate

namespace Link

open Fate (ends arrival? Follow)

variable {link : Link} {event : Event} {events : List Event}

-- What becomes of an item whose turn it is.
def fate (link : Link) (item : Outbound) : Fate :=
  if link.writing then
    match item with
    | .frame _ text => .ofResult (link.send text).1
    | .close        => .ofResult link.closeWire.1
  else .left

-- What becomes of these items, which have their turn one after the other.
def fates (link : Link) : List Outbound → List (Outbound × Fate)
  | []            => []
  | item :: items => (item, link.fate item) :: (link.writeOne item).fates items

-- What becomes of the items that a burst queues.
def sendings (link : Link) (events : List Event) : List (Outbound × Fate) :=
  ((link.burst events).written []).fates (link.burst events).connection.outbound

theorem fate_of_not_writing (hw : ¬link.writing) (item : Outbound) : link.fate item = .left :=
  if_neg hw

theorem fate_eq_left {item : Outbound} : link.fate item = .left ↔ link.writing = false := by
  unfold fate
  split
  case isFalse hw => simpa using hw
  case isTrue hw =>
    cases item
    all_goals simp [Fate.ofResult_ne_left, hw]

theorem send_writing (link : Link) (text : String) :
    (link.send text).2.writing = link.writing := by
  have ⟨_, _, h⟩ := link.send_effect text
  rw [h]

theorem writing_writeOne (link : Link) (item : Outbound) :
    (link.writeOne item).writing = (link.writing && !ends (item, link.fate item)) := by
  unfold writeOne fate
  split
  case isFalse hw => simp [hw]
  case isTrue hw =>
    cases item
    case close => simp [ends, Fate.ofResult_ne_left]
    case frame id text =>
      have hs := link.send_writing text
      rcases he : link.send text with ⟨error | _, link'⟩
      all_goals simp only [he] at hs ⊢
      case ok => simp [hs, ends, Fate.ofResult]
      case error =>
        rw [writeFailed]
        split
        case isTrue hc  => simp [ends, Fate.ofResult, hc]
        case isFalse hc => simp [hs, hw, ends, Fate.ofResult, hc]

theorem inbox_send (link : Link) (text : String) :
    (link.send text).2.duplex.far.inbox =
      link.duplex.far.inbox ++ if (link.send text).1 = .ok () then [text] else [] := by
  rw [send]
  split
  case h_1 => simp
  case h_2 =>
    split
    case h_2 => simp
    case h_1 duplex hs =>
      rw [Duplex.send?] at hs
      split at hs <;> cases hs
      rfl

theorem inbox_writeOne (link : Link) (item : Outbound) :
    (link.writeOne item).duplex.far.inbox =
      link.duplex.far.inbox ++ (arrival? (item, link.fate item)).toList := by
  by_cases hw : link.writing
  case neg =>
    rw [writeOne_of_not_writing hw, fate_of_not_writing hw]
    cases item <;> exact (List.append_nil _).symm
  case pos =>
    cases item
    case close =>
      have ⟨_, _, h⟩ := link.closeWire_effect
      rw [writeOne_close hw, h]
      exact (List.append_nil _).symm
    case frame id text =>
      have ⟨_, _, h⟩ := writeOne_frame_effect hw id text
      rw [h, inbox_send, fate, if_pos hw]
      cases (link.send text).1 <;> simp [Fate.ofResult, arrival?]

theorem map_fst_fates (link : Link) (items : List Outbound) :
    (link.fates items).map (·.1) = items := by
  induction items generalizing link
  case nil => rfl
  case cons item items hi => rw [fates, List.map_cons, hi]

theorem follow_fates (link : Link) (items : List Outbound) :
    Follow link.writing (link.fates items) := by
  induction items generalizing link
  case nil => exact trivial
  case cons item items hi => exact ⟨fate_eq_left, writing_writeOne link item ▸ hi _⟩

theorem writing_foldl (link : Link) (items : List Outbound) :
    (items.foldl writeOne link).writing = (link.writing && !(link.fates items).any ends) := by
  induction items generalizing link
  case nil => simp [fates]
  case cons item items hi =>
    rw [List.foldl_cons, hi, writing_writeOne, fates, List.any_cons, Bool.not_or, Bool.and_assoc]

theorem inbox_foldl (link : Link) (items : List Outbound) :
    (items.foldl writeOne link).duplex.far.inbox =
      link.duplex.far.inbox ++ (link.fates items).filterMap arrival? := by
  induction items generalizing link
  case nil => simp [fates]
  case cons item items hi =>
    rw [List.foldl_cons, hi, inbox_writeOne, fates, List.append_assoc]
    cases h : arrival? (item, link.fate item) <;> simp [h]

-- What the loop that reads, and giving up the near end, leave alone.
theorem read_outward (link : Link) : link.read.writing = link.writing ∧
    link.read.duplex.far = link.duplex.far ∧
    link.read.duplex.near.standing = link.duplex.near.standing := by
  cases hr : link.reading
  case false => rw [read_of_not_reading hr]; exact ⟨rfl, rfl, rfl⟩
  case true  => rw [read_eq hr]; split <;> exact ⟨rfl, rfl, rfl⟩

theorem release_outward (link : Link) : link.release.writing = link.writing ∧
    link.release.duplex.far = link.duplex.far := by
  rw [release]
  split <;> exact ⟨rfl, rfl⟩

-- No event stops or starts the loop that writes, and none puts a text on its way to the far end.
theorem onEvent_outward (link : Link) (event : Event) :
    (link.onEvent event).2.writing = link.writing ∧
      (link.duplex.far.inbox = [] → (link.onEvent event).2.duplex.far.inbox = []) := by
  cases event
  case act action =>
    have ⟨_, _, _, h⟩ := link.act_effect action
    rw [onEvent, h]
    exact ⟨rfl, id⟩
  case peerSend text =>
    rw [onEvent]
    split
    case isFalse => exact ⟨rfl, id⟩
    case isTrue =>
      split
      case h_2 => exact ⟨rfl, id⟩
      case h_1 duplex hs =>
        rw [Duplex.send?] at hs
        split at hs <;> cases hs
        exact ⟨rfl, id⟩
  case peerClose =>
    rw [onEvent]
    split
    case isFalse => exact ⟨rfl, id⟩
    case isTrue  => rw [Duplex.close]; split <;> exact ⟨rfl, id⟩
  case peerDrop => exact ⟨rfl, fun _ => rfl⟩
  all_goals exact ⟨rfl, id⟩

theorem burst_outward (link : Link) (events : List Event) :
    (link.burst events).writing = link.writing ∧
      (link.duplex.far.inbox = [] → (link.burst events).duplex.far.inbox = []) := by
  induction events generalizing link
  case nil => exact ⟨rfl, id⟩
  case cons event events hi =>
    have ⟨hw, hf⟩ := link.onEvent_outward event
    have ⟨hw', hf'⟩ := hi (link.onEvent event).2
    exact ⟨hw'.trans hw, hf' ∘ hf⟩

theorem burst_reading (link : Link) (events : List Event) :
    (link.burst events).reading = link.reading := by
  induction events generalizing link
  case nil => rfl
  case cons event events hi => exact (hi _).trans (Nearby.onEvent link event).reading

theorem burst_near (link : Link) (events : List Event) :
    (link.burst events).duplex.near.standing = link.duplex.near.standing := by
  induction events generalizing link
  case nil => rfl
  case cons event events hi => exact (hi _).trans (Nearby.onEvent link event).standing

theorem settle_outward (link : Link) : link.settle.writing = link.write.writing ∧
    link.settle.duplex.far = link.write.duplex.far := by
  have ⟨hw, hf, _⟩ := link.write.read_outward
  have ⟨hw', hf'⟩ := link.write.read.release_outward
  exact ⟨hw'.trans hw, hf'.trans hf⟩

theorem settle_standing (link : Link) :
    link.settle.duplex.near.standing =
      if link.settle.writing || link.settle.reading then link.write.duplex.near.standing
      else .dropped := by
  have ⟨_, _, hs⟩ := link.write.read_outward
  rw [settle, release]
  split
  case isTrue  => exact hs
  case isFalse => rfl

theorem reading_of_settle (h : link.settle.reading) : link.reading := by
  have u := Undisturbed.write link
  rw [settle, release_reading] at h
  by_contra hr
  have hw : link.write.reading = false := u.reading.trans <| Bool.eq_false_iff.mpr hr
  exact Bool.eq_false_iff.mp hw <| read_of_not_reading hw ▸ h

theorem far_settle_of_nothing (h : link.connection.outbound = []) :
    link.settle.duplex.far = link.duplex.far := by
  rw [link.settle_outward.right, write_of_nothing h]

theorem writing_turn (link : Link) (events : List Event) :
    (link.turn events).2.2.writing = (link.writing && !(link.sendings events).any ends) := by
  have hw : (link.turn events).2.2.writing = (link.burst events).settle.writing := rfl
  rw [hw, (settle_outward _).left, write, writing_foldl]
  exact congrArg (· && _) (link.burst_outward events).left

theorem inbox_turn (link : Link) (events : List Event) :
    (link.turn events).2.2.duplex.far.inbox = [] :=
  rfl

-- The far end gets the texts of the frames that were taken, as long as it had taken in all before.
theorem texts_turn (h : link.duplex.far.inbox = []) (events : List Event) :
    (link.turn events).1 = (link.sendings events).filterMap arrival? := by
  have ht : (link.turn events).1 = (link.burst events).settle.duplex.far.inbox := rfl
  have hb := (link.burst_outward events).right h
  rw [ht, (settle_outward _).right, write, inbox_foldl]
  exact congrArg (· ++ _) hb

theorem follow_sendings (link : Link) (events : List Event) :
    Follow link.writing (link.sendings events) := by
  have h := follow_fates ((link.burst events).written []) (link.burst events).connection.outbound
  rwa [show ((link.burst events).written []).writing = link.writing from
    (link.burst_outward events).left] at h

-- The texts that a burst brings to the far end.
def texts (link : Link) (events : List Event) : List String :=
  (link.turn events).1

theorem follow_overall (link : Link) (bursts : List (List Event)) :
    Follow link.writing (link.overall sendings bursts) := by
  induction bursts generalizing link
  case nil => exact trivial
  case cons events bursts hi =>
    exact Fate.follow_append.mpr ⟨link.follow_sendings events, link.writing_turn events ▸ hi _⟩

theorem texts_overall (h : link.duplex.far.inbox = []) (bursts : List (List Event)) :
    link.overall texts bursts = (link.overall sendings bursts).filterMap arrival? := by
  induction bursts generalizing link
  case nil => rfl
  case cons events bursts hi =>
    rw [overall, overall, List.filterMap_append, texts, texts_turn h, hi (link.inbox_turn events)]

theorem map_fst_sendings (h : link.connection.outbound = []) (events : List Event) :
    (link.sendings events).map (·.1) = link.queued events := by
  rw [sendings, map_fst_fates, outbound_burst, h, List.nil_append]

theorem outbound_turn (link : Link) (events : List Event) :
    (link.turn events).2.2.connection.outbound = [] :=
  settle_outbound (link.burst events)

theorem map_fst_overall (h : link.connection.outbound = []) (bursts : List (List Event)) :
    (link.overall sendings bursts).map (·.1) = link.overall queued bursts := by
  induction bursts generalizing link
  case nil => rfl
  case cons events bursts hi =>
    rw [overall, overall, List.map_append, map_fst_sendings h, hi (link.outbound_turn events)]

end Link
end LedgerWire
