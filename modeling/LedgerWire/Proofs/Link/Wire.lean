import LedgerWire.Proofs.Link.Fates

namespace LedgerWire.Link

open Fate (closes spent? arrival? Follow)

variable {link : Link} {event : Event} {events : List Event} {log : List (Outbound × Fate)}

theorem send_standing (link : Link) (text : String) :
    (link.send text).2.duplex.near.standing = link.duplex.near.standing := by
  have ⟨_, _, h⟩ := link.send_effect text
  rw [h]

theorem send_closes (link : Link) (text : String) :
    (link.send text).2.faults.closes = link.faults.closes := by
  have ⟨_, _, h⟩ := link.send_effect text
  rw [h]

theorem closeWire_standing (h : link.duplex.near.standing = Fate.standing log) :
    link.closeWire.2.duplex.near.standing =
      Fate.standing (log ++ [(.close, .ofResult link.closeWire.1)]) := by
  rw [closeWire]
  split
  case h_1 => simpa [Fate.standing, Fate.ofResult] using h
  case h_2 =>
    have hd : Fate.standing (log ++ [(.close, .done)]) = .closed := by simp [Fate.standing]
    rw [Fate.ofResult, hd, Duplex.close, Duplex.get]
    split
    case isTrue => rfl
    case isFalse hn =>
      rw [h, Fate.standing, ite_eq_right_iff, not_forall] at hn
      simpa [Fate.standing] using h.trans (if_pos hn.choose)

-- Only a close that is carried out keeps the near end from sending.
theorem standing_writeOne (h : link.duplex.near.standing = Fate.standing log) (item : Outbound) :
    (link.writeOne item).duplex.near.standing = Fate.standing (log ++ [(item, link.fate item)]) := by
  by_cases hw : link.writing
  case neg =>
    rw [writeOne_of_not_writing hw, fate_of_not_writing hw]
    simpa [Fate.standing] using h
  case pos =>
    cases item
    case close =>
      rw [writeOne_close hw, fate, if_pos hw]
      exact closeWire_standing h
    case frame id text =>
      obtain ⟨_, _, he⟩ := writeOne_frame_effect hw id text
      have hs := (link.send_standing text).trans h
      rw [he]
      simpa [Fate.standing] using hs

theorem standing_foldl (h : link.duplex.near.standing = Fate.standing log)
    (items : List Outbound) :
    (items.foldl writeOne link).duplex.near.standing = Fate.standing (log ++ link.fates items) := by
  induction items generalizing link log
  case nil => simpa [fates] using h
  case cons item items hi =>
    rw [List.foldl_cons, hi (standing_writeOne h item), fates, List.append_assoc,
      List.singleton_append]

theorem closeWire_closes (link : Link) :
    link.faults.closes =
      (spent? (.close, .ofResult link.closeWire.1)).toList ++ link.closeWire.2.faults.closes := by
  rw [closeWire]
  split
  case h_1 hc => exact hc
  case h_2    => rfl

-- Only a close that fails uses up a fault of its kind.
theorem closes_writeOne (link : Link) (item : Outbound) :
    link.faults.closes =
      (spent? (item, link.fate item)).toList ++ (link.writeOne item).faults.closes := by
  by_cases hw : link.writing
  case neg =>
    rw [writeOne_of_not_writing hw, fate_of_not_writing hw]
    cases item <;> rfl
  case pos =>
    cases item
    case close =>
      rw [writeOne_close hw, fate, if_pos hw]
      exact link.closeWire_closes
    case frame id text =>
      obtain ⟨_, _, he⟩ := writeOne_frame_effect hw id text
      rw [he]
      exact (link.send_closes text).symm

theorem closes_foldl (link : Link) (items : List Outbound) :
    link.faults.closes =
      (link.fates items).filterMap spent? ++ (items.foldl writeOne link).faults.closes := by
  induction items generalizing link
  case nil => rfl
  case cons item items hi =>
    rw [closes_writeOne link item, hi, fates, List.foldl_cons]
    cases hs : spent? (item, link.fate item) <;> simp [hs]

-- The fault that an event has a close meet.
def Event.closeFault? : Event → Option LinkError
  | .failClose error => some error
  | _                => none

theorem closes_onEvent (link : Link) (event : Event) :
    (link.onEvent event).2.faults.closes =
      link.faults.closes ++ event.closeFault?.toList := by
  cases event
  case act action =>
    have ⟨_, _, _, h⟩ := link.act_effect action
    simp [onEvent, h, Event.closeFault?]
  case failClose => rfl
  case peerSend =>
    rw [onEvent]
    split
    case isFalse => exact (List.append_nil _).symm
    case isTrue  => split <;> exact (List.append_nil _).symm
  case peerClose =>
    rw [onEvent]
    split <;> exact (List.append_nil _).symm
  all_goals exact (List.append_nil _).symm

theorem closes_burst (link : Link) (events : List Event) :
    (link.burst events).faults.closes =
      link.faults.closes ++ events.filterMap Event.closeFault? := by
  induction events generalizing link
  case nil => simp [burst]
  case cons event events hi =>
    rw [burst, hi, closes_onEvent]
    cases hc : event.closeFault? <;> simp [hc]

theorem closes_turn (link : Link) (events : List Event) :
    link.faults.closes ++ events.filterMap Event.closeFault? =
      (link.sendings events).filterMap spent? ++ (link.turn events).2.2.faults.closes := by
  have ⟨_, hs⟩ := (link.burst events).settle_faults
  have ht : (link.turn events).2.2.faults = (link.burst events).settle.faults := rfl
  rw [← closes_burst, ht, hs]
  exact closes_foldl ((link.burst events).written []) _

theorem closes_turns (link : Link) (bursts : List (List Event)) :
    link.faults.closes ++ bursts.flatten.filterMap Event.closeFault? =
      (link.overall sendings bursts).filterMap spent? ++ (link.turns bursts).faults.closes := by
  induction bursts generalizing link
  case nil => simp [overall, turns]
  case cons events bursts hi =>
    rw [List.flatten_cons, List.filterMap_append, ← List.append_assoc, closes_turn,
      List.append_assoc, hi, overall, turns, List.filterMap_append, List.append_assoc]

-- As long as one of the loops needs it, the near end is there, and it sends until it is closed.
def Stands (link : Link) (log : List (Outbound × Fate)) : Prop :=
  link.duplex.near.standing =
    if link.writing || link.reading then Fate.standing log else .dropped

theorem foldl_of_not_writing (hw : link.writing = false) (items : List Outbound) :
    items.foldl writeOne link = link := by
  induction items
  case nil => rfl
  case cons item items hi =>
    have ho := writeOne_of_not_writing (Bool.eq_false_iff.mp hw) item
    rwa [List.foldl_cons, ho]

namespace Stands

theorem write (h : link.Stands log) (events : List Event) :
    (link.burst events).write.duplex.near.standing =
      if link.writing || link.reading then Fate.standing (log ++ link.sendings events)
      else .dropped := by
  have hs : ((link.burst events).written []).duplex.near.standing = _ :=
    (link.burst_near events).trans h
  have hl : (link.burst events).write =
      (link.burst events).connection.outbound.foldl writeOne ((link.burst events).written []) := rfl
  rw [hl]
  split
  case isTrue hr =>
    rw [if_pos hr] at hs
    exact standing_foldl hs _
  case isFalse hr =>
    have hb : ((link.burst events).written []).writing = link.writing :=
      (link.burst_outward events).left
    have hw : link.writing = false := by
      simp only [Bool.or_eq_true, not_or, Bool.not_eq_true] at hr
      exact hr.left
    rw [foldl_of_not_writing (hb.trans hw), hs, if_neg hr]

theorem turn (h : link.Stands log) (events : List Event) :
    (link.turn events).2.2.Stands (log ++ link.sendings events) := by
  have ht : (link.turn events).2.2.duplex.near.standing =
      if (link.turn events).2.2.writing || (link.turn events).2.2.reading then
        (link.burst events).write.duplex.near.standing
      else .dropped := settle_standing _
  rw [Stands, ht]
  split
  case isFalse => rfl
  case isTrue hr =>
    -- A loop that runs after the turn ran before it.
    rw [h.write, if_pos]
    cases Bool.or_eq_true_iff.mp hr
    case inl hw =>
      rw [writing_turn, Bool.and_eq_true] at hw
      simp [hw.left]
    case inr hr =>
      have hb := link.burst_reading events
      simp [← hb, reading_of_settle hr]

theorem turns (h : link.Stands log) (bursts : List (List Event)) :
    (link.turns bursts).Stands (log ++ link.overall sendings bursts) := by
  induction bursts generalizing link log
  case nil => simpa [Link.turns, overall] using h
  case cons events bursts hi =>
    have := hi (h.turn events)
    rwa [List.append_assoc] at this

end Stands

theorem send_near (h : link.duplex.near.standing ≠ .live) (text : String) :
    (link.send text).1 ≠ .ok () := by
  rw [send]
  split
  case h_1 => simp
  case h_2 => simp [Duplex.send?, Duplex.canSend, Duplex.get, h]

theorem closeWire_near (h : link.duplex.near.standing ≠ .live) :
    link.closeWire.2.duplex.near.standing ≠ .live := by
  rw [closeWire]
  split
  case h_1 => exact h
  case h_2 => simp [Duplex.close, Duplex.get, h]

-- An end that does not send any more never does again, and what is queued for it is not taken.
theorem writeOne_near (h : link.duplex.near.standing ≠ .live) (item : Outbound) :
    (link.writeOne item).duplex.near.standing ≠ .live ∧ arrival? (item, link.fate item) = none := by
  by_cases hw : link.writing
  case neg =>
    rw [writeOne_of_not_writing hw, fate_of_not_writing hw]
    exact ⟨h, by cases item <;> rfl⟩
  case pos =>
    cases item
    case close =>
      rw [writeOne_close hw]
      exact ⟨closeWire_near h, rfl⟩
    case frame id text =>
      obtain ⟨_, _, he⟩ := writeOne_frame_effect hw id text
      have hr := send_near h text
      rw [he, fate, if_pos hw]
      refine ⟨(link.send_standing text).trans_ne h, ?_⟩
      cases hs : (link.send text).1
      case ok    => exact absurd hs hr
      case error => rfl

theorem foldl_near (h : link.duplex.near.standing ≠ .live) (items : List Outbound) :
    (items.foldl writeOne link).duplex.near.standing ≠ .live ∧
      (link.fates items).filterMap arrival? = [] := by
  induction items generalizing link
  case nil => exact ⟨h, rfl⟩
  case cons item items hi =>
    have ⟨hn, ha⟩ := writeOne_near h item
    have ⟨hn', ha'⟩ := hi hn
    exact ⟨hn', by rw [fates, List.filterMap_cons_none ha, ha']⟩

theorem release_near (h : link.duplex.near.standing ≠ .live) :
    link.release.duplex.near.standing ≠ .live := by
  rw [release]
  split
  case isTrue  => exact h
  case isFalse => simp [Duplex.drop, Duplex.set]

theorem turn_near (h : link.duplex.near.standing ≠ .live) (events : List Event) :
    (link.turn events).2.2.duplex.near.standing ≠ .live ∧
      (link.sendings events).filterMap arrival? = [] := by
  have hb : ((link.burst events).written []).duplex.near.standing ≠ .live :=
    burst_near link events ▸ h
  have ⟨hw, ha⟩ := foldl_near hb (link.burst events).connection.outbound
  refine ⟨release_near ?_, ha⟩
  exact (link.burst events).write.read_outward.right.right ▸ hw

theorem overall_near (h : link.duplex.near.standing ≠ .live) (bursts : List (List Event)) :
    (link.overall sendings bursts).filterMap arrival? = [] := by
  induction bursts generalizing link
  case nil => rfl
  case cons events bursts hi =>
    have ⟨hn, ha⟩ := turn_near h events
    rw [overall, List.filterMap_append, ha, hi hn, List.append_nil]

-- After the far end has seen the end of the stream nothing more comes.
theorem texts_after_end (h : (link.turn events).2.1) (bursts : List (List Event)) :
    (link.turn events).2.2.overall texts bursts = [] := by
  rw [texts_overall (link.inbox_turn events)]
  apply overall_near
  have he : (link.burst events).settle.harvest.2.hasPeer &&
    ((link.burst events).settle.harvest.2.duplex.drain .far).2.ended .far := h
  have hn := (Bool.and_eq_true_iff.mp he).right
  simp only [Duplex.ended, Bool.decide_and, Bool.and_eq_true, decide_eq_true_eq] at hn
  exact hn.right

-- In whatever bursts a run comes, each frame that was dispatched has its turn at the wire once, in
-- the order of the ids. What the far end gets are the texts of those that the wire took. A frame
-- does not get its turn only if the send of one before it was refused as closed. No cancelled or
-- timed out call takes its frame back. The wire is asked to close at most once: at the first close,
-- unless the send of a frame before was refused as closed. A close that fails uses up a fault of its
-- own, and one that is carried out keeps the near end from sending. Nothing else does either, as long
-- as one of the loops runs. After the end of the stream nothing more comes.
theorem wire_carries_the_queue (config : LinkConfig) (bursts : List (List Event)) :
    let link := start config
    let log  := link.overall sendings bursts
    let ids  := log.filterMap (·.1.id?)
    log.map (·.1) = link.overall queued bursts ∧
      ids = List.range' config.firstId.toNat ids.length ∧
      link.overall texts bursts = log.filterMap arrival? ∧
      (∀ before after id text fate, log = before ++ (.frame id text, fate) :: after →
        (fate = .left ↔ ∃ id text, (.frame id text, .failed .closed) ∈ before)) ∧
      (∀ before after fate, log = before ++ (.close, fate) :: after →
        (∀ p ∈ after, p.1 = .close) ∧
          (fate ≠ .left ↔ (∀ p ∈ before, p.1 ≠ .close) ∧
            ∀ id text, (.frame id text, .failed .closed) ∉ before)) ∧
      log.countP closes ≤ 1 ∧
      bursts.flatten.filterMap Event.closeFault? =
        log.filterMap spent? ++ (link.turns bursts).faults.closes ∧
      (∀ events,
        ((link.turns bursts).burst events).write.duplex.near.standing =
          if (link.turns bursts).writing || (link.turns bursts).reading then
            Fate.standing (log ++ (link.turns bursts).sendings events)
          else .dropped) ∧
      (∀ link : Link, ∀ event,
        (link.onEvent event).2.connection.outbound =
          link.connection.outbound ++ link.queues event) ∧
      (∀ earlier events later, bursts = earlier ++ events :: later →
        ((link.turns earlier).turn events).2.1 →
          ((link.turns earlier).turn events).2.2.overall texts later = []) := by
  dsimp only
  generalize hl : (start config).overall sendings bursts = log
  have hm : log.map (·.1) = (start config).overall queued bursts := hl ▸ map_fst_overall rfl bursts
  have hp : log.Pairwise fun p q => p.1 = .close → q.1 = .close := by
    have := pairwise_overall_queued (start config) bursts
    rwa [← hm, List.pairwise_map] at this
  have hf : Follow true log := hl ▸ (start config).follow_overall bursts
  have hi : log.filterMap (·.1.id?) =
      ((start config).overall queued bursts).filterMap Outbound.id? := by
    rw [← hm, List.filterMap_map]
    rfl
  have hs : ((start config).turns bursts).Stands log :=
    hl ▸ Stands.turns (show (start config).Stands [] from rfl) bursts
  refine ⟨hm, ?_, hl ▸ texts_overall rfl bursts, ?_, ?_, ?_, ?_, hs.write, outbound_onEvent, ?_⟩
  case refine_1 => exact hi ▸ ids_overall_queued config bursts
  case refine_2 =>
    rintro before after id text fate rfl
    rw [← Fate.ends_of_not_close, ← Fate.left_iff hf]
    intro q mem hq
    have h := (List.pairwise_append.mp hp).right.right q mem _ (List.mem_cons_self ..) hq
    cases h
  case refine_3 =>
    rintro before after fate rfl
    have hr := (List.pairwise_cons.mp (List.pairwise_append.mp hp).right.left).left
    exact ⟨fun p mem => hr p mem rfl, Fate.asked_iff hf⟩
  case refine_4 => exact Fate.countP_closes hf
  case refine_5 => exact hl ▸ closes_turns (start config) bursts
  case refine_6 => exact fun earlier events later _ h => texts_after_end h later

end LedgerWire.Link
