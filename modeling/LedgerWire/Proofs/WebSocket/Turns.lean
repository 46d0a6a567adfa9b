import LedgerWire.WebSocket.Pair

namespace LedgerWire.WebSocket

namespace Frame

variable {bs rest : Bytes} {frame : Frame}

theorem decodePayload_suffix {final reserved : Bool} {opcode : Opcode} {key : Option Key}
    {size : Nat} (h : decodePayload final reserved opcode key size bs = .frame frame rest) :
    rest <:+ bs := by
  unfold decodePayload at h
  split at h
  case isTrue => contradiction
  case isFalse =>
    split at h
    case isTrue  => contradiction
    case isFalse =>
      injection h with _ h
      exact h ▸ List.drop_suffix _ _

theorem size?_suffix {short size : Nat} (h : size? short bs = some (size, rest)) :
    rest <:+ bs := by
  have ⟨_, h⟩ := Option.ite_none_left_eq_some.mp h
  injection h with h
  injection h with _ h
  exact h ▸ List.drop_suffix _ _

theorem key?_suffix {masked : Bool} {key : Option Key} (h : key? masked bs = some (key, rest)) :
    rest <:+ bs := by
  rw [key?] at h
  split at h
  case isTrue =>
    have ⟨_, _, h⟩ := Option.map_eq_some_iff.mp h
    injection h with _ h
    exact h ▸ List.drop_suffix _ _
  case isFalse =>
    injection h with h
    injection h with _ h
    exact h ▸ List.suffix_rfl

-- A frame takes its header off the bytes at least.
theorem length_rest_lt (h : decode bs = .frame frame rest) : rest.length < bs.length := by
  unfold decode at h
  split at h
  case h_1 first second bs =>
    split at h
    case h_1 => contradiction
    case h_2 size bs₁ hs =>
      split at h
      case h_1 => contradiction
      case h_2 key bs₂ hk =>
        split at h
        case h_1 => contradiction
        case h_2 opcode _ =>
          have hl := ((decodePayload_suffix h).trans (key?_suffix hk)).trans (size?_suffix hs)
          have := hl.length_le
          simp only [List.length_cons]
          omega
  case h_2 => contradiction

end Frame

namespace Endpoint

variable {e e' : Endpoint} {frame : Frame} {message : Option Message}

theorem ok_of_bind {ε α β : Type} {x : Except ε α} {f : α → Except ε β} {b : β}
    (h : x >>= f = .ok b) : ∃ a, x = .ok a ∧ f a = .ok b := by
  cases x
  case error => contradiction
  case ok a  => exact ⟨a, rfl, h⟩

theorem unread_queue (e : Endpoint) (frame : Frame) : (e.queue frame).unread = e.unread := by
  unfold queue
  split
  case h_1 => rfl
  case h_2 => split <;> rfl

theorem unread_acceptClose (e : Endpoint) (reason : Option CloseReason) :
    (e.acceptClose reason).2.unread = e.unread := by
  unfold acceptClose
  split
  case h_1 => exact unread_queue _ _
  all_goals rfl

theorem unread_acceptControl (h : e.acceptControl frame = .ok (message, e')) :
    e'.unread = e.unread := by
  unfold acceptControl at h
  split at h
  case isTrue  => contradiction
  case isFalse =>
    split at h
    case h_1 =>
      injection h with h
      injection h with _ h
      subst h
      split
      case isTrue  => exact unread_queue _ _
      case isFalse => rfl
    case h_2 =>
      injection h with h
      injection h with _ h
      exact h ▸ rfl
    case h_3 =>
      have ⟨reason, _, h⟩ := ok_of_bind h
      have ha := unread_acceptClose e reason
      injection h with h
      rwa [h] at ha

-- The rest of what `acceptData` does, whichever message the frame belongs to.
theorem unread_of_begun {begun : Fragments} (h : (do
    let fragments ← begun.extend e.limit frame.payload
    if frame.final then
      let message ← fragments.complete
      return (some message, { e with fragments := none })
    else
      return (none, { e with fragments := some fragments })) = .ok (message, e')) :
    e'.unread = e.unread := by
  have ⟨_, _, h⟩ := ok_of_bind h
  split at h
  case isTrue =>
    have ⟨_, _, h⟩ := ok_of_bind h
    cases h
    rfl
  case isFalse =>
    cases h
    rfl

theorem unread_acceptData (h : e.acceptData frame = .ok (message, e')) :
    e'.unread = e.unread := by
  unfold acceptData at h
  extract_lets at h
  split at h
  case h_4 => contradiction
  all_goals exact unread_of_begun h

theorem unread_accept (h : e.accept frame = .ok (message, e')) : e'.unread = e.unread := by
  unfold accept at h
  split at h
  case isTrue  => contradiction
  case isFalse =>
    split at h
    case isTrue  => exact unread_acceptControl h
    case isFalse => exact unread_acceptData h

end Endpoint

namespace Pair

-- Whether a receive goes on behind the turn.
def Turn.passes : Turn → Bool
  | .item found => found.arrival? = none
  | .absorbed   => true
  | .pending    => false

-- The items that a client's turns of reading yield, whatever else goes on between the turns.
inductive Yields : Pair → List Item → Pair → Prop where
  | nothing  : Yields p [] p
  | item     : p.turn .client = (.item item, q) → Yields q items r → Yields p (item :: items) r
  | absorbed : p.turn .client = (.absorbed, q) → Yields q items r → Yields p items r
  | pending  : p.turn .client = (.pending, q) → Yields q items r → Yields p items r
  | between  : event ≠ .clientReceive → Yields (p.step event).2 items r → Yields p items r

-- What an answer shows to whoever receives.
def Answer.arrival? : Answer → Option Arrival
  | .arrival found => found
  | _              => none

variable {p q r : Pair} {items items' : List Item}

theorem unread_write (p : Pair) (frames : List Frame) :
    (p.write .client frames).2.client.unread = p.client.unread := by
  unfold write
  dsimp only
  split
  case isTrue  => rfl
  case isFalse => split <;> rfl

-- Only a frame that is taken in lets a receive go on, and it is gone from what has arrived.
theorem unread_readFrame_lt (h : (p.readFrame .client).1.passes) :
    (p.readFrame .client).2.client.unread.length < p.client.unread.length := by
  unfold readFrame at h ⊢
  dsimp only at h ⊢
  cases hd : Frame.decode (p.get .client).unread
  case incomplete =>
    simp only [hd] at h
    split at h
    case isTrue  => split at h <;> cases h
    case isFalse => cases h
  case badOpcode => simp only [hd] at h; cases h
  case tooLong   => simp only [hd] at h; cases h
  case frame frame rest =>
    simp only [hd] at h ⊢
    have hl := Frame.length_rest_lt hd
    cases ha : Endpoint.accept { p.get .client with unread := rest } frame
    case error problem => cases problem <;> simp only [ha] at h <;> cases h
    case ok taken =>
      obtain ⟨message, e⟩ := taken
      have hu := Endpoint.unread_accept ha
      cases message
      all_goals exact Nat.lt_of_le_of_lt (Nat.le_of_eq <| congrArg List.length hu) hl

-- The client never gives the wire up of its own.
theorem turn_of_not_ended (h : p.client.ended = false) :
    p.turn .client =
      if (p.write .client []).1 then (p.write .client []).2.readFrame .client
      else (p.write .client []).2.finish .client .failed := by
  unfold turn
  rw [if_neg (show ¬ (p.get .client).ended by simp [get, h])]
  rcases p.write .client [] with ⟨_ | _, written⟩
  case false => rfl
  case true  => exact if_neg (fun h => nomatch h.left)

theorem unread_turn_lt (h : (p.turn .client).1.passes) :
    (p.turn .client).2.client.unread.length < p.client.unread.length := by
  cases he : p.client.ended
  case true =>
    rw [turn, if_pos (show (p.get .client).ended from he)] at h
    cases h
  case false =>
    rw [turn_of_not_ended he] at h ⊢
    split at h
    case isFalse      => cases h
    case isTrue hw =>
      rw [if_pos hw]
      exact Nat.lt_of_lt_of_eq (unread_readFrame_lt h) (congrArg List.length (p.unread_write []))

theorem Yields.trans (h : Yields p items q) (h' : Yields q items' r) :
    Yields p (items ++ items') r := by
  induction h
  case nothing             => exact h'
  case item turn _ hi      => exact .item turn (hi h')
  case absorbed turn _ hi  => exact .absorbed turn (hi h')
  case pending turn _ hi   => exact .pending turn (hi h')
  case between other _ hi  => exact .between other (hi h')

-- A receive goes on to the one item that is an arrival and not past it.
theorem yields_receiveWithin (p : Pair) (turns : Nat) :
    ∃ items, p.Yields items (p.receiveWithin .client turns).2 ∧
      items.filterMap Item.arrival? = (p.receiveWithin .client turns).1.toList := by
  induction turns generalizing p
  case zero => exact ⟨[], .nothing, rfl⟩
  case succ turns hi =>
    rw [receiveWithin]
    rcases ht : p.turn .client with ⟨item | _ | _, q⟩
    case item =>
      cases ha : item.arrival?
      case some arrival =>
        refine ⟨[item], ?_, ?_⟩
        · simpa only [ha] using .item ht .nothing
        · simp [ha]
      case none =>
        obtain ⟨items, yields, arrivals⟩ := hi q
        refine ⟨item :: items, ?_, ?_⟩
        · simpa only [ha] using .item ht yields
        · simpa [ha] using arrivals
    case absorbed =>
      obtain ⟨items, yields, arrivals⟩ := hi q
      exact ⟨items, .absorbed ht yields, arrivals⟩
    case pending => exact ⟨[], .pending ht .nothing, rfl⟩

-- A receive without an arrival has come to where the wire has no whole frame.
theorem pending_of_receiveWithin {turns : Nat} (ample : p.client.unread.length < turns)
    (h : (p.receiveWithin .client turns).1 = none) :
    ∃ items last, p.Yields items last ∧
      last.turn .client = (.pending, (p.receiveWithin .client turns).2) := by
  induction turns generalizing p
  case zero => contradiction
  case succ turns hi =>
    have hl := p.unread_turn_lt
    rw [receiveWithin] at h ⊢
    rcases ht : p.turn .client with ⟨item | _ | _, q⟩
    all_goals simp only [ht] at h hl ⊢
    case item =>
      cases ha : item.arrival?
      case some => simp [ha] at h
      case none =>
        simp only [ha] at h ⊢
        obtain ⟨items, last, yields, pending⟩ := hi (by grind [Turn.passes]) h
        exact ⟨item :: items, last, .item ht yields, pending⟩
    case absorbed =>
      obtain ⟨items, last, yields, pending⟩ := hi (by grind [Turn.passes]) h
      exact ⟨items, last, .absorbed ht yields, pending⟩
    case pending => exact ⟨[], p, .nothing, ht⟩

theorem pending_of_receive (h : p.receive.1 = none) :
    ∃ items last, p.Yields items last ∧ last.turn .client = (.pending, p.receive.2) :=
  pending_of_receiveWithin (Nat.lt_succ_self _) h

-- Only a receive has an arrival to show.
theorem arrival?_step {event : Event} (h : event ≠ .clientReceive) :
    (p.step event).1.arrival? = none := by
  cases event
  case clientReceive => contradiction
  case clientSend text =>
    rw [step]
    split <;> rfl
  case clientClose => rfl
  case serverDrop  => rfl
  all_goals
    rw [step, onServer]
    split <;> rfl

theorem yields_step (p : Pair) (event : Event) :
    ∃ items, p.Yields items (p.step event).2 ∧
      items.filterMap Item.arrival? = (p.step event).1.arrival?.toList := by
  by_cases he : event = .clientReceive
  case pos => exact he ▸ p.yields_receiveWithin (p.client.unread.length + 1)
  case neg => exact ⟨[], .between he .nothing, by rw [arrival?_step he]; rfl⟩

theorem yields_run (p : Pair) (events : List Event) :
    ∃ items, p.Yields items (p.run events).2 ∧
      items.filterMap Item.arrival? = (p.run events).1.filterMap Answer.arrival? := by
  induction events generalizing p
  case nil => exact ⟨[], .nothing, rfl⟩
  case cons event events hi =>
    obtain ⟨items, first, arrival⟩ := p.yields_step event
    obtain ⟨later, yields, arrivals⟩ := hi (p.step event).2
    refine ⟨items ++ later, first.trans yields, ?_⟩
    rw [List.filterMap_append, arrival, arrivals, run, List.filterMap_cons]
    cases (p.step event).1.arrival? <;> rfl

end Pair

end LedgerWire.WebSocket
