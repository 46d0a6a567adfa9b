import LedgerWire.Proofs.Stream.Closing

namespace LedgerWire.Stream

-- Whether the consumer was ever taken.
def Channel.isTaken : Channel → Bool
  | .untaken => false
  | _        => true

def Reading.push? : Reading → Option Fields
  | .push frame => some frame
  | _           => none

namespace Hub

variable {hub : Hub} {kind k : Kind} {buffer : List Fields}

-- Each effect names the fields that may differ. All others are as before.
theorem take_effect (hub : Hub) (kind : Kind) : ∃ channels,
    (hub.take kind).2 = { hub with channels } := by
  rw [take]
  split <;> exact ⟨_, rfl⟩

theorem dropConsumer_effect (hub : Hub) (kind : Kind) : ∃ channels,
    (hub.dropConsumer kind).2 = { hub with channels } := by
  rw [dropConsumer]
  split <;> exact ⟨_, rfl⟩

theorem channel_of_take (h : (hub.take kind).1) : (hub.take kind).2.channel kind = .live [] := by
  rw [take] at h ⊢
  split at h
  case h_1 hk => simp only [hk, channel_setChannel, if_pos]
  case h_2 => cases h

theorem take_of_taken (h : (hub.channel kind).isTaken) : hub.take kind = (false, hub) := by
  rw [take]
  split
  case h_1 hk => simp [hk, Channel.isTaken] at h
  case h_2 => rfl

-- Who takes a consumer leaves all others alone.
theorem channel_take (h : (hub.channel k).isTaken) (kind : Kind) :
    (hub.take kind).2.channel k = hub.channel k := by
  by_cases hk : k = kind
  case pos => rw [← hk, take_of_taken h]
  case neg =>
    rw [take]
    split
    case h_1 => rw [channel_setChannel, if_neg hk]
    case h_2 => rfl

theorem channel_dropConsumer_of_ne (hk : k ≠ kind) :
    (hub.dropConsumer kind).2.channel k = hub.channel k := by
  rw [dropConsumer]
  split
  case isTrue  => rw [channel_setChannel, if_neg hk]
  case isFalse => rfl

theorem isTaken_dropConsumer (h : (hub.channel k).isTaken) (kind : Kind) :
    ((hub.dropConsumer kind).2.channel k).isTaken := by
  rw [dropConsumer]
  split
  case isFalse => exact h
  case isTrue =>
    rw [channel_setChannel]
    split
    case isTrue  => rfl
    case isFalse => exact h

theorem read_of_not_live (h : (hub.channel kind).isLive = false) (most : Nat) :
    hub.read kind most = ([], hub) := by
  cases most
  case zero => rfl
  case succ =>
    rw [read, readOne?]
    cases hk : hub.channel kind
    case live => simp [hk, Channel.isLive] at h
    all_goals rfl

theorem read_succ_of_empty (h : hub.channel kind = .live []) (most : Nat) :
    hub.read kind (most + 1) = ([if hub.closed then .ended else .empty], hub) := by
  rw [read, readOne?, h]
  cases hub.closed <;> rfl

theorem read_succ_of_cons {push : Fields} (h : hub.channel kind = .live (push :: buffer))
    (most : Nat) :
    hub.read kind (most + 1) =
      (.push push :: ((hub.setChannel kind (.live buffer)).read kind most).1,
        ((hub.setChannel kind (.live buffer)).read kind most).2) := by
  rw [read, readOne?, h]

-- What so many reads of a buffer give. Behind its last push they say why no more is there.
def readings (closed : Bool) (buffer : List Fields) (most : Nat) : List Reading :=
  (buffer.take most).map .push ++
    if buffer.length < most then [if closed then .ended else .empty] else []

-- The pushes among them are those at the front of the buffer.
theorem pushes_readings (closed : Bool) (buffer : List Fields) (most : Nat) :
    (readings closed buffer most).filterMap Reading.push? = buffer.take most := by
  have hp (buffer : List Fields) : (buffer.map Reading.push).filterMap Reading.push? = buffer := by
    rw [List.filterMap_map]
    exact List.filterMap_some
  rw [readings, List.filterMap_append, hp]
  split <;> cases closed <;> simp [Reading.push?]

theorem read_fst (h : hub.channel kind = .live buffer) (most : Nat) :
    (hub.read kind most).1 = readings hub.closed buffer most := by
  induction most generalizing hub buffer
  case zero => simp [read, readings]
  case succ most hi =>
    cases buffer
    case nil => simp [read_succ_of_empty h, readings]
    case cons push buffer =>
      have hc := hub.channel_setChannel kind kind (.live buffer)
      rw [read_succ_of_cons h, hi (hc.trans <| if_pos rfl), closed_setChannel]
      simp [readings]

theorem channel_read (h : hub.channel kind = .live buffer) (most : Nat) :
    (hub.read kind most).2.channel k =
      if k = kind then .live (buffer.drop most) else hub.channel k := by
  induction most generalizing hub buffer
  case zero => by_cases hk : k = kind <;> simp [read, hk, h]
  case succ most hi =>
    cases buffer
    case nil => by_cases hk : k = kind <;> simp [read_succ_of_empty h, hk, h]
    case cons push buffer =>
      have hc (k : Kind) := hub.channel_setChannel kind k (.live buffer)
      rw [read_succ_of_cons h, hi ((hc kind).trans <| if_pos rfl), hc, List.drop_succ_cons]
      split <;> rfl

theorem read_effect (hub : Hub) (kind : Kind) (most : Nat) : ∃ channels,
    (hub.read kind most).2 = { hub with channels } := by
  induction most generalizing hub
  case zero => exact ⟨_, rfl⟩
  case succ most hi =>
    cases h : hub.channel kind
    case live buffer =>
      cases buffer
      case nil => exact ⟨_, by rw [read_succ_of_empty h]⟩
      case cons push buffer =>
        obtain ⟨channels, hr⟩ := hi (hub.setChannel kind (.live buffer))
        exact ⟨channels, by rw [read_succ_of_cons h, hr]; rfl⟩
    all_goals exact ⟨_, by rw [read_of_not_live (by rw [h]; rfl)]⟩

theorem channel_read_of_ne (hk : k ≠ kind) (most : Nat) :
    (hub.read kind most).2.channel k = hub.channel k := by
  cases h : hub.channel kind
  case live buffer => rw [channel_read h, if_neg hk]
  all_goals rw [read_of_not_live (by rw [h]; rfl)]

theorem isTaken_read (h : (hub.channel k).isTaken) (kind : Kind) (most : Nat) :
    ((hub.read kind most).2.channel k).isTaken := by
  cases hc : hub.channel kind
  case live buffer =>
    rw [channel_read hc]
    split
    case isTrue  => rfl
    case isFalse => exact h
  all_goals rwa [read_of_not_live (by rw [hc]; rfl)]

-- The ways in which a push for a kind is dropped.
inductive Refuses (hub : Hub) (kind : Kind) : Prop
  | closed : hub.closed → Refuses hub kind
  | absent : (hub.channel kind).isLive = false → Refuses hub kind
  | full {buffer : List Fields} : hub.channel kind = .live buffer →
    hub.capacity ≤ buffer.length → Refuses hub kind

theorem offer_of_refuses (h : hub.Refuses kind) (push : Fields) :
    hub.offer kind push = hub.drop := by
  rw [offer]
  split
  case h_2 => rfl
  case h_1 hc hk =>
    refine if_neg ?_
    cases h
    case closed h  => simp [h] at hc
    case absent h  => simp [hk, Channel.isLive] at h
    case full h hl => cases hk.symm.trans h; exact Nat.not_lt.mpr hl

theorem offer_of_not_refuses (h : ¬hub.Refuses kind) (push : Fields) : ∃ buffer,
    hub.channel kind = .live buffer ∧ buffer.length < hub.capacity ∧
      hub.offer kind push =
        { hub.setChannel kind (.live (buffer ++ [push])) with delivered := hub.delivered + 1 } := by
  have hc : hub.closed = false := Bool.eq_false_iff.mpr fun hc => h (.closed hc)
  cases hk : hub.channel kind
  case live buffer =>
    have hl : buffer.length < hub.capacity := Nat.not_le.mp fun hl => h (.full hk hl)
    refine ⟨buffer, rfl, hl, ?_⟩
    rw [offer]
    simp only [hc, hk, if_pos hl]
  all_goals exact absurd (.absent (by rw [hk]; rfl)) h

-- A push is counted once.
theorem counts_offer (hub : Hub) (kind : Kind) (push : Fields) :
    (hub.Refuses kind → (hub.offer kind push).delivered = hub.delivered ∧
      (hub.offer kind push).dropped = hub.dropped + 1) ∧
    (¬hub.Refuses kind → (hub.offer kind push).delivered = hub.delivered + 1 ∧
      (hub.offer kind push).dropped = hub.dropped) := by
  constructor
  case left =>
    intro h
    rw [offer_of_refuses h]
    exact ⟨rfl, rfl⟩
  case right =>
    intro h
    have ⟨_, _, _, ho⟩ := offer_of_not_refuses h push
    rw [ho]
    exact ⟨rfl, rfl⟩

theorem channel_offer_of_ne (hk : k ≠ kind) (push : Fields) :
    (hub.offer kind push).channel k = hub.channel k := by
  by_cases h : hub.Refuses kind
  case pos => rw [offer_of_refuses h]; rfl
  case neg =>
    have ⟨_, _, _, ho⟩ := offer_of_not_refuses h push
    rw [ho]
    exact (channel_setChannel ..).trans (if_neg hk)

theorem isTaken_offer (h : (hub.channel k).isTaken) (kind : Kind) (push : Fields) :
    ((hub.offer kind push).channel k).isTaken := by
  by_cases hr : hub.Refuses kind
  case pos => rw [offer_of_refuses hr]; exact h
  case neg =>
    have ⟨_, _, _, ho⟩ := offer_of_not_refuses hr push
    rw [ho]
    refine (congrArg Channel.isTaken (channel_setChannel ..)).trans ?_
    split
    case isTrue  => rfl
    case isFalse => exact h

-- No buffer holds more than there is room for.
structure Bounded (room : Nat) (hub : Hub) : Prop where
  capacity : hub.capacity = room
  buffers  : ∀ kind buffer, hub.channel kind = .live buffer → buffer.length ≤ room

namespace Bounded

variable {room : Nat}

theorem start (capacity : Nat) : (start capacity).Bounded (max capacity 1) :=
  ⟨rfl, nofun⟩

theorem setChannel {channel : Channel} (h : hub.Bounded room) (kind : Kind)
    (hc : ∀ buffer, channel = .live buffer → buffer.length ≤ room) :
    (hub.setChannel kind channel).Bounded room where
  capacity := h.capacity
  buffers k buffer hk := by
    rw [channel_setChannel] at hk
    split at hk
    case isTrue  => exact hc buffer hk
    case isFalse => exact h.buffers k buffer hk

theorem take (h : hub.Bounded room) (kind : Kind) : (hub.take kind).2.Bounded room := by
  rw [Hub.take]
  split
  case h_1 => exact h.setChannel kind fun _ hc => by cases hc; exact Nat.zero_le _
  case h_2 => exact h

theorem dropConsumer (h : hub.Bounded room) (kind : Kind) :
    (hub.dropConsumer kind).2.Bounded room := by
  rw [Hub.dropConsumer]
  split
  case isTrue  => exact h.setChannel kind (by simp)
  case isFalse => exact h

theorem read (h : hub.Bounded room) (kind : Kind) (most : Nat) :
    (hub.read kind most).2.Bounded room := by
  cases hc : hub.channel kind
  case live buffer =>
    have ⟨_, he⟩ := hub.read_effect kind most
    refine ⟨(congrArg Hub.capacity he).trans h.capacity, fun k buffer' hk => ?_⟩
    rw [channel_read hc] at hk
    split at hk
    case isFalse => exact h.buffers k buffer' hk
    case isTrue =>
      cases hk
      exact Nat.le_trans (List.drop_sublist ..).length_le <| h.buffers kind buffer hc
  all_goals rwa [read_of_not_live (by rw [hc]; rfl)]

theorem offer (h : hub.Bounded room) (kind : Kind) (push : Fields) :
    (hub.offer kind push).Bounded room := by
  by_cases hr : hub.Refuses kind
  case pos => rw [offer_of_refuses hr]; exact { h with }
  case neg =>
    have ⟨buffer, _, hl, ho⟩ := offer_of_not_refuses hr push
    rw [ho]
    have hs : (hub.setChannel kind (.live (buffer ++ [push]))).Bounded room := by
      apply h.setChannel
      rintro _ ⟨⟩
      rw [List.length_append, ← h.capacity]
      exact hl
    exact { hs with }

end Bounded

theorem refuses_iff {room : Nat} (h : hub.Bounded room) :
    hub.Refuses kind ↔ hub.closed ∨ (hub.channel kind).isLive = false ∨
      ∃ buffer, hub.channel kind = .live buffer ∧ buffer.length = room := by
  constructor
  case mp =>
    intro hr
    cases hr
    case closed hc   => exact .inl hc
    case absent hl   => exact .inr <| .inl hl
    case full hk hl  =>
      exact .inr <| .inr ⟨_, hk, Nat.le_antisymm (h.buffers kind _ hk) <| h.capacity ▸ hl⟩
  case mpr =>
    rintro (hc | hl | ⟨buffer, hk, hl⟩)
    · exact .closed hc
    · exact .absent hl
    · exact .full hk <| Nat.le_of_eq <| h.capacity.trans hl.symm

end Hub
end LedgerWire.Stream
