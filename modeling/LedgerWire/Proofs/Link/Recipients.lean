import LedgerWire.Proofs.Link.Consumers

open LedgerWire.Stream (Kind)

namespace LedgerWire

namespace Frame

variable {frame : Fields} {kind : Kind}

-- Whether a frame says that it is not validated. If its flag is missing or no flag at all, it does
-- not.
def Unvalidated (frame : Fields) : Prop :=
  frame.get? validatedField = some (.bool false)

-- What the consumer of a stream can rely on.
structure Suits (frame : Fields) (kind : Kind) : Prop where
  type      : type? frame = some kind.pushType
  validated : kind = .transactions → ¬Unvalidated frame

theorem bind_bool?_eq_some {value : Option Json} {b : Bool} :
    value.bind Json.bool? = some b ↔ value = some (.bool b) := by
  rcases value with _ | _ | _ | _ | _ | _ | _ | _ <;> simp [Json.bool?]

theorem stream?_of_unvalidated (ht : type? frame = some "transaction") (hv : Unvalidated frame) :
    stream? frame = some .transactionsProposed := by
  have hk : Kind.ofPushType? "transaction" = some .transactions := by decide
  rw [stream?, ht, Option.bind_some, hk]
  exact if_pos <| bind_bool?_eq_some.mpr hv

theorem stream?_of_not_unvalidated (ht : type? frame = some "transaction")
    (hv : ¬Unvalidated frame) : stream? frame = some .transactions := by
  have hk : Kind.ofPushType? "transaction" = some .transactions := by decide
  rw [stream?, ht, Option.bind_some, hk]
  exact if_neg <| mt bind_bool?_eq_some.mp hv

-- Apart from transactions, every stream has a type of its own.
theorem stream?_of_type (ht : type? frame = some kind.pushType) (hk : kind ≠ .transactions)
    (hp : kind ≠ .transactionsProposed) : stream? frame = some kind := by
  rw [stream?, ht, Option.bind_some]
  cases kind
  case transactions         => exact absurd rfl hk
  case transactionsProposed => exact absurd rfl hp
  all_goals rfl

theorem stream?_of_no_type (h : ∀ kind : Kind, type? frame ≠ some kind.pushType) :
    stream? frame = none := by
  have hn : (type? frame).bind Kind.ofPushType? = none := by
    cases ht : type? frame
    case none => rfl
    case some type =>
      rw [Option.bind_some, Kind.ofPushType?, List.find?_eq_none]
      exact fun kind _ hk => h kind <| by rw [ht, of_decide_eq_true hk]
  rw [stream?, hn]

theorem Suits.of_stream? (h : stream? frame = some kind) : Suits frame kind := by
  by_cases ht : type? frame = some "transaction"
  case pos =>
    by_cases hv : Unvalidated frame
    case pos =>
      cases h.symm.trans <| stream?_of_unvalidated ht hv
      exact ⟨ht, nofun⟩
    case neg =>
      cases h.symm.trans <| stream?_of_not_unvalidated ht hv
      exact ⟨ht, fun _ => hv⟩
  case neg =>
    by_cases hk : ∃ k : Kind, type? frame = some k.pushType
    case neg => cases h.symm.trans <| stream?_of_no_type (not_exists.mp hk)
    case pos =>
      obtain ⟨k, hk⟩ := hk
      have hne : k ≠ .transactions := by rintro rfl; exact ht hk
      have hnp : k ≠ .transactionsProposed := by rintro rfl; exact ht hk
      cases h.symm.trans <| stream?_of_type hk hne hnp
      exact ⟨hk, fun heq => absurd heq hne⟩

theorem unvalidated_of_stream? (h : stream? frame = some .transactionsProposed) :
    Unvalidated frame := by
  by_contra hv
  cases h.symm.trans <| stream?_of_not_unvalidated (Suits.of_stream? h).type hv

end Frame

namespace Stream

-- What waits for the consumer of a channel to read it.
def Channel.held : Channel → List Fields
  | .live buffer => buffer
  | _            => []

namespace Hub

variable {hub next : Hub} {kind k : Kind} {frame : Fields}

-- Whether somebody waits for the pushes of a stream.
def Wants (hub : Hub) (kind : Kind) : Prop :=
  hub.closed = false ∧ (hub.channel kind).isLive

-- What is left of a push that nobody gets.
structure Lost (hub next : Hub) : Prop where
  channels  : ∀ k, next.channel k = hub.channel k
  delivered : next.delivered = hub.delivered
  dropped   : next.dropped = hub.dropped + 1

-- The push goes to the consumer of one stream, if it is there and has room, and else to nobody.
structure OfferedTo (hub : Hub) (kind : Kind) (push : Fields) (next : Hub) : Prop where
  others   : ∀ k ≠ kind, next.channel k = hub.channel k
  accepted : ∀ buffer, hub.closed = false → hub.channel kind = .live buffer →
    buffer.length < hub.capacity → next.channel kind = .live (buffer ++ [push]) ∧
      next.delivered = hub.delivered + 1 ∧ next.dropped = hub.dropped
  refused  : hub.Refuses kind → hub.Lost next

-- Where a push goes, by its type, by its flag, and by who waits.
structure Routed (hub : Hub) (push : Fields) (next : Hub) : Prop where
  proposed  : Frame.type? push = some "transaction" → Frame.Unvalidated push →
    hub.OfferedTo .transactionsProposed push next
  validated : Frame.type? push = some "transaction" → ¬Frame.Unvalidated push →
    hub.Wants .transactions → hub.OfferedTo .transactions push next
  diverted  : Frame.type? push = some "transaction" → ¬Frame.Unvalidated push →
    ¬hub.Wants .transactions → hub.Wants .transactionsProposed →
    hub.OfferedTo .transactionsProposed push next
  unwanted  : Frame.type? push = some "transaction" → ¬Frame.Unvalidated push →
    ¬hub.Wants .transactions → ¬hub.Wants .transactionsProposed → hub.Lost next
  own       : ∀ kind : Kind, kind ≠ .transactions → kind ≠ .transactionsProposed →
    Frame.type? push = some kind.pushType → hub.OfferedTo kind push next
  unknown   : (∀ kind : Kind, Frame.type? push ≠ some kind.pushType) → hub.Lost next

theorem hasConsumer_iff : hub.hasConsumer kind ↔ hub.Wants kind := by
  simp [hasConsumer, Wants]

theorem refuses_of_not_wants (h : ¬hub.Wants kind) : hub.Refuses kind := by
  cases hc : hub.closed
  case true  => exact .closed hc
  case false => exact .absent <| Bool.eq_false_iff.mpr fun hl => h ⟨hc, hl⟩

theorem resolve_of_ne (h : kind ≠ .transactions) (hub : Hub) : hub.resolve kind = kind :=
  if_neg fun hr => h hr.left

theorem resolve_of_wants (h : hub.Wants .transactions) :
    hub.resolve .transactions = .transactions :=
  if_neg fun hr => by simp [hasConsumer_iff.mpr h] at hr

theorem resolve_diverted (h : ¬hub.Wants .transactions) (hp : hub.Wants .transactionsProposed) :
    hub.resolve .transactions = .transactionsProposed := by
  have hn : hub.hasConsumer .transactions = false :=
    Bool.eq_false_iff.mpr <| mt hasConsumer_iff.mp h
  exact if_pos ⟨rfl, by simp [hn], hasConsumer_iff.mpr hp⟩

theorem resolve_unwanted (h : ¬hub.Wants .transactionsProposed) (kind : Kind) :
    hub.resolve kind = kind :=
  if_neg fun hr => h <| hasConsumer_iff.mp hr.right.right

theorem Lost.drop (hub : Hub) : hub.Lost hub.drop :=
  ⟨fun _ => rfl, rfl, rfl⟩

theorem Lost.offer (h : hub.Refuses kind) (push : Fields) : hub.Lost (hub.offer kind push) := by
  rw [offer_of_refuses h]
  exact .drop hub

theorem OfferedTo.offer (hub : Hub) (kind : Kind) (push : Fields) :
    hub.OfferedTo kind push (hub.offer kind push) where
  others _ hk := channel_offer_of_ne hk push
  refused h   := .offer h push
  accepted buffer hc hk hl := by
    have hr : ¬hub.Refuses kind := by
      rintro (h | h | ⟨h, hf⟩)
      · simp [hc] at h
      · simp [hk, Channel.isLive] at h
      · cases hk.symm.trans h
        exact Nat.not_le.mpr hl hf
    obtain ⟨_, hb, _, ho⟩ := offer_of_not_refuses hr push
    cases hk.symm.trans hb
    rw [ho]
    exact ⟨(channel_setChannel ..).trans (if_pos rfl), rfl, rfl⟩

theorem held_setChannel {channel : Channel} (h : channel.held ⊆ (hub.channel kind).held)
    (k : Kind) : ((hub.setChannel kind channel).channel k).held ⊆ (hub.channel k).held := by
  rw [channel_setChannel]
  split
  case isTrue hk => exact hk ▸ h
  case isFalse   => exact List.Subset.refl _

theorem held_take (hub : Hub) (kind k : Kind) :
    ((hub.take kind).2.channel k).held ⊆ (hub.channel k).held := by
  rw [take]
  split
  case h_1 => exact held_setChannel (List.nil_subset _) k
  case h_2 => exact List.Subset.refl _

theorem held_dropConsumer (hub : Hub) (kind k : Kind) :
    ((hub.dropConsumer kind).2.channel k).held ⊆ (hub.channel k).held := by
  rw [dropConsumer]
  split
  case isTrue  => exact held_setChannel (List.nil_subset _) k
  case isFalse => exact List.Subset.refl _

theorem held_read (hub : Hub) (kind : Kind) (most : Nat) (k : Kind) :
    ((hub.read kind most).2.channel k).held ⊆ (hub.channel k).held := by
  cases h : hub.channel kind
  case live buffer =>
    rw [channel_read h]
    split
    case isTrue hk => rw [hk, h]; exact List.drop_subset ..
    case isFalse   => exact List.Subset.refl _
  all_goals
    rw [read_of_not_live (by rw [h]; rfl)]
    exact List.Subset.refl _

-- A push that gets into a buffer is all that is new.
theorem mem_held_append {buffer : List Fields} {push arrived : Fields}
    (hk : hub.channel kind = .live buffer)
    (mem : push ∈ ((hub.setChannel kind (.live (buffer ++ [arrived]))).channel k).held) :
    push ∈ (hub.channel k).held ∨ k = kind ∧ push = arrived := by
  rw [channel_setChannel] at mem
  split at mem
  case isFalse => exact .inl mem
  case isTrue heq =>
    rw [heq, hk]
    cases List.mem_append.mp mem
    case inl mem => exact .inl mem
    case inr mem => exact .inr ⟨rfl, List.mem_singleton.mp mem⟩

end Hub
end Stream

namespace Connection

variable {c : Connection} {frame : Fields} {kind : Kind}

theorem hub_push_of_stream (h : Frame.stream? frame = some kind) :
    (c.push frame).hub = c.hub.offer (c.hub.resolve kind) frame := by
  simp only [push, h, Stream.Hub.deliver]

theorem hub_push_of_no_stream (h : Frame.stream? frame = none) :
    (c.push frame).hub = c.hub.drop := by
  simp only [push, h]

theorem offeredTo_push (hs : Frame.stream? frame = some kind) {k : Kind}
    (hr : c.hub.resolve kind = k) : c.hub.OfferedTo k frame (c.push frame).hub := by
  rw [hub_push_of_stream hs, hr]
  exact .offer ..

theorem routed_push (c : Connection) (frame : Fields) : c.hub.Routed frame (c.push frame).hub where
  proposed ht hv       := offeredTo_push (Frame.stream?_of_unvalidated ht hv)
    (Stream.Hub.resolve_of_ne (by decide) _)
  validated ht hv hw   := offeredTo_push (Frame.stream?_of_not_unvalidated ht hv)
    (Stream.Hub.resolve_of_wants hw)
  diverted ht hv hw hp := offeredTo_push (Frame.stream?_of_not_unvalidated ht hv)
    (Stream.Hub.resolve_diverted hw hp)
  unwanted ht hv hw hp := by
    have ho := offeredTo_push (c := c) (Frame.stream?_of_not_unvalidated ht hv)
      (Stream.Hub.resolve_unwanted hp _)
    exact ho.refused <| Stream.Hub.refuses_of_not_wants hw
  own k hk hp ht       := offeredTo_push (Frame.stream?_of_type ht hk hp)
    (Stream.Hub.resolve_of_ne hk _)
  unknown h            := by
    rw [hub_push_of_no_stream <| Frame.stream?_of_no_type h]
    exact .drop _

theorem routed_route {text : String} (hf : Frame.ofText? text = some frame)
    (ha : c.awaits frame = false) : c.hub.Routed frame (c.route text).hub := by
  have hr : c.route text = c.push frame := by
    simp only [route, hf]
    exact routeFrame_of_not_awaits ha
  rw [hr]
  exact c.routed_push frame

-- What may be put before the consumer of a stream.
structure Meant (hub : Stream.Hub) (kind : Kind) (push : Fields) : Prop where
  suits    : Frame.Suits push kind
  proposed : kind = .transactionsProposed → hub.Wants .transactions → Frame.Unvalidated push

theorem Meant.of_stream? {hub : Stream.Hub} (h : Frame.stream? frame = some kind) :
    Meant hub (hub.resolve kind) frame := by
  have hs := Frame.Suits.of_stream? h
  by_cases hk : kind = .transactions
  case neg =>
    rw [Stream.Hub.resolve_of_ne hk]
    exact ⟨hs, fun heq _ => Frame.unvalidated_of_stream? (heq ▸ h)⟩
  case pos =>
    subst hk
    by_cases hw : hub.Wants .transactions
    case pos =>
      rw [Stream.Hub.resolve_of_wants hw]
      exact ⟨hs, nofun⟩
    case neg =>
      -- Both streams of transactions have one type, and nobody waits for those that are validated.
      by_cases hp : hub.Wants .transactionsProposed
      case pos =>
        rw [Stream.Hub.resolve_diverted hw hp]
        exact ⟨⟨hs.type, nofun⟩, fun _ h => absurd h hw⟩
      case neg =>
        rw [Stream.Hub.resolve_unwanted hp]
        exact ⟨hs, nofun⟩

theorem meant_of_pushed? {text : String} (h : c.pushed? text = some (kind, frame)) :
    Meant c.hub kind frame := by
  have ⟨_, _, _, hs, hk⟩ := pushed?_eq_some_iff.mp h
  exact hk ▸ .of_stream? hs

end Connection

namespace Link

variable {link : Link} {event : Event} {kind : Kind} {push : Fields}

theorem meant_of_accepted (mem : (kind, push) ∈ link.accepted event) :
    Connection.Meant link.connection.hub kind push := by
  have mem : (kind, push) ∈ link.pushes event := by
    rw [accepted] at mem
    split at mem
    case isTrue  => cases mem
    case isFalse => exact mem
  obtain ⟨_, _, hp⟩ := List.mem_filterMap.mp mem
  exact Connection.meant_of_pushed? hp

-- What a consumer reads was held for it.
theorem consumed_subset (link : Link) (kind : Kind) (event : Event) :
    link.consumed kind event ⊆ (link.connection.hub.channel kind).held := by
  unfold consumed
  split
  case h_2 => exact List.nil_subset _
  case h_1 k most =>
    split
    case isFalse => exact List.nil_subset _
    case isTrue hk =>
      subst hk
      cases hc : link.connection.hub.channel k
      case live buffer =>
        rw [answer_read hc, Answer.pushes, Stream.Hub.pushes_readings]
        exact List.take_subset ..
      all_goals
        simp [Link.step, work, Link.onEvent, act, hc, Stream.Channel.isLive, Answer.pushes]

theorem held_hubAfter (link : Link) (hn : ∀ text, event ≠ .peerSend text) (kind : Kind) :
    ((link.hubAfter event).channel kind).held ⊆ (link.connection.hub.channel kind).held := by
  cases event
  case act action =>
    cases action
    case take k         => exact Stream.Hub.held_take _ k kind
    case read k most    => exact Stream.Hub.held_read _ k most kind
    case dropConsumer k => exact Stream.Hub.held_dropConsumer _ k kind
    all_goals exact List.Subset.refl _
  case peerSend text => exact absurd rfl (hn text)
  all_goals exact List.Subset.refl _

-- Only what is accepted for a stream gets in front of its consumer.
theorem Settled.held_step (h : link.Settled)
    (mem : push ∈ ((link.step event).2.connection.hub.channel kind).held) :
    push ∈ (link.connection.hub.channel kind).held ∨ (kind, push) ∈ link.accepted event := by
  rcases event.arrives with hn | ⟨text, rfl⟩
  case inl =>
    have ⟨_, hs⟩ := h.hub_step event
    rw [hs] at mem
    exact .inl <| link.held_hubAfter hn kind mem
  case inr =>
    rcases h.arrival_cases text with ⟨_, _, _, hs⟩ | ⟨_, _, _, _, ha, hk, hs⟩
    case inl =>
      rw [hs] at mem
      exact .inl mem
    case inr =>
      rw [hs] at mem
      cases Stream.Hub.mem_held_append hk mem
      case inl mem => exact .inl mem
      case inr heq =>
        rw [ha, heq.left, heq.right]
        exact .inr <| List.mem_singleton_self _

-- What is held for a consumer suits it.
def Suited (link : Link) : Prop :=
  ∀ kind, ∀ push ∈ (link.connection.hub.channel kind).held, Frame.Suits push kind

theorem Suited.step (hs : link.Suited) (h : link.Settled) (event : Event) :
    (link.step event).2.Suited := by
  intro kind push mem
  cases h.held_step mem
  case inl mem => exact hs kind push mem
  case inr mem => exact (meant_of_accepted mem).suits

theorem Suited.run (hs : link.Suited) (h : link.Settled) (events : List Event) :
    (link.after events).Suited ∧
      ∀ kind, ∀ push ∈ link.gather (consumed kind) events, Frame.Suits push kind := by
  induction events generalizing link
  case nil => exact ⟨hs, nofun⟩
  case cons event events hi =>
    have ⟨sorted, suits⟩ := hi (hs.step h event) (h.step event)
    refine ⟨sorted, fun kind push mem => ?_⟩
    rw [gather] at mem
    cases List.mem_append.mp mem
    case inl mem => exact hs kind push <| link.consumed_subset kind event mem
    case inr mem => exact suits kind push mem

theorem Settled.hub_step_peerSend (h : link.Settled) (hr : link.reading) (text : String) :
    (link.step (.peerSend text)).2.connection.hub = (link.connection.route text).hub := by
  have hs : (link.step (.peerSend text)).2.connection.hub =
      (link.onEvent (.peerSend text)).2.settle.connection.hub := rfl
  rw [hs, h.settle_peerSend_of_reading hr]

-- A frame that answers no request is offered to one consumer or to none, and which one follows from
-- its type, its flag and the consumers that are there. Whatever was taken, dropped and delivered
-- before, it is one that the push suits, and while somebody waits for validated transactions, no
-- other consumer is given one. So nothing that a consumer holds or reads belongs to another stream.
theorem pushes_reach_their_consumers (config : LinkConfig) (events : List Event) :
    let link := (start config).after events
    let hub  := link.connection.hub
    (∀ (c : Connection) (text : String) (frame : Fields), Frame.ofText? text = some frame →
      c.awaits frame = false → c.hub.Routed frame (c.route text).hub) ∧
    (link.reading → ∀ text,
      (link.step (.peerSend text)).2.connection.hub = (link.connection.route text).hub) ∧
    (∀ event kind push, (kind, push) ∈ link.accepted event → Connection.Meant hub kind push) ∧
    (∀ kind, ∀ push ∈ (hub.channel kind).held, Frame.Suits push kind) ∧
    (∀ kind, ∀ push ∈ (start config).gather (consumed kind) events, Frame.Suits push kind) := by
  have hs : (start config).Settled := .start config
  have hn : (start config).Suited := nofun
  have ⟨held, read⟩ := hn.run hs events
  exact ⟨fun _ _ _ => Connection.routed_route, (hs.run events).hub_step_peerSend,
    fun _ _ _ => meant_of_accepted, held, read⟩

end Link

end LedgerWire
