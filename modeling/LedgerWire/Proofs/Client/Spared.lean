import LedgerWire.Proofs.Client.Echoes
import LedgerWire.Proofs.Client.Subscriptions
import LedgerWire.Proofs.Json.Taking

namespace LedgerWire

namespace Connection

variable {c : Connection} {text : String} {config : LinkConfig} {tickets now : Nat}
variable {log : List Call} {shown : List (Nat × Outcome LinkError)} {command : Fields}

-- The text answers no call to subscribe or to unsubscribe.
def Spares (c : Connection) (text : String) : Prop :=
  ∀ call ∈ c.calls, call.purpose ≠ .command → Frame.carrying? call.id text = none

instance (c : Connection) (text : String) : Decidable (c.Spares text) :=
  inferInstanceAs (Decidable (∀ call ∈ c.calls, _ → _))

theorem active_route_of_spares (h : c.Coherent) (hs : c.Spares text) :
    (c.route text).active = c.active := by
  apply Stream.Names.members_injective
  rw [active_route h (fun call mem => find?_ticket h mem)]
  rcases replied_cases h.ids text with ho | ⟨call, mem, frame, hf, ho⟩
  case inl => rw [ho, List.foldl_nil]
  case inr =>
    have hp : call.purpose = .command := by
      by_contra hp
      simp [hs call mem hp] at hf
    rw [ho, List.foldl_cons, List.foldl_nil, amended_call (find?_ticket h mem), hp]
    rfl

-- What is queued are the frames of commands, none of them that of a call to subscribe or to
-- unsubscribe.
def Apart (c : Connection) : Prop :=
  ∀ item ∈ c.outbound, ∃ command id, item = .frame id (frameText command id) ∧
    Fields.Ordered command ∧ id < idSpace ∧
      ∀ call ∈ c.calls, call.purpose ≠ .command → call.id ≠ id

theorem Apart.of_outbound (h : c.outbound = []) : c.Apart := by
  simp [Apart, h]

-- A new request takes an id that is not in use, and is no call to subscribe or to unsubscribe.
theorem Apart.call (h : c.Apart) (hs : c.Sound config tickets log shown) (ho : command.Ordered)
    (limit : Option Duration) : (c.call tickets now ⟨command, limit, .command⟩).Apart := by
  unfold Connection.call
  cases ha : c.allocate?
  case error => exact h
  case ok id =>
    have ⟨hi, fresh⟩ := hs.fresh id (nextId_of_allocate? ha)
    dsimp only
    rw [expire_eq (hs.accounts.dispatch ha).coherent]
    have known {call : Call} (hp : call.purpose ≠ .command) (mem : call ∈ spared (timedOut now)
        (c.dispatch id tickets now ⟨command, limit, .command⟩).calls) : call ∈ c.calls := by
      rcases List.mem_append.mp (List.mem_of_mem_filter mem) with mem | mem
      case inl => exact mem
      case inr => exact absurd (List.mem_singleton.mp mem ▸ rfl) hp
    intro item mem
    rcases List.mem_append.mp mem with mem | mem
    case inl =>
      have ⟨command, id, he, ho, hi, hc⟩ := h item mem
      exact ⟨command, id, he, ho, hi, fun call mem hp => hc call (known hp mem) hp⟩
    case inr =>
      refine ⟨command, id, List.mem_singleton.mp mem, ho, hi, fun call mem hp => ?_⟩
      exact Nat.ne_of_lt (fresh call (known hp mem))

end Connection

namespace Link

variable {link : Link} {config : LinkConfig} {log : List Call}
variable {shown : List (Nat × Outcome LinkError)}

-- What the loop that writes keeps is kept if the texts that are waiting keep it too.
theorem settle_keeps_of_inbox {P : Connection → Prop} (k : WritesKeep P link.faults.sends)
    (route : ∀ c, ∀ text ∈ link.duplex.near.inbox, P c → P (c.route text))
    (h : P link.connection.flushed) : P link.settle.connection := by
  have loop (texts : List String) (ht : texts ⊆ link.duplex.near.inbox) (c : Connection)
      (hc : P c) : P (texts.foldl Connection.route c) := by
    induction texts generalizing c
    case nil => exact hc
    case cons text texts hi =>
      have ⟨hm, ht⟩ := List.cons_subset.mp ht
      exact hi ht _ (route c text hm hc)
  have hw := k.write h
  rw [settle, release_connection]
  cases hr : link.write.reading
  case false => rwa [read_of_not_reading hr]
  case true =>
    have hd : P link.write.drained.connection :=
      loop _ (by rw [(Undisturbed.write link).inbox]; exact List.Subset.refl _) _ hw
    rw [read_eq hr]
    split
    case isTrue  => exact hd
    case isFalse => exact k.close _ hd

-- If the texts that are waiting spare them, the active streams stay. No call comes in.
theorem active_settle (h : link.Sound config log shown)
    (hs : ∀ text ∈ link.duplex.near.inbox, link.connection.Spares text) :
    link.settle.connection.active = link.connection.active ∧
      link.settle.connection.calls ⊆ link.connection.calls := by
  have retired (c : Connection) (verdict : Call → Option (Outcome LinkError))
      (hc : c.calls ⊆ link.connection.calls) : (c.retire verdict).calls ⊆ link.connection.calls :=
    fun _ mem => hc (List.mem_of_mem_filter mem)
  have hk : link.settle.connection.Sound config link.tickets log shown ∧
      link.settle.connection.active = link.connection.active ∧
      link.settle.connection.calls ⊆ link.connection.calls := by
    refine settle_keeps_of_inbox (P := fun c => c.Sound config link.tickets log shown ∧
      c.active = link.connection.active ∧ c.calls ⊆ link.connection.calls) ⟨?_, ?_⟩ ?_
      ⟨h.of_outbound nofun, rfl, List.Subset.refl _⟩
    · intro c id error _ ⟨hc, ha, hl⟩
      have he := Connection.failRequest_eq hc.accounts.coherent id error
      exact ⟨hc.failRequest id error, he ▸ ha, he ▸ retired c _ hl⟩
    · intro c ⟨hc, ha, hl⟩
      have he := Connection.shutDown_eq hc.accounts.coherent
      exact ⟨hc.shutDown, he ▸ ha, he ▸ retired c (fun _ => some (.failed .closed)) hl⟩
    · intro c text mem ⟨hc, ha, hl⟩
      have ⟨_, _, he⟩ := Connection.route_eq hc.accounts.coherent text
      refine ⟨hc.route text, ?_, he ▸ retired c (Connection.replied text) hl⟩
      rw [Connection.active_route_of_spares hc.accounts.coherent
        fun call hm => hs text mem call (hl hm), ha]
  exact hk.right

theorem apart_callTimes {command : Fields} (h : link.connection.Apart)
    (hs : link.Sound config log shown) (ho : command.Ordered) (limit : Option Duration)
    (times : Nat) : (link.callTimes ⟨command, limit, .command⟩ times).connection.Apart := by
  induction times generalizing link log
  case zero => exact h
  case succ times hi => exact hi (h.call hs ho limit) (hs.call _)

end Link

namespace Ledger

variable {ledger after : Ledger} {request : Fields} {requests : List Fields} {id : Nat}

-- Whether a request is one to subscribe or to unsubscribe.
def asksForStreams (request : Fields) : Bool :=
  commandName request ∈ ["subscribe", "unsubscribe"]

-- What the ledger is once it has taken these requests in.
structure Takes (ledger : Ledger) (requests : List Fields) (after : Ledger) : Prop where
  received      : after.received = ledger.received ++ requests
  subscriptions : (∀ request ∈ requests, !asksForStreams request) →
    after.subscriptions = ledger.subscriptions

theorem Takes.refl (ledger : Ledger) : ledger.Takes [] ledger :=
  ⟨by simp, fun _ => rfl⟩

theorem Takes.trans {more : List Fields} {last : Ledger} (h : ledger.Takes requests after)
    (h' : after.Takes more last) : ledger.Takes (requests ++ more) last where
  received      := by rw [h'.received, h.received, List.append_assoc]
  subscriptions := fun hp =>
    have ⟨hr, hm⟩ := List.forall_mem_append.mp hp
    (h'.subscriptions hm).trans (h.subscriptions hr)

theorem takes_perform (ledger : Ledger) (request : Fields) :
    (ledger.perform request).2.received = ledger.received ∧
      (!asksForStreams request →
        (ledger.perform request).2.subscriptions = ledger.subscriptions) := by
  have hc (change : Stream.Names → List String → Stream.Names) :
      (ledger.changeStreams change request).2.received = ledger.received := by
    rw [changeStreams_eq]
  unfold perform asksForStreams commandName
  split
  case h_1 hn => exact ⟨hc _, by simp [hn]⟩
  case h_2 hn => exact ⟨hc _, by simp [hn]⟩
  case h_3 => exact ⟨rfl, fun _ => rfl⟩
  case h_4 => exact ⟨rfl, fun _ => rfl⟩

theorem takes_receive (ledger : Ledger) (request : Fields) :
    ledger.Takes [request] (ledger.receive request).2 := by
  have ⟨hr, hs⟩ := takes_perform { ledger with received := ledger.received ++ [request] } request
  unfold receive
  dsimp only
  split
  case isTrue  => exact ⟨rfl, fun _ => rfl⟩
  case isFalse => exact ⟨hr, fun h => hs (h request (.head _))⟩

-- Each text that is sent back answers a request that came.
theorem mem_answers {texts : List String} {answer : String}
    (mem : answer ∈ (ledger.answers texts).1) :
    ∃ text ∈ texts, ∃ request outcome, Frame.ofText? text = some request ∧
      answer = (reply (request.get? Frame.idField) outcome).text := by
  induction texts generalizing ledger
  case nil => cases mem
  case cons text texts hi =>
    have later {ledger : Ledger} (mem : answer ∈ (ledger.answers texts).1) :=
      (hi mem).imp fun _ => And.imp_left (List.mem_cons_of_mem text)
    rw [answers] at mem
    split at mem
    case h_1 => exact later mem
    case h_2 request hf =>
      split at mem
      case h_1 => exact later mem
      case h_2 hr =>
        rcases List.mem_cons.mp mem with rfl | mem
        case inr => exact later mem
        case inl =>
          refine ⟨text, .head _, request, ?_⟩
          simp only [receive] at hr
          split at hr <;> cases hr
          exact ⟨_, hf, rfl⟩

-- What answers the frames of other requests is spared by the calls to subscribe and to unsubscribe.
theorem spares_answers {c before : Connection} (h : before.Apart) (hc : c.calls ⊆ before.calls)
    {text : String}
    (mem : text ∈ (ledger.answers (before.outbound.filterMap Outbound.text?)).1) :
    c.Spares text := by
  intro call hm hp
  obtain ⟨_, hx, request, outcome, hf, rfl⟩ := mem_answers mem
  obtain ⟨item, hi, hx⟩ := List.mem_filterMap.mp hx
  obtain ⟨command, id, rfl, ho, hid, hn⟩ := h item hi
  cases hx
  have hl : -2 ^ 63 ≤ (id : Int) := by omega
  have hu : (id : Int) < 2 ^ 64 := by unfold Connection.idSpace at hid; omega
  have hr : request.get? Frame.idField = some (.int id) :=
    Frame.get?_int_of_ofText? (ho.insert _ _) hl hu (Fields.get?_insert_self ..) hf
  rw [hr, Frame.carrying?, Option.filter_eq_none_iff]
  intro frame ha heq
  have hg := Frame.get?_int_of_ofText? (ordered_reply _ _) hl hu (get?_id_reply _ _) ha
  rw [Frame.requestId?_of_get? hg hid] at heq
  exact hn call (hc hm) hp (Option.some.inj (of_decide_eq_true heq)).symm

end Ledger

end LedgerWire
