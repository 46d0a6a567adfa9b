import LedgerWire.Proofs.Client.Unsigned
import LedgerWire.Proofs.Link.Recipients

open LedgerWire.Stream (Kind)

namespace LedgerWire

open Json (Portable)

namespace Ledger

variable {kind : Kind} {body : Json}

-- The body does not say that it belongs to the other of the two streams that share a type.
structure Befits (kind : Kind) (body : Json) : Prop where
  validated : kind = .transactions → ¬Frame.Unvalidated (pushBody body)
  proposed  : kind = .transactionsProposed →
    ∀ value ∈ (pushBody body).get? Frame.validatedField, value = .bool false

-- The body under the type of the stream.
def typed (kind : Kind) (body : Json) : Fields :=
  (pushBody body).insert Frame.typeField (.string kind.pushType)

theorem get?_validated_typed (kind : Kind) (body : Json) :
    (typed kind body).get? Frame.validatedField = (pushBody body).get? Frame.validatedField :=
  Fields.get?_insert_of_ne _ _ (by decide)

theorem portable_typed (h : Portable 126 body) (kind : Kind) :
    Portable 127 (.object (typed kind body)) := by
  have hb : Portable 127 (.object (pushBody body)) := by
    cases body
    case object => exact h.mono (by decide)
    all_goals
      refine .object (List.pairwise_singleton ..) fun f mem => ?_
      exact List.mem_singleton.mp mem ▸ h
  exact hb.insert (.string _) _

theorem pushFrame_eq_ite (kind : Kind) (body : Json) :
    pushFrame kind body =
      if kind = .transactionsProposed ∧ ((typed kind body).get? Frame.validatedField).isNone then
        (typed kind body).insert Frame.validatedField (.bool false)
      else typed kind body :=
  rfl

-- A frame that befits a stream of proposed transactions is marked as such, and no other.
theorem pushFrame_eq (h : Portable 126 body) (hb : Befits kind body) :
    pushFrame kind body =
      if kind = .transactionsProposed then
        (typed kind body).insert Frame.validatedField (.bool false)
      else typed kind body := by
  rw [pushFrame_eq_ite]
  by_cases hk : kind = .transactionsProposed
  case neg => rw [if_neg fun h => hk h.left, if_neg hk]
  case pos =>
    rw [if_pos hk]
    split
    case isTrue => rfl
    case isFalse hv =>
      have ⟨value, hv⟩ : ∃ value, (typed kind body).get? Frame.validatedField = some value :=
        Option.ne_none_iff_exists'.mp fun hn => hv ⟨hk, Option.isNone_iff_eq_none.mpr hn⟩
      cases hb.proposed hk value (get?_validated_typed kind body ▸ hv)
      have ho : (typed kind body).Ordered := by cases portable_typed h kind; assumption
      exact (ho.insert_of_get? hv).symm

theorem get?_pushFrame_of_ne {key : String} (h : key ≠ Frame.validatedField) (kind : Kind)
    (body : Json) : (pushFrame kind body).get? key = (typed kind body).get? key := by
  rw [pushFrame_eq_ite]
  split
  case isTrue  => exact Fields.get?_insert_of_ne _ _ h
  case isFalse => rfl

theorem type?_pushFrame (kind : Kind) (body : Json) :
    Frame.type? (pushFrame kind body) = some kind.pushType := by
  rw [Frame.type?, get?_pushFrame_of_ne (by decide), typed, Fields.get?_insert_self]
  rfl

-- The server gives a push no id of its own.
theorem requestId?_pushFrame (kind : Kind) (body : Json) :
    Frame.requestId? (pushFrame kind body) = Frame.requestId? (pushBody body) := by
  rw [Frame.requestId?, get?_pushFrame_of_ne (by decide), typed,
    Fields.get?_insert_of_ne _ _ (by decide)]
  rfl

theorem portable_pushFrame (h : Portable 126 body) (hb : Befits kind body) :
    Portable 127 (.object (pushFrame kind body)) := by
  rw [pushFrame_eq h hb]
  split
  case isTrue  => exact (portable_typed h kind).insert (.bool _) _
  case isFalse => exact portable_typed h kind

-- The client finds the stream that the server has meant.
theorem stream?_pushFrame (h : Portable 126 body) (hb : Befits kind body) :
    Frame.stream? (pushFrame kind body) = some kind := by
  have ht := type?_pushFrame kind body
  have hf := pushFrame_eq h hb
  by_cases hp : kind = .transactionsProposed
  case pos =>
    subst hp
    refine Frame.stream?_of_unvalidated ht ?_
    rw [hf, if_pos rfl, Frame.Unvalidated, Fields.get?_insert_self]
  case neg =>
    by_cases hk : kind = .transactions
    case neg => exact Frame.stream?_of_type ht hk hp
    case pos =>
      rw [if_neg hp] at hf
      subst hk
      refine Frame.stream?_of_not_unvalidated ht ?_
      rw [hf, Frame.Unvalidated, get?_validated_typed]
      exact hb.validated rfl

end Ledger

namespace Stream

theorem Channel.eq_live_nil {channel : Channel} (h : channel.isLive)
    (hb : channel.held = []) : channel = .live [] := by
  cases channel
  case live buffer => exact congrArg _ hb
  all_goals contradiction

namespace Hub

variable {hub : Hub} {kind : Kind} {buffer : List Fields}

-- Whoever waits for a stream is asked for its pushes.
theorem resolve_of_live (ho : hub.closed = false) (hc : hub.channel kind = .live buffer) :
    hub.resolve kind = kind := by
  by_cases hk : kind = .transactions
  case neg => exact resolve_of_ne hk hub
  case pos =>
    subst hk
    exact resolve_of_wants ⟨ho, by rw [hc]; rfl⟩

-- The hub with a push put behind the others that wait for their consumer.
def holding (hub : Hub) (kind : Kind) (buffer : List Fields) (push : Fields) : Hub :=
  { hub.setChannel kind (.live (buffer ++ [push])) with delivered := hub.delivered + 1 }

theorem deliver_of_live (ho : hub.closed = false) (hc : hub.channel kind = .live buffer)
    (hl : buffer.length < hub.capacity) (push : Fields) :
    hub.deliver kind push = hub.holding kind buffer push := by
  rw [deliver, resolve_of_live ho hc, offer]
  simp only [ho, hc, if_pos hl]
  rfl

theorem channel_holding (hub : Hub) (kind : Kind) (buffer : List Fields) (push : Fields)
    (k : Kind) : (hub.holding kind buffer push).channel k =
      if k = kind then .live (buffer ++ [push]) else hub.channel k :=
  hub.channel_setChannel kind k _

end Hub
end Stream

theorem Connection.route_of_stream {c : Connection} {kind : Kind} {push : Fields} {text : String}
    (hf : Frame.ofText? text = some push) (ha : c.awaits push = false)
    (hs : Frame.stream? push = some kind) :
    c.route text = { c with hub := c.hub.deliver kind push } := by
  simp only [route, hf, routeFrame_of_not_awaits ha, Connection.push, hs]

namespace Session

variable {session : Session} {config : LinkConfig} {kind : Kind} {body : Json}
variable {buffer : List Fields} {push : Fields}

-- Nothing is sent to a stream that nobody has subscribed to.
theorem AtRest.step_push_of_not_subscribed (h : session.AtRest) (hr : session.refused = [])
    (hs : session.ledger.isSubscribed kind = false) (body : Json) :
    session.step (.push kind body) = (⟨.flag false, [], []⟩, session) := by
  have hp : session.push kind body = (false, session) := by simp [Session.push, hs]
  have hl := Link.harvest_of_nothing h.link.finished
  have hn : { session with refused := [] } = session := by rw [← hr]
  simp [Session.step, work, Session.onEvent, hp, h.settle, harvest, hl, hr, hn]

-- The session with a connection in place of its own.
def withConnection (session : Session) (connection : Connection) : Session :=
  { session with link := { session.link with connection } }

theorem Settled.push_eq (h : session.Settled config)
    (closed : session.link.connection.closed = false)
    (hs : session.ledger.isSubscribed kind) (body : Json) :
    session.push kind body =
      (true, session.delivering [(Ledger.pushFrame kind body).text]) := by
  have hd := h.quiet closed
  have hf := send?_far (d := session.link.duplex) (by simp [hd, Duplex.start])
    (by simp [hd, Duplex.start]) (Json.object (Ledger.pushFrame kind body)).text
  simp only [Session.push, if_pos hs, pushRaw, hf]
  rfl

-- The one text that is on its way is heard, and nothing else happens.
theorem Settled.settle_delivering (h : session.Settled config)
    (closed : session.link.connection.closed = false) (text : String) :
    (session.delivering [text]).settle =
      session.withConnection (session.link.connection.route text) := by
  have ⟨live, serving⟩ := h.live closed
  have hd := h.quiet closed
  have hs := @settle_eq (session.delivering [text]) { live with } serving
    (by simp [delivering, hd, Duplex.start]) (by simp [delivering, h.outbound])
  have ha : (session.delivering [text]).arriving = [] := by
    simp [arriving, delivering, hd, h.outbound, Duplex.start]
  rw [hs, ha]
  simp [delivering, withConnection, Ledger.answers, hd, Duplex.start,
    Connection.flushed_of_empty h.outbound]

theorem Settled.step_push (h : session.Settled config)
    (closed : session.link.connection.closed = false)
    (hs : session.ledger.isSubscribed kind) (body : Json)
    (hf : (session.link.connection.route (Ledger.pushFrame kind body).text).finished = []) :
    session.step (.push kind body) = (⟨.flag true, [], []⟩,
      session.withConnection
        (session.link.connection.route (Ledger.pushFrame kind body).text)) := by
  have hl := @Link.harvest_of_nothing { session.link with
    connection := session.link.connection.route (Ledger.pushFrame kind body).text } hf
  simp [Session.step, work, Session.onEvent, h.push_eq closed hs, h.settle_delivering closed, harvest,
    withConnection, hl, h.refused]

theorem Settled.step_push_of_live (h : session.Settled config)
    (closed : session.link.connection.closed = false)
    (hs : session.ledger.isSubscribed kind) (hp : Portable 126 body) (hb : Ledger.Befits kind body)
    (ha : ∀ id, Frame.requestId? (Ledger.pushBody body) = some id →
      ¬session.link.connection.pending.contains id)
    (hc : session.link.connection.hub.channel kind = .live buffer)
    (hl : buffer.length < session.link.connection.hub.capacity) :
    session.step (.push kind body) = (⟨.flag true, [], []⟩, session.withConnection
      { session.link.connection with
        hub := session.link.connection.hub.holding kind buffer (Ledger.pushFrame kind body) }) := by
  have ⟨_, _, sound⟩ := h.sound
  have ho : session.link.connection.hub.closed = false :=
    sound.accounts.coherent.hub.trans closed
  have hn : session.link.connection.awaits (Ledger.pushFrame kind body) = false := by
    rw [Connection.awaits, Ledger.requestId?_pushFrame]
    cases hi : Frame.requestId? (Ledger.pushBody body)
    case none    => rfl
    case some id => exact Bool.eq_false_iff.mpr (ha id hi)
  have hr := Connection.route_of_stream (Frame.ofText?_text (Ledger.portable_pushFrame hp hb)) hn
    (Ledger.stream?_pushFrame hp hb)
  rw [Stream.Hub.deliver_of_live ho hc hl] at hr
  rw [h.step_push closed hs body (by rw [hr]; exact h.finished), hr]

-- A push arrives on the stream that it is for, as its body with the type of the stream, and the
-- mark of a proposed transaction if it is one. It waits behind the others for the consumer of this
-- stream, and all else is as it was.
theorem pushes_arrive_on_their_stream (config : LinkConfig) (events : List Event) (kind : Kind)
    (body : Json) :
    let session := (start config).after events
    let hub     := session.link.connection.hub
    let content : Fields := match body with
      | .object fields => fields
      | body           => [("data", body)]
    let typed   := content.insert "type" (.string kind.pushType)
    let push    :=
      if kind = .transactionsProposed then typed.insert "validated" (.bool false) else typed
    let step    := session.step (.push kind body)
    (∀ buffer, session.link.connection.closed = false → session.ledger.isSubscribed kind →
      hub.channel kind = .live buffer → buffer.length < hub.capacity → Portable 126 body →
      (∀ id, Frame.requestId? content = some id →
        ¬session.link.connection.pending.contains id) →
      (kind = .transactions → content.get? "validated" ≠ some (.bool false)) →
      (kind = .transactionsProposed →
        ∀ value, content.get? "validated" = some value → value = .bool false) →
      ∃ channels,
        let next : Stream.Hub := { hub with channels, delivered := hub.delivered + 1 }
        step = (⟨.flag true, [], []⟩, { session with link := { session.link with
          connection := { session.link.connection with hub := next } } }) ∧
        (∀ k, next.channel k = if k = kind then .live (buffer ++ [push]) else hub.channel k) ∧
        (step.2.step (.act (.read kind (buffer.length + 1)))).1.answer =
          .readings ((buffer ++ [push]).map .push)) ∧
    (session.ledger.isSubscribed kind = false →
      step = (⟨.flag false, [], []⟩, session)) := by
  have h := (Settled.start config).run events
  have hq := (AtRest.start config).run events
  generalize (start config).after events = session at h hq
  intro session hub content typed push step
  have hcontent : content = Ledger.pushBody body := by cases body <;> rfl
  refine ⟨?_, fun hs => hq.step_push_of_not_subscribed h.refused hs body⟩
  intro buffer closed hs hc hl hp ha hv hn
  rw [hcontent] at ha hv hn
  have hb : Ledger.Befits kind body := ⟨hv, fun hk value mem => hn hk value mem⟩
  have hpush : Ledger.pushFrame kind body = push := by
    rw [Ledger.pushFrame_eq hp hb]
    simp only [push, typed, hcontent]
    rfl
  have hs : step = _ := h.step_push_of_live closed hs hp hb ha hc hl
  rw [hpush] at hs
  have hk := hub.channel_holding kind buffer push
  refine ⟨_, hs, hk, ?_⟩
  have hlive : step.2.link.connection.hub.channel kind = .live (buffer ++ [push]) := by
    rw [hs]
    exact (hk kind).trans (if_pos rfl)
  refine (Link.answer_read hlive (buffer.length + 1)).trans ?_
  simp [Stream.Hub.readings]

-- The body has an id and an error, and a request is under way, but not under this id.
theorem pushes_arrive_on_their_stream_beside_a_request :
    let events : List Event := [
      .act (.subscribe ["transactions_proposed"]),
      .act (.take .transactionsProposed),
      .setSilent true,
      .act (.issue [("command", .string "ping")] 1)
    ]
    let session := (start {}).after events
    let body : Json := .object [("error", .null), ("id", .int 7), ("type", .string "response")]
    let step := session.step (.push .transactionsProposed body)
    session.link.connection.pending = ⟨[(2, 1)]⟩ ∧ step.1 = ⟨.flag true, [], []⟩ ∧
      (step.2.step (.act (.read .transactionsProposed 1))).1.answer = .readings [.push [
        ("error", .null), ("id", .int 7), ("type", .string "transaction"),
        ("validated", .bool false)]] ∧
      session.step (.push .transactions body) = (⟨.flag false, [], []⟩, session) := by
  intro events session body step
  have ⟨closed, pending, subscribed, unsubscribed, room, held⟩ :
      session.link.connection.closed = false ∧
      session.link.connection.pending = ⟨[(2, 1)]⟩ ∧
      session.ledger.isSubscribed .transactionsProposed ∧
      session.ledger.isSubscribed .transactions = false ∧
      0 < session.link.connection.hub.capacity ∧
      (session.link.connection.hub.channel .transactionsProposed).isLive ∧
      (session.link.connection.hub.channel .transactionsProposed).held.isEmpty := by
    decide +kernel
  have live : session.link.connection.hub.channel .transactionsProposed = .live [] :=
    Stream.Channel.eq_live_nil held.left (List.isEmpty_iff.mp held.right)
  have portable : Portable 126 body := by
    refine .object (.of_keys ["error", "id", "type"] rfl (by decide)) fun f mem => ?_
    simp only [List.mem_cons, List.not_mem_nil, or_false] at mem
    rcases mem with rfl | rfl | rfl
    · exact .null
    · exact .int (by decide) (by decide)
    · exact .string _
  have number : Frame.requestId?
      [("error", .null), ("id", .int 7), ("type", .string "response")] = some 7 := by decide
  have free : ¬session.link.connection.pending.contains 7 := by
    rw [pending]
    decide
  have h := pushes_arrive_on_their_stream {} events .transactionsProposed body
  have hn := pushes_arrive_on_their_stream {} events .transactions body
  -- From here on nothing is to be known about the session but the facts above.
  have hs : (start {}).after events = session := rfl
  rw [hs] at h hn
  clear_value session
  obtain ⟨_, hs, _, hr⟩ := h.left [] closed subscribed live room portable
    (fun id hi => Option.some.inj (number.symm.trans hi) ▸ free) nofun nofun
  exact ⟨pending, congrArg Prod.fst hs, hr, hn.right unsubscribed⟩

end Session
end LedgerWire
