import LedgerWire.Proofs.Client.Spared
import LedgerWire.Proofs.Link.Wire

namespace LedgerWire

namespace Session

variable {session : Session} {config : LinkConfig} {event : Event}

theorem takes_serveOne (session : Session) (text : String) : ∃ requests,
    session.ledger.Takes requests (session.serveOne text).ledger := by
  rw [serveOne]
  split
  case isFalse => exact ⟨[], .refl _⟩
  case isTrue =>
    split
    case h_1 => exact ⟨[], .refl _⟩
    case h_2 request _ =>
      have h := session.ledger.takes_receive request
      split
      case h_1 hr => exact ⟨[request], by rwa [hr] at h⟩
      case h_2 hr =>
        rw [hr] at h
        split <;> exact ⟨[request], h⟩

-- What the server keeps with each text that it answers, it keeps over its whole turn.
theorem serve_keeps {P : Ledger → Link → Prop}
    (one : ∀ (s : Session) (text : String), P s.ledger s.link →
      P (s.serveOne text).ledger (s.serveOne text).link)
    (hs : session.serving) (h : P session.ledger { session.link with
      duplex := (session.link.duplex.drain .far).2 }) :
    P session.serve.ledger session.serve.link := by
  have loop (texts : List String) (s : Session) (hp : P s.ledger s.link) :
      P (texts.foldl serveOne s).ledger (texts.foldl serveOne s).link := by
    induction texts generalizing s
    case nil => exact hp
    case cons text texts hi => exact hi _ (one s text hp)
  rw [serve, if_pos hs]
  exact loop _ { session with
    link := { session.link with duplex := (session.link.duplex.drain .far).2 } } h

theorem serve_of_not_serving (hs : ¬session.serving) : session.serve = session := by
  rw [serve, if_neg hs]

theorem takes_serve (session : Session) : ∃ requests,
    session.ledger.Takes requests session.serve.ledger := by
  by_cases hs : session.serving
  case neg => exact ⟨[], by rw [serve_of_not_serving hs]; exact .refl _⟩
  case pos =>
    refine serve_keeps (P := fun ledger _ => ∃ requests, session.ledger.Takes requests ledger)
      (fun s text ⟨_, h⟩ => ?_) hs ⟨[], .refl _⟩
    have ⟨_, h'⟩ := s.takes_serveOne text
    exact ⟨_, h.trans h'⟩

-- All that an answer does to the wire is to wait for the client.
theorem duplex_serveOne (session : Session) (text : String) : ∃ inbox,
    (session.serveOne text).link.duplex =
      { session.link.duplex with near := { session.link.duplex.near with inbox } } := by
  rw [serveOne]
  split
  case isFalse => exact ⟨_, rfl⟩
  case isTrue =>
    split
    case h_1 => exact ⟨_, rfl⟩
    case h_2 =>
      split
      case h_1 => exact ⟨_, rfl⟩
      case h_2 =>
        split
        case h_2 => exact ⟨_, rfl⟩
        case h_1 duplex hs =>
          rw [Duplex.send?] at hs
          split at hs <;> cases hs
          exact ⟨_, rfl⟩

theorem far_serveOne (session : Session) (text : String) :
    (session.serveOne text).link.duplex.far.inbox = session.link.duplex.far.inbox := by
  have ⟨_, h⟩ := session.duplex_serveOne text
  rw [h]

-- While the server takes requests, there are none on their way to it.
def Idle (session : Session) : Prop :=
  session.serving → session.link.duplex.far.inbox = []

theorem idle_serve (session : Session) : session.serve.Idle := by
  intro h
  by_cases hs : session.serving
  case neg => exact absurd (serve_of_not_serving hs ▸ h) hs
  case pos =>
    exact serve_keeps (P := fun _ link => link.duplex.far.inbox = [])
      (fun s text => (s.far_serveOne text).trans) hs rfl

theorem connection_serve (session : Session) :
    session.serve.link.connection = session.link.connection := by
  obtain ⟨_, _, _, he⟩ := session.serve_effect
  rw [he]

-- The session once all that the client had queued is sent and answered.
def served (session : Session) : Session :=
  { session with link := session.link.settle }.serve

theorem settle_eq_served (session : Session) : session.settle =
    { session.served with link := session.served.link.settle } :=
  rfl

-- When the client hears the answers it has nothing more to send.
theorem idle_settle (session : Session) : session.settle.Idle := by
  have ho : session.served.link.connection.outbound = [] := by
    rw [served, connection_serve]
    exact Link.settle_outbound session.link
  intro hs
  rw [settle_eq_served, Link.far_settle_of_nothing ho]
  exact idle_serve _ hs

-- Nothing reaches the server that is neither queued nor on its way.
theorem Idle.ledger_settle (h : session.Idle) (ho : session.link.connection.outbound = []) :
    session.settle.ledger = session.ledger := by
  rw [settle_eq_served, served, serve]
  split
  case isFalse => rfl
  case isTrue hs =>
    have hf : session.link.settle.duplex.far.inbox = [] := by
      rw [Link.far_settle_of_nothing ho]
      exact h hs
    simp only [Duplex.drain, Duplex.get, hf, List.foldl_nil]

-- The commands that the client is asked to send, signed or as they are.
def Event.commands : Event → List Fields
  | .act (.issue command _)       => [command]
  | .act (.issueWithin command _) => [command]
  | .signAndSend command _        => [command]
  | _                             => []

-- Whether the client is asked to subscribe or to unsubscribe.
def Event.changes : Event → Bool
  | .act (.subscribe _)   => true
  | .act (.unsubscribe _) => true
  | _                     => false

-- The texts that the server pushes in an event.
def pushes (session : Session) : Event → List String
  | .push kind body =>
    if session.ledger.isSubscribed kind then [(Json.object (Ledger.pushFrame kind body)).text]
    else []
  | .pushRaw frame => [frame.text]
  | _              => []

-- What an event leaves alone before the loops and the server get their turns.
structure Held (session : Session) (event : Event) (session' : Session) : Prop where
  received      : session'.ledger.received = session.ledger.received
  subscriptions : session'.ledger.subscriptions = session.ledger.subscriptions
  active        : session'.link.connection.active = session.link.connection.active
  idle          : session.Idle → session'.Idle
  closed        : session.link.connection.closed → session'.link.connection.closed
  inbox         : ∀ text ∈ session'.link.duplex.near.inbox,
    text ∈ session.link.duplex.near.inbox ∨
      text ∈ session.pushes event ∧ session'.link.connection = session.link.connection

namespace Held

theorem of_connection {session' : Session} {connection : Connection} {clock tickets : Nat}
    (he : session'.link = { session.link with connection, clock, tickets })
    (hl : session'.ledger = session.ledger) (hs : session'.serving = session.serving)
    (ha : session'.link.connection.active = session.link.connection.active)
    (hc : session.link.connection.closed → session'.link.connection.closed) :
    Held session event session' where
  received      := by rw [hl]
  subscriptions := by rw [hl]
  active        := ha
  idle          := fun hi serving => by rw [he]; exact hi (hs ▸ serving)
  closed        := hc
  inbox         := fun text mem => .inl (by rwa [he] at mem)

theorem refl (session : Session) (event : Event) : Held session event session :=
  ⟨rfl, rfl, rfl, id, id, fun _ mem => .inl mem⟩

theorem pushRaw {frame : Json} (hp : frame.text ∈ session.pushes event) :
    Held session event (session.pushRaw frame).2 := by
  rw [Session.pushRaw]
  split
  case h_2 => exact refl session event
  case h_1 duplex hs =>
    rw [Duplex.send?] at hs
    split at hs <;> cases hs
    refine { refl session event with inbox := fun text mem => ?_ }
    rcases List.mem_append.mp mem with mem | mem
    case inl => exact .inl mem
    case inr => exact .inr ⟨List.mem_singleton.mp mem ▸ hp, rfl⟩

theorem push (session : Session) (kind : Stream.Kind) (body : Json) :
    Held session (.push kind body) (session.push kind body).2 := by
  rw [Session.push]
  split
  case isTrue hk => exact pushRaw (by simp [pushes, hk])
  case isFalse   => exact refl session _

theorem signAndSend (session : Session) (command : Fields) (seed : String) (event : Event) :
    Held session event (session.signAndSend command seed) := by
  rw [Session.signAndSend]
  split
  case h_2 => exact { refl session event with }
  case h_1 command _ =>
    obtain ⟨_, _, _, _, _, he⟩ := session.link.connection.call_effect session.link.tickets
      session.link.clock ⟨command, session.link.limit, .command⟩
    refine of_connection rfl rfl rfl ?_ ?_
    all_goals simp only [Link.call, he]
    exact id

theorem onEvent (session : Session) (event : Event) :
    Held session event (session.onEvent event).2 := by
  have r := refl session event
  cases event
  case act action =>
    have ⟨_, _, _, he⟩ := session.link.act_effect action
    exact of_connection he rfl rfl (session.link.active_onEvent (.act action))
      fun hc => Link.closed_onEvent hc (.act action)
  case signAndSend command seed => exact signAndSend session command seed _
  case signAndSubmit tx seed => exact signAndSend session (submission tx) seed _
  case pushRaw frame => exact pushRaw (List.mem_singleton_self _)
  case push kind body => exact push session kind body
  case setResult => exact { r with }
  case setSilent => exact { r with }
  case disconnect =>
    rw [Session.onEvent, Session.disconnect, Duplex.close]
    split
    case isTrue  => exact { r with }
    case isFalse => exact { r with }

end Held

theorem ordered_signed {command result : Fields} {seed : String} (ho : command.Ordered)
    (h : signed command seed = .ok result) : result.Ordered := by
  rw [signed] at h
  cases hk : Keypair.ofSeedText seed
  all_goals simp only [hk, bind, Except.bind] at h
  case error => cases h
  case ok keypair =>
    obtain ⟨_, _, rfl⟩ := (Transaction.signCommand_eq_ok_iff command keypair).mp h
    exact ho.insert _ _

theorem ordered_submission (tx : Json) : Fields.Ordered (submission tx) := by
  have h : Frame.commandField < Transaction.commandField := by decide
  exact List.pairwise_pair.mpr h

-- No event queues a call to subscribe or to unsubscribe, except those that are meant to.
theorem Settled.apart_onEvent (h : session.Settled config)
    (ho : ∀ command ∈ event.commands, Fields.Ordered command) (hn : event.changes = false)
    (he : event ≠ .act .close) : (session.onEvent event).2.link.connection.Apart := by
  have ⟨_, _, hs⟩ := h.sound
  have ha := Connection.Apart.of_outbound h.outbound
  have signAndSend {command : Fields} (ho : command.Ordered) (seed : String) :
      (session.signAndSend command seed).link.connection.Apart := by
    rw [Session.signAndSend]
    split
    case h_1 hk => exact ha.call hs (ordered_signed ho hk) _
    case h_2    => exact ha
  have pushRaw (frame : Json) : (session.pushRaw frame).2.link.connection.Apart := by
    rw [Session.pushRaw]
    split <;> exact ha
  cases event
  case act action =>
    by_cases hr : session.link.requests (.act action) = []
    case pos =>
      obtain ⟨_, _, _, _, hq⟩ := Link.onEvent_of_no_request hr fun hc => he (by cases hc; rfl)
      exact .of_outbound <| (congrArg Connection.outbound hq).trans h.outbound
    case neg =>
      cases action
      case issue command times => exact Link.apart_callTimes ha hs (ho command (.head _)) _ times
      case issueWithin command limit => exact ha.call hs (ho command (.head _)) _
      case subscribe   => cases hn
      case unsubscribe => cases hn
      all_goals exact absurd rfl hr
  case signAndSend command seed => exact signAndSend (ho command (.head _)) seed
  case signAndSubmit tx seed => exact signAndSend (ordered_submission tx) seed
  case pushRaw frame => exact pushRaw frame
  case push kind body =>
    change (session.push kind body).2.link.connection.Apart
    rw [Session.push]
    split
    case isTrue  => exact pushRaw _
    case isFalse => exact ha
  all_goals exact ha

-- What is asked of an event. The commands are objects, no one but the calls to subscribe and to
-- unsubscribe asks for streams, and no push carries the id of such a call.
structure Fair (session : Session) (event : Event) : Prop where
  ordered : ∀ command ∈ event.commands, Fields.Ordered command
  plain   : event.changes = false →
    ∀ request ∈ (session.step event).1.received, !Ledger.asksForStreams request
  spares  : ∀ text ∈ session.pushes event, session.link.connection.Spares text

instance (session : Session) (event : Event) : Decidable (session.Fair event) :=
  have (command : Fields) : Decidable command.Ordered :=
    inferInstanceAs (Decidable (List.Pairwise ..))
  decidable_of_iff (_ ∧ _ ∧ _)
    ⟨fun ⟨ordered, plain, spares⟩ => ⟨ordered, plain, spares⟩,
      fun h => ⟨h.ordered, h.plain, h.spares⟩⟩

theorem spares_of_no_calls {c : Connection} (h : c.calls = []) (text : String) : c.Spares text := by
  simp [Connection.Spares, h]

-- What waits for the client before the answers come was pushed.
theorem Settled.spares_onEvent (h : session.Settled config) (hf : session.Fair event) :
    ∀ text ∈ (session.onEvent event).2.link.duplex.near.inbox,
      (session.onEvent event).2.link.connection.Spares text := by
  have held := Held.onEvent session event
  have ⟨_, _, hs⟩ := (h.onEvent event).sound
  intro text mem
  cases hc : (session.onEvent event).2.link.connection.closed
  case true => exact spares_of_no_calls (hs.accounts.coherent.closed hc) text
  case false =>
    have closed : session.link.connection.closed = false :=
      Bool.eq_false_iff.mpr fun h => by simp [held.closed h] at hc
    rcases held.inbox text mem with mem | ⟨mem, he⟩
    case inl => simp [h.quiet closed, Duplex.start] at mem
    case inr => exact he ▸ hf.spares text mem

-- The answers that the client then hears are spared too.
theorem Running.spares_served (h : session.Running config) (hi : session.Idle)
    (ha : session.link.connection.closed = false → session.link.connection.Apart)
    (hc : session.link.settle.connection.calls ⊆ session.link.connection.calls) :
    ∀ text ∈ session.served.link.duplex.near.inbox,
      session.served.link.connection.Spares text := by
  have ⟨_, _, hs⟩ := h.sound
  intro text mem
  rw [served, connection_serve]
  cases ho : session.link.settle.connection.closed
  case true => exact spares_of_no_calls (hs.settle.accounts.coherent.closed ho) text
  case false =>
    have ⟨closed, far⟩ := Link.open_of_settle ho
    have ⟨live, serving⟩ := h.live closed
    have hl := live.settle (hs.frames closed) (far live.reading)
    have he := @serve_eq { session with link := session.link.settle } serving
      (by simp only [hl]) (by simp only [hl])
    rw [served, he] at mem
    simp only [hl, hi serving, List.nil_append] at mem
    exact Ledger.spares_answers (ha closed) hc mem

theorem Running.active_settle (h : session.Running config) (hi : session.Idle)
    (hn : ∀ text ∈ session.link.duplex.near.inbox, session.link.connection.Spares text)
    (ha : session.link.connection.closed = false → session.link.connection.Apart) :
    session.settle.link.connection.active = session.link.connection.active := by
  have ⟨_, _, hs⟩ := h.sound
  have ⟨hw, hc⟩ := Link.active_settle hs hn
  have hs' : ∃ log shown, session.served.link.Sound config log shown := by
    obtain ⟨_, _, _, he⟩ := serve_effect { session with link := session.link.settle }
    rw [served, he]
    exact ⟨_, _, hs.settle⟩
  have ⟨_, _, hs'⟩ := hs'
  calc session.settle.link.connection.active
    _ = session.served.link.connection.active :=
      (Link.active_settle hs' (h.spares_served hi ha hc)).left
    _ = session.link.settle.connection.active := by rw [served, connection_serve]
    _ = session.link.connection.active := hw

-- Requests that do not ask for streams leave the subscriptions as they are.
theorem subscriptions_onEvent_settle (hf : session.Fair event) (hn : event.changes = false) :
    (session.onEvent event).2.settle.ledger.subscriptions = session.ledger.subscriptions := by
  have held := Held.onEvent session event
  obtain ⟨requests, ht⟩ := takes_serve { (session.onEvent event).2 with
    link := (session.onEvent event).2.link.settle }
  have hr : (session.step event).1.received = requests := by
    have he : (session.onEvent event).2.settle.ledger.received =
        session.ledger.received ++ requests := ht.received.trans (by rw [held.received])
    simp only [step, work, harvest, he, List.drop_left]
  exact (ht.subscriptions (hr ▸ hf.plain hn)).trans held.subscriptions

-- The client and its ledger hold the same streams, all of them known ones.
structure Agree (config : LinkConfig) (session : Session) : Prop
    extends Settled config session where
  idle    : session.Idle
  same    : session.link.connection.active = session.ledger.subscriptions
  streams : ∀ name ∈ session.link.connection.active, ∃ kind ∈ Stream.Kind.all, kind.name = name

namespace Agree

theorem start (config : LinkConfig) : (start config).Agree config where
  toSettled := .start config
  idle _    := rfl
  same      := rfl
  streams   := List.forall_mem_nil _

-- A closed client fails the call, and the ledger never gets to see it.
theorem alike_asking_of_closed (h : session.Agree config)
    (closed : session.link.connection.closed) (request : Request) :
    session.Alike (session.asking request).settle := by
  have hr : (session.asking request).Running config := h.toRunning.call request
  have ⟨_, _, hs⟩ := hr.sound
  have hc : (session.asking request).link.connection.closed :=
    (Link.closed_callTimes session.link request 1).trans closed
  have ho : (session.asking request).link.connection.outbound = [] := by
    simp [asking, Link.call, Connection.call, Connection.allocate?, closed, h.outbound]
  have hi : (session.asking request).Idle := h.idle
  have ha := hr.active_settle hi
    (fun text _ => spares_of_no_calls (hs.accounts.coherent.closed hc) text) (by simp [hc])
  exact .of_eq (ha.trans (session.active_asking request)) (by rw [hi.ledger_settle ho]; rfl)

theorem alike_asking (h : session.Agree config) {limit : Option Duration} {request : Request}
    {names : List String} (hr : Request.Changes limit request names)
    (hl : ∀ limit ∈ request.limit, limit.nanos ≠ 0) :
    session.Alike (session.asking request).settle := by
  cases closed : session.link.connection.closed
  case true  => exact h.alike_asking_of_closed closed request
  case false => exact h.toSettled.alike_asking closed hr hl

theorem alike_settle (h : session.Agree config) (ht : ∀ limit ∈ config.timeout, limit.nanos ≠ 0)
    (hf : session.Fair event) : session.Alike (session.onEvent event).2.settle := by
  have hl : ∀ limit ∈ session.link.limit, limit.nanos ≠ 0 := by
    have ⟨_, _, hs⟩ := h.sound
    rwa [Link.limit, hs.config]
  cases hn : event.changes
  case true =>
    unfold Event.changes at hn
    split at hn
    case h_1 names => exact h.alike_asking (.subscribe names) hl
    case h_2 names => exact h.alike_asking (.unsubscribe names) hl
    case h_3 => cases hn
  case false =>
    have held := Held.onEvent session event
    have ha := (h.onEvent event).active_settle (held.idle h.idle) (h.spares_onEvent hf)
      fun closed => h.apart_onEvent hf.ordered hn fun he => by
        subst he
        have hc : (session.onEvent (.act .close)).2.link.connection.closed :=
          Connection.closed_shutDown _
        simp [hc] at closed
    exact .of_eq (ha.trans held.active) (subscriptions_onEvent_settle hf hn)

theorem step (h : session.Agree config) (ht : ∀ limit ∈ config.timeout, limit.nanos ≠ 0)
    (hf : session.Fair event) : (session.step event).2.Agree config := by
  have ⟨change, known, ha, hs⟩ := h.alike_settle ht hf
  constructor
  case toSettled => exact h.toSettled.step event
  case idle => exact (session.onEvent event).2.idle_settle
  case same =>
    calc (session.step event).2.link.connection.active
      _ = change session.link.connection.active := ha
      _ = change session.ledger.subscriptions := by rw [h.same]
      _ = (session.step event).2.ledger.subscriptions := hs.symm
  case streams =>
    intro name mem
    have mem : name ∈ change session.link.connection.active := ha ▸ mem
    exact (known _ name mem).elim (h.streams name) id

end Agree

-- A run whose events are all fair when they come.
def Fairly (session : Session) : List Event → Prop
  | []              => True
  | event :: events => session.Fair event ∧ (session.step event).2.Fairly events

def decidableFairly (session : Session) : (events : List Event) → Decidable (session.Fairly events)
  | []              => .isTrue trivial
  | event :: events =>
    have := decidableFairly (session.step event).2 events
    inferInstanceAs (Decidable (_ ∧ _))

instance (session : Session) (events : List Event) : Decidable (session.Fairly events) :=
  session.decidableFairly events

theorem Agree.run (h : session.Agree config) (ht : ∀ limit ∈ config.timeout, limit.nanos ≠ 0)
    {before after : List Event} (hf : session.Fairly (before ++ after)) :
    (session.after before).Agree config := by
  induction before generalizing session
  case nil => exact h
  case cons event before hi => exact hi (h.step ht hf.left) hf.right

-- As long as a run is fair and calls are given some time, the client and its ledger agree on the
-- streams that are subscribed to after each of its steps, and these streams exist.
theorem client_and_ledger_agree (config : LinkConfig) (events : List Event)
    (timeout : ∀ limit ∈ config.timeout, limit.nanos ≠ 0)
    (fair : (start config).Fairly events) :
    ∀ before after, events = before ++ after →
      let session := (start config).after before
      session.link.connection.active = session.ledger.subscriptions ∧
        ∀ name ∈ session.ledger.subscriptions, ∃ kind ∈ Stream.Kind.all, kind.name = name := by
  rintro before after rfl
  have h := (Agree.start config).run timeout fair
  exact ⟨h.same, h.same ▸ h.streams⟩

theorem client_and_ledger_agree_past_a_silence :
    let body : Json := .object [(Frame.idField, .int 7)]
    let before : List Event := [
      .act (.subscribe ["server", "ledger", "server"]),
      .act (.subscribe ["consensus", "weather"]),
      .setSilent true,
      .act (.subscribe ["consensus"]),
      .setSilent false,
      .push .ledger body,
      .act (.unsubscribe ["server", "manifests"])
    ]
    let after : List Event := [.act (.cancel 2), .pushRaw body, .disconnect, .act .close]
    (start {}).Fairly (before ++ after) ∧
      ((start {}).after before).link.connection.calls.map (·.ticket) = [2] ∧
      ((start {}).after before).ledger.subscriptions.toList = ["ledger"] ∧
      ((start {}).after before).link.connection.active =
        ((start {}).after before).ledger.subscriptions := by
  intro body before after
  have fair : (start {}).Fairly (before ++ after) := by decide +kernel
  have h := client_and_ledger_agree {} _ (by rintro _ ⟨⟩; decide) fair before after rfl
  exact ⟨fair, by decide +kernel, by decide +kernel, h.left⟩

end Session
end LedgerWire
