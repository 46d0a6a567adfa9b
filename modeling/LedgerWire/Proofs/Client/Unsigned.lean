import LedgerWire.Proofs.Client.Rest

namespace LedgerWire

namespace Connection

variable {c : Connection} {config : LinkConfig} {tickets : Nat} {log : List Call}
variable {shown : List (Nat × Outcome LinkError)}

-- The id after the one that a request is given.
def following (id : Nat) : Option Nat :=
  if id + 1 < idSpace then some (id + 1) else none

-- A request uses up one id, if the connection is open and has one left.
theorem nextId_call (h : c.Sound config tickets log shown) (now : Nat) (request : Request) :
    (c.call tickets now request).nextId =
      if c.closed then c.nextId else c.nextId.bind following := by
  cases hc : c.closed
  case true => simp [call, allocate?, hc]
  case false =>
    rw [if_neg Bool.false_ne_true, call]
    cases hn : c.nextId
    case none =>
      have ha : c.allocate? = .error .idsExhausted := by simp [allocate?, hc, hn]
      simp only [ha, Option.bind_none]
    case some id =>
      obtain ⟨_, _, _, he⟩ := (c.dispatch id tickets now request).expire_effect now
      simp only [h.allocate? hc hn, he]
      rfl

end Connection

theorem Transaction.signCommand_eq_error_iff {command : Fields} {keypair : Keypair}
    {cause : CredentialError} : signCommand command keypair = .error cause ↔
      (∀ tx, command.get? commandField ≠ some (.object tx)) ∧ cause = .missingField commandField := by
  rw [signCommand]
  cases command.get? commandField
  case none => simp [eq_comm]
  case some value => cases value <;> simp [Json.fields?, eq_comm]

theorem Link.harvest_of_nothing {link : Link} (h : link.connection.finished = []) :
    link.harvest = ([], link) := by
  obtain ⟨connection, _⟩ := link
  obtain ⟨⟩ := connection
  cases h
  rw [harvest, List.mergeSort_nil]

theorem Link.nextId_settle (link : Link) :
    link.settle.connection.nextId = link.connection.nextId := by
  refine settle_keeps (P := (·.nextId = link.connection.nextId)) ⟨?_, ?_⟩ ?_ rfl
  · intro c id error _ hn
    have ⟨_, _, _, h⟩ := c.failRequest_effect id error
    exact h ▸ hn
  · intro c hn
    have ⟨_, _, _, _, h⟩ := c.shutDown_effect
    exact h ▸ hn
  · intro c text hn
    have ⟨_, _, _, _, _, h⟩ := c.route_effect text
    exact h ▸ hn

namespace Session

variable {session : Session} {config : LinkConfig} {command result : Fields} {seed : String}
variable {event : Event} {cause : CredentialError}

-- Why a command cannot be signed with a seed. The seed is looked at first.
inductive Unsignable (command : Fields) (seed : String) : CredentialError → Prop
  | seed {cause : CredentialError} : Seed.parse seed = .error cause → Unsignable command seed cause
  | transaction {parsed : Seed} : Seed.parse seed = .ok parsed →
    (∀ tx, command.get? "tx_json" ≠ some (.object tx)) →
    Unsignable command seed (.missingField "tx_json")

theorem signed_of_parse_error (h : Seed.parse seed = .error cause) (command : Fields) :
    signed command seed = .error cause := by
  simp only [signed, Keypair.ofSeedText, h]
  rfl

theorem signed_of_parse {parsed : Seed} (h : Seed.parse seed = .ok parsed) (command : Fields) :
    signed command seed = Transaction.signCommand command parsed.keypair := by
  simp only [signed, Keypair.ofSeedText, h]
  rfl

theorem signed_eq_ok_iff : signed command seed = .ok result ↔
    ∃ parsed tx, Seed.parse seed = .ok parsed ∧ command.get? "tx_json" = some (.object tx) ∧
      result = command.insert "tx_json" (.object (Transaction.sign tx parsed.keypair)) := by
  cases hs : Seed.parse seed
  case error => simp [signed_of_parse_error hs]
  case ok parsed =>
    rw [signed_of_parse hs, Transaction.signCommand_eq_ok_iff]
    simp [Transaction.commandField]

theorem signed_eq_error_iff :
    signed command seed = .error cause ↔ Unsignable command seed cause := by
  constructor
  case mp =>
    intro h
    cases hs : Seed.parse seed
    case error =>
      cases (signed_of_parse_error hs command).symm.trans h
      exact .seed hs
    case ok parsed =>
      rw [signed_of_parse hs] at h
      obtain ⟨hn, rfl⟩ := Transaction.signCommand_eq_error_iff.mp h
      exact .transaction hs hn
  case mpr =>
    rintro (hs | ⟨hs, hn⟩)
    case seed => exact signed_of_parse_error hs command
    case transaction =>
      rw [signed_of_parse hs]
      exact Transaction.signCommand_eq_error_iff.mpr ⟨hn, rfl⟩

theorem nextId_settle (session : Session) :
    session.settle.link.connection.nextId = session.link.connection.nextId := by
  rw [settle_eq_served]
  refine (Link.nextId_settle _).trans ?_
  rw [served, connection_serve]
  exact Link.nextId_settle _

-- The events that ask for a command to be signed with a seed and sent.
inductive Event.Signs : (command : Fields) → (seed : String) → Event → Prop
  | send (command : Fields) (seed : String) : Signs command seed (.signAndSend command seed)
  | submit (tx : Json) (seed : String) :
    Signs [("command", .string "submit"), ("tx_json", tx)] seed (.signAndSubmit tx seed)

theorem onEvent_of_signs (he : event.Signs command seed) :
    session.onEvent event = (.nothing, session.signAndSend command seed) := by
  cases he <;> rfl

theorem step_of_signed (he : event.Signs command seed) (hs : signed command seed = .ok result) :
    session.step event = session.step (.act (.issue result 1)) := by
  simp only [step, work, onEvent_of_signs he, signAndSend, hs]
  rfl

theorem AtRest.step_of_unsigned (h : session.AtRest) (hr : session.refused = [])
    (he : event.Signs command seed) (hs : signed command seed = .error cause) :
    session.step event = (⟨.nothing, [(session.link.tickets, .failed (.credential cause))], []⟩,
      { session with link := { session.link with tickets := session.link.tickets + 1 } }) := by
  let next : Session := { session with
    link    := { session.link with tickets := session.link.tickets + 1 }
    refused := [(session.link.tickets, cause)] }
  have hn : session.signAndSend command seed = next := by
    simp only [signAndSend, hs, hr, List.nil_append, next]
  -- Neither the client nor the server has got anything to do by it.
  have hq : next.AtRest := ⟨{ h.link with }, h.released, h.idle, h.client⟩
  have hl := Link.harvest_of_nothing hq.link.finished
  simp only [Session.step, work, onEvent_of_signs he, hn, hq.settle, harvest, hl]
  simp [next, hr]

theorem nextId_step_issue (h : session.Settled config) (command : Fields) :
    (session.step (.act (.issue command 1))).2.link.connection.nextId =
      if session.link.connection.closed then session.link.connection.nextId
      else session.link.connection.nextId.bind Connection.following := by
  have ⟨_, _, hs⟩ := h.sound
  let request : Request := ⟨command, session.link.limit, .command⟩
  calc (session.step (.act (.issue command 1))).2.link.connection.nextId
    _ = (session.asking request).settle.link.connection.nextId := rfl
    _ = (session.asking request).link.connection.nextId := nextId_settle _
    _ = _ := Connection.nextId_call hs session.link.clock request

theorem refused_settle (session : Session) : session.settle.refused = session.refused := by
  obtain ⟨_, _, _, he⟩ := serve_effect { session with link := session.link.settle }
  rw [settle, he]

-- A request that has been signed does not fail for its credentials any more.
theorem not_mem_finished_of_signed (hr : session.refused = []) (he : event.Signs command seed)
    (hs : signed command seed = .ok result) (ticket : Nat) (cause : CredentialError) :
    (ticket, .failed (.credential cause)) ∉ (session.step event).1.finished := by
  have hn : (session.onEvent event).2.settle.refused = [] := by
    rw [refused_settle, onEvent_of_signs he, signAndSend, hs]
    exact hr
  rw [mem_step_finished hn]
  rintro ⟨⟨_, outcome⟩, _, heq⟩
  cases outcome <;> cases heq

-- Signing comes first, so a command fails with an error of its credentials exactly if it cannot be
-- signed, even on a link that has closed or that has no ids left. Then nothing is sent, nothing is
-- received, and the session stays as it was, but for the ticket of the request. In all other cases
-- the signed command is requested like any other, under the next id if there is one.
theorem signing_failures_leave_no_trace (config : LinkConfig) (events : List Event)
    (he : event.Signs command seed) :
    let session := (start config).after events
    let step    := session.step event
    (∀ ticket cause, (ticket, .failed (.credential cause)) ∈ step.1.finished ↔
      ticket = session.link.tickets ∧ Unsignable command seed cause) ∧
    (∀ cause, Unsignable command seed cause →
      step = (⟨.nothing, [(session.link.tickets, .failed (.credential cause))], []⟩,
        { session with link := { session.link with tickets := session.link.tickets + 1 } })) ∧
    ((∀ cause, ¬Unsignable command seed cause) → ∃ parsed tx,
      Seed.parse seed = .ok parsed ∧ command.get? "tx_json" = some (.object tx) ∧
        step = session.step (.act (.issue
          (command.insert "tx_json" (.object (Transaction.sign tx parsed.keypair))) 1)) ∧
        step.2.link.connection.nextId =
          if session.link.connection.closed then session.link.connection.nextId
          else session.link.connection.nextId.bind fun id =>
            if id + 1 < 2 ^ 64 then some (id + 1) else none) := by
  have h := (Settled.start config).run events
  have hq := (AtRest.start config).run events
  generalize (start config).after events = session at h hq
  cases hs : signed command seed
  case error cause =>
    have hu := signed_eq_error_iff.mp hs
    have unique {other : CredentialError} (ho : Unsignable command seed other) : other = cause :=
      Except.error.inj <| (signed_eq_error_iff.mpr ho).symm.trans hs
    have step := hq.step_of_unsigned h.refused he hs
    refine ⟨fun ticket other => ?_, fun other ho => ?_, fun hn => absurd hu (hn cause)⟩
    case refine_1 =>
      rw [step, List.mem_singleton]
      constructor
      case mp  => rintro ⟨⟩; exact ⟨rfl, hu⟩
      case mpr => rintro ⟨rfl, ho⟩; rw [unique ho]
    case refine_2 => rw [unique ho, step]
  case ok result =>
    have signable (cause : CredentialError) : ¬Unsignable command seed cause := fun hu => by
      cases hs.symm.trans <| signed_eq_error_iff.mpr hu
    have ⟨parsed, tx, hp, ht, hc⟩ := signed_eq_ok_iff.mp hs
    have step : session.step event = _ := step_of_signed he hs
    refine ⟨fun ticket cause => ?_, fun cause hu => absurd hu (signable cause), fun _ =>
      ⟨parsed, tx, hp, ht, hc ▸ step, ?_⟩⟩
    case refine_1 =>
      have hn := not_mem_finished_of_signed h.refused he hs ticket cause
      exact iff_of_false hn fun hu => signable cause hu.right
    case refine_2 => rw [step, nextId_step_issue h]; rfl

theorem signing_failures_leave_no_trace_behind_a_close :
    let session := (start {}).after [.act .close]
    let command : Fields := [("tx_json", .string "payment")]
    let seed := "snoPBrXtMeMyMHUVTgbuqAfg1SUTb"
    session.link.connection.closed ∧ Event.Signs command seed (.signAndSend command seed) ∧
      (session.step (.signAndSend command seed)).1.finished =
        [(0, .failed (.credential (.missingField "tx_json")))] := by
  intro session command seed
  have he : Event.Signs command seed (.signAndSend command seed) := .send command seed
  have hs : Seed.parse seed = .ok
      ⟨[222, 220, 233, 206, 103, 180, 81, 216, 82, 253, 78, 132, 111, 205, 227, 28]⟩ :=
    Seed.parse_of_toOption (by decide +kernel)
  have hu : Unsignable command seed (.missingField "tx_json") := .transaction hs nofun
  have h := signing_failures_leave_no_trace {} [.act .close] he
  exact ⟨by decide +kernel, he, by rw [h.right.left _ hu]; rfl⟩

end Session
end LedgerWire
