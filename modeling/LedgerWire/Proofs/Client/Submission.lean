import LedgerWire.Proofs.Account.Seeds
import LedgerWire.Proofs.Account.Signing
import LedgerWire.Proofs.Client.Settled
import LedgerWire.Proofs.Json.Reading

namespace LedgerWire

open Json (Portable)

theorem Transaction.portable_sign {depth : Nat} {tx : Fields}
    (h : Portable (depth + 1) (.object tx)) (keypair : Keypair) :
    Portable (depth + 1) (.object (sign tx keypair)) :=
  ((h.erase _).insert (.string _) _).insert (.string _) _

namespace Ledger

variable {ledger : Ledger} {tx request : Fields}

-- What the server makes of a transaction whose signature holds.
def applied (tx : Fields) : Fields := [
  ("engine_result", .string "tesSUCCESS"),
  ("engine_result_message", .string "The transaction was applied."),
  (Transaction.commandField, .object tx)
]

theorem submit_of_verify (ht : request.get? Transaction.commandField = some (.object tx))
    (hv : Transaction.verify tx = .ok ()) : submit request = .ok (.object (applied tx)) := by
  rw [submit, ht]
  simp only [Option.bind_some, Json.fields?, hv, applied]

theorem receive_submission (hs : ledger.silent = false)
    (hc : request.get? Frame.commandField = some (.string "submit"))
    (ht : request.get? Transaction.commandField = some (.object tx))
    (hv : Transaction.verify tx = .ok ()) :
    ledger.receive request =
      (some (reply (request.get? Frame.idField) (.ok (.object (applied tx)))),
        { ledger with received := ledger.received ++ [request] }) := by
  rw [receive]
  simp only [hs, perform, hc, Option.bind_some, Json.string?, Option.getD_some,
    submit_of_verify ht hv]
  rfl

theorem reply_ok (id result : Json) :
    reply (some id) (.ok result) =
      (((Fields.insert [] Frame.typeField (.string "response")).insert Frame.idField id).insert
        Frame.statusField (.string "success")).insert resultField result :=
  rfl

theorem reply_error (id : Json) (refusal : Refusal) :
    reply (some id) (.error refusal) =
      ((((Fields.insert [] Frame.typeField (.string "response")).insert Frame.idField id).insert
        Frame.statusField (.string "error")).insert Frame.errorField (.string refusal.error)).insert
          Frame.errorMessageField (.string refusal.message) :=
  rfl

theorem get?_id_reply (id : Json) (outcome : Except Refusal Json) :
    (reply (some id) outcome).get? Frame.idField = some id := by
  cases outcome
  case ok    => rw [reply_ok]; simp +decide [Fields.get?_insert]
  case error => rw [reply_error]; simp +decide [Fields.get?_insert]

-- A reply that its reader can follow answers the request under its id.
theorem carrying?_reply {id : Nat} {outcome : Except Refusal Json}
    (hp : Portable 127 (.object (reply (some (.int id)) outcome))) (hi : id < 2 ^ 64) :
    Frame.carrying? id (reply (some (.int id)) outcome).text =
      some (reply (some (.int id)) outcome) := by
  rw [Frame.carrying?, Frame.ofText?_text hp]
  simp [Option.filter, Frame.requestId?_of_get? (get?_id_reply _ _) hi]

theorem portable_applied {depth : Nat} (h : Portable depth (.object tx)) :
    Portable (depth + 1) (.object (applied tx)) := by
  refine .object (.of_keys ["engine_result", "engine_result_message", "tx_json"] rfl (by decide))
    fun f mem => ?_
  simp only [applied, List.mem_cons, List.not_mem_nil, or_false] at mem
  rcases mem with rfl | rfl | rfl
  case inl => exact .string _
  case inr.inl => exact .string _
  case inr.inr => exact h

theorem portable_reply {depth : Nat} {id result : Json} (hi : Portable depth id)
    (hr : Portable depth result) :
    Portable (depth + 1) (.object (reply (some id) (.ok result))) := by
  have hn : Portable (depth + 1) (.object []) := .object .nil (List.forall_mem_nil _)
  exact (((hn.insert (.string _) _).insert hi _).insert (.string _) _).insert hr _

end Ledger

namespace Connection

variable {c : Connection} {config : LinkConfig} {tickets now id : Nat} {log : List Call}
variable {shown : List (Nat × Outcome LinkError)} {request : Request}

-- The call that a request becomes.
def newCall (tickets now id : Nat) (request : Request) : Call :=
  ⟨tickets, id, request.purpose, request.limit, now⟩

-- A request on a sound connection that has an id left becomes a call, unless its time is up at
-- once.
theorem call_eq (h : c.Sound config tickets log shown) (closed : c.closed = false)
    (hn : c.nextId = some id) :
    c.call tickets now request =
      (c.dispatch id tickets now request).retire (timedOut now) := by
  have ha := h.allocate? closed hn
  rw [call]
  simp only [ha]
  exact expire_eq (h.accounts.dispatch ha).coherent now

theorem mem_calls_call (now : Nat) (request : Request) (h : c.Sound config tickets log shown)
    (closed : c.closed = false) (hn : c.nextId = some id)
    (hl : ∀ limit ∈ request.limit, limit.nanos ≠ 0) :
    newCall tickets now id request ∈ (c.call tickets now request).calls := by
  rw [call_eq h closed hn]
  refine mem_calls_retire.mpr ⟨by simp [dispatch, newCall], ?_⟩
  have ho : (newCall tickets now id request).overdue? now = none := overdue?_new hl tickets id now
  simp [timedOut, ho]

end Connection

namespace Session

variable {session : Session} {config : LinkConfig} {tx : Fields} {seed : String} {keypair : Keypair}
variable {id : Nat}

theorem signed_submission (hk : Keypair.ofSeedText seed = .ok keypair) (tx : Fields) :
    signed (submission (.object tx)) seed =
      .ok (submission (.object (Transaction.sign tx keypair))) := by
  simp only [signed, hk, bind, Except.bind]
  refine (Transaction.signCommand_eq_ok_iff _ keypair).mpr ⟨tx, ?_, ?_⟩
  · rfl
  · rw [submission, submission, Fields.insert, if_neg (by decide), if_neg (by decide),
      Fields.insert, if_neg (by decide), if_pos rfl]

-- The command that reaches the server.
def numbered (tx : Fields) (id : Nat) : Fields := [
  (Frame.commandField, .string "submit"),
  (Frame.idField, .int id),
  (Transaction.commandField, .object tx)
]

theorem insert_id_submission (tx : Fields) (id : Nat) :
    (submission (.object tx)).insert Frame.idField (.int id) = numbered tx id := by
  rw [submission, Fields.insert, if_neg (by decide), if_neg (by decide), Fields.insert,
    if_pos (by decide), numbered]

theorem portable_numbered {depth : Nat} (h : Portable depth (.object tx)) (hi : id < 2 ^ 64) :
    Portable (depth + 1) (.object (numbered tx id)) := by
  refine .object (.of_keys ["command", "id", "tx_json"] rfl (by decide)) fun f mem => ?_
  simp only [numbered, List.mem_cons, List.not_mem_nil, or_false] at mem
  rcases mem with rfl | rfl | rfl
  case inl => exact .string _
  case inr.inl => exact .int (by omega) (by omega)
  case inr.inr => exact h

-- The reply to a transaction that the server has applied.
def acceptance (tx : Fields) (id : Nat) : Fields :=
  Ledger.reply (some (.int id)) (.ok (.object (Ledger.applied tx)))

-- The reply holds the transaction two levels deeper than it was, which the reader still follows.
theorem carrying?_acceptance (h : Portable 125 (.object tx)) (hi : id < 2 ^ 64) :
    Frame.carrying? id (acceptance tx id).text = some (acceptance tx id) := by
  have hid : Portable 126 (.int id) := .int (by omega) (by omega)
  exact Ledger.carrying?_reply (Ledger.portable_reply hid (Ledger.portable_applied h)) hi

theorem answers_numbered (h : Portable 125 (.object tx)) (hi : id < 2 ^ 64) {ledger : Ledger}
    (hs : ledger.silent = false) (hv : Transaction.verify tx = .ok ()) :
    ledger.answers [(numbered tx id).text] = ([(acceptance tx id).text],
      { ledger with received := ledger.received ++ [numbered tx id] }) := by
  have hf : Frame.ofText? (numbered tx id).text = some (numbered tx id) :=
    Frame.ofText?_text ((portable_numbered h hi).mono (by decide))
  have hr : ledger.receive (numbered tx id) = _ := Ledger.receive_submission hs rfl rfl hv
  simp only [Ledger.answers, hf, hr]
  rfl

-- The session once a submission has been signed and queued.
def submitting (session : Session) (tx : Fields) : Session :=
  { session with
    link := session.link.call ⟨submission (.object tx), session.link.limit, .command⟩ }

theorem onEvent_signAndSubmit (session : Session) (hk : Keypair.ofSeedText seed = .ok keypair)
    (tx : Fields) :
    session.onEvent (.signAndSubmit (.object tx) seed) =
      (.nothing, session.submitting (Transaction.sign tx keypair)) := by
  simp only [onEvent, signAndSend, signed_submission hk, submitting]

-- What makes a submission possible: the session is open, the server answers, an id is left, and the
-- client is ready to wait.
structure Ready (config : LinkConfig) (session : Session) (id : Nat) : Prop
    extends Settled config session where
  closed  : session.link.connection.closed = false
  silent  : session.ledger.silent = false
  nextId  : session.link.connection.nextId = some id
  timeout : ∀ limit ∈ config.timeout, limit.nanos ≠ 0

namespace Ready

theorem id_lt (h : session.Ready config id) : id < 2 ^ 64 :=
  have ⟨_, _, hs⟩ := h.sound
  (hs.fresh id h.nextId).left

theorem limit (h : session.Ready config id) : ∀ limit ∈ session.link.limit, limit.nanos ≠ 0 := by
  have ⟨_, _, hs⟩ := h.sound
  rw [Link.limit, hs.config]
  exact h.timeout

theorem outbound_submitting (h : session.Ready config id) (tx : Fields) :
    (session.submitting tx).link.connection.outbound = [.frame id (numbered tx id).text] := by
  have ⟨_, _, hs⟩ := h.sound
  simp only [submitting, Link.call, Connection.call_eq hs h.closed h.nextId, Connection.retire,
    Connection.dispatch, h.outbound, Connection.frameText, insert_id_submission, List.nil_append]

-- The command reaches the server as it was signed, and the reply reaches the client.
theorem settle_submitting (h : session.Ready config id) (hp : Portable 125 (.object tx))
    (hv : Transaction.verify tx = .ok ()) :
    (session.submitting tx).settle = { session.submitting tx with
      ledger := { session.ledger with
        received := session.ledger.received ++ [numbered tx id] }
      link := { (session.submitting tx).link with
        connection := (session.submitting tx).link.connection.flushed.route (acceptance tx id).text
        duplex := .start } } := by
  let request : Request := ⟨submission (.object tx), session.link.limit, .command⟩
  have hd : (session.asking request).link.duplex = .start := h.quiet h.closed
  have ho : (session.asking request).link.connection.outbound = _ := h.outbound_submitting tx
  have ha : (session.asking request).arriving = [(numbered tx id).text] := by
    rw [arriving, ho, hd]
    rfl
  have hs : (session.submitting tx).settle = _ := h.settle_asking h.closed request
  rw [hs, ha, answers_numbered hp h.id_lt h.silent hv]
  rfl

theorem coherent_submitting (h : session.Ready config id) (tx : Fields) :
    (session.submitting tx).link.connection.flushed.Coherent := by
  have ⟨_, _, hs⟩ := h.sound
  exact ((hs.call _).accounts.of_outbound []).coherent

theorem replied_submitting (h : session.Ready config id) (hp : Portable 125 (.object tx))
    (hv : Transaction.verify tx = .ok ()) :
    (session.link.tickets, .replied (acceptance tx id)) ∈
      (session.submitting tx).settle.link.connection.finished := by
  have ⟨_, _, hs⟩ := h.sound
  have hc := h.coherent_submitting tx
  have hf := carrying?_acceptance hp h.id_lt
  obtain ⟨_, _, hr⟩ := Connection.route_eq hc (acceptance tx id).text
  have mem := Connection.mem_calls_call session.link.clock
    ⟨submission (.object tx), session.link.limit, .command⟩ hs h.closed h.nextId h.limit
  have ho := Connection.outcomes_replied hc.ids mem hf
  rw [h.settle_submitting hp hv]
  simp only [hr, Connection.retire]
  exact List.mem_append_right _ (ho ▸ List.mem_singleton_self _)

end Ready

-- If nothing was refused, what a step shows to have ended are the calls that ended.
theorem mem_step_finished {event : Event} {p : Nat × Outcome ClientError}
    (hr : (session.onEvent event).2.settle.refused = []) :
    p ∈ (session.step event).1.finished ↔
      ∃ q ∈ (session.onEvent event).2.settle.link.connection.finished,
        (q.1, q.2.mapError .link) = p := by
  simp only [step, work, harvest, hr, Link.harvest, List.map_nil, List.append_nil, List.mem_mergeSort,
    List.mem_map]

-- A session shows no ticket twice in one step.
theorem Running.nodup_finished (h : session.Running config) :
    (session.settle.link.connection.finished.map (·.1)).Nodup := by
  have ⟨_, _, hs⟩ := h.settle_sound
  have ht := hs.accounts.tickets.nodup_iff.mpr List.nodup_range
  rw [List.map_append] at ht
  exact (List.nodup_append.mp (List.nodup_append.mp ht).left).right.left

namespace Ready

theorem finished_iff (h : session.Ready config id) (hk : Keypair.ofSeedText seed = .ok keypair)
    (hp : Portable 125 (.object (Transaction.sign tx keypair)))
    (hv : Transaction.verify (Transaction.sign tx keypair) = .ok ())
    (outcome : Outcome ClientError) :
    (session.link.tickets, outcome) ∈
        (session.step (.signAndSubmit (.object tx) seed)).1.finished ↔
      outcome = .replied (acceptance (Transaction.sign tx keypair) id) := by
  have he := onEvent_signAndSubmit session hk tx
  have mem := h.replied_submitting hp hv
  have hn := (he ▸ h.onEvent (.signAndSubmit (.object tx) seed)).nodup_finished
  have hr : (session.submitting (Transaction.sign tx keypair)).settle.refused = [] := by
    rw [h.settle_submitting hp hv]
    exact h.refused
  rw [mem_step_finished (by rw [he]; exact hr), he]
  constructor
  case mp =>
    intro ⟨q, hq, heq⟩
    have ⟨ht, ho⟩ := Prod.mk.inj heq
    obtain rfl := List.inj_on_of_nodup_map hn hq mem ht
    exact ho.symm
  case mpr =>
    intro heq
    exact ⟨_, mem, by rw [heq]; rfl⟩

end Ready

-- A transaction that a client signs and submits comes back as it was signed, under a reply that
-- says that it was applied, and the server has received it once and nothing else.
theorem submissions_survive_the_wire (config : LinkConfig) (events : List Event)
    (closed : ((start config).after events).link.connection.closed = false)
    (silent : ((start config).after events).ledger.silent = false)
    (nextId : ((start config).after events).link.connection.nextId = some id)
    (timeout : ∀ limit ∈ config.timeout, limit.nanos ≠ 0)
    (hp : Portable 125 (.object tx)) (hk : Keypair.ofSeedText seed = .ok keypair)
    (hv : keypair.SignatureHolds (Transaction.signed tx keypair.publicKey)) :
    let session := (start config).after events
    let step    := session.step (.signAndSubmit (.object tx) seed)
    let signed  := Transaction.sign tx keypair
    let command := [
      (Frame.commandField, .string "submit"),
      (Frame.idField, .int id),
      (Transaction.commandField, .object signed)
    ]
    (∃ reply result : Fields,
      (∀ outcome, (session.link.tickets, outcome) ∈ step.1.finished ↔ outcome = .replied reply) ∧
      reply.get? Frame.statusField = some (.string "success") ∧
      reply.get? Ledger.resultField = some (.object result) ∧
      result.get? "engine_result" = some (.string "tesSUCCESS") ∧
      result.get? Transaction.commandField = some (.object signed)) ∧
    step.1.received = [command] ∧
    step.2.ledger.received = session.ledger.received ++ [command] := by
  have h : ((start config).after events).Ready config id :=
    { (Settled.start config).run events with closed, silent, nextId, timeout }
  generalize (start config).after events = session at h
  have hp := Transaction.portable_sign hp keypair
  have hv := Transaction.verify_sign tx keypair hv
  have he := onEvent_signAndSubmit session hk tx
  have hs := h.settle_submitting hp hv
  have hr : (session.step (.signAndSubmit (.object tx) seed)).2.ledger.received =
      session.ledger.received ++ [numbered (Transaction.sign tx keypair) id] := by
    simp only [step, work, he, harvest, hs]
  have hd : (session.step (.signAndSubmit (.object tx) seed)).1.received =
      [numbered (Transaction.sign tx keypair) id] := by
    simp only [step, work, he, harvest, hs, List.drop_left]
  refine ⟨⟨acceptance (Transaction.sign tx keypair) id,
    Ledger.applied (Transaction.sign tx keypair), h.finished_iff hk hp hv, ?_, ?_, rfl, rfl⟩,
    hd, hr⟩
  · rw [acceptance, Ledger.reply_ok, Fields.get?_insert_of_ne _ _ (by decide),
      Fields.get?_insert_self]
  · exact Fields.get?_insert_self ..

theorem submissions_survive_the_wire_behind_a_request :
    let text := "snoPBrXtMeMyMHUVTgbuqAfg1SUTb"
    let seed : Seed :=
      ⟨[222, 220, 233, 206, 103, 180, 81, 216, 82, 253, 78, 132, 111, 205, 227, 28]⟩
    let tx : Fields := [("Memo", .array [.string "é\n"]), ("Sequence", .int (2 ^ 64 - 1))]
    let session := (start {}).after [.act (.issue [(Frame.commandField, .string "ping")] 1)]
    session.link.connection.closed = false ∧ session.ledger.silent = false ∧
      session.link.connection.nextId = some 2 ∧ Keypair.ofSeedText text = .ok seed.keypair ∧
      seed.keypair.SignatureHolds (Transaction.signed tx seed.keypair.publicKey) ∧
      (session.step (.signAndSubmit (.object tx) text)).1.received = [[
        (Frame.commandField, .string "submit"),
        (Frame.idField, .int 2),
        (Transaction.commandField, .object (Transaction.sign tx seed.keypair))
      ]] := by
  intro text seed tx session
  have closed : session.link.connection.closed = false := by decide +kernel
  have silent : session.ledger.silent = false := by decide +kernel
  have nextId : session.link.connection.nextId = some 2 := by decide +kernel
  have hk : Keypair.ofSeedText text = .ok seed.keypair := by
    have hs : Seed.parse text = .ok seed := Seed.parse_of_toOption (by decide +kernel)
    rw [Keypair.ofSeedText, hs]
    rfl
  have hp : Portable 125 (.object tx) := by
    refine .object (.of_keys ["Memo", "Sequence"] rfl (by decide)) fun f mem => ?_
    simp only [tx, List.mem_cons, List.not_mem_nil, or_false] at mem
    rcases mem with rfl | rfl
    case inl => exact .array fun v mem => List.mem_singleton.mp mem ▸ .string _
    case inr => exact .int (by decide) (by decide)
  have hv : seed.keypair.SignatureHolds (Transaction.signed tx seed.keypair.publicKey) := by
    decide +kernel
  have h := submissions_survive_the_wire {} _ closed silent nextId (by rintro _ ⟨⟩; decide) hp hk hv
  exact ⟨closed, silent, nextId, hk, hv, h.right.left⟩

end Session
end LedgerWire
