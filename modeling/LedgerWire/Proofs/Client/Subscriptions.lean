import LedgerWire.Proofs.Client.Submission
import LedgerWire.Proofs.Link.Registry

namespace LedgerWire

open Json (Portable)

theorem Stream.Kind.exists_of_ofName? {name : String} (h : (ofName? name).isSome) :
    ∃ kind ∈ all, kind.name = name := by
  have ⟨kind, mem, hk⟩ := List.find?_isSome.mp h
  exact ⟨kind, mem, of_decide_eq_true hk⟩

namespace Purpose

variable {reply : Fields}

-- What the connection and the ledger both make of their names.
def revise : Purpose → Stream.Names → Stream.Names
  | command, names           => names
  | subscribe more, names    => names.insertAll more
  | unsubscribe fewer, names => names.eraseAll fewer

theorem revise_of_accepts (h : Frame.Accepts reply) (purpose : Purpose) (active : Stream.Names) :
    (purpose.conclude active reply).2 = purpose.revise active := by
  have hr := Frame.refusal?_eq_none.mpr h
  cases purpose <;> simp [conclude, revise, hr]

theorem keep_of_not_accepts (h : ¬Frame.Accepts reply) (purpose : Purpose)
    (active : Stream.Names) : (purpose.conclude active reply).2 = active := by
  have ⟨error, hr⟩ := Option.ne_none_iff_exists'.mp <| Frame.refusal?_eq_none.not.mpr h
  cases purpose <;> simp [conclude, hr]

end Purpose

-- The requests that name streams to change.
inductive Request.Changes (limit : Option Duration) : Request → List String → Prop
  | subscribe (names : List String) : Changes limit (.subscribe names limit) names
  | unsubscribe (names : List String) : Changes limit (.unsubscribe names limit) names

namespace Ledger

variable {ledger : Ledger} {limit : Option Duration} {request : Request} {names : List String}

theorem ordered_reply (id : Json) (outcome : Except Refusal Json) :
    Fields.Ordered (reply (some id) outcome) := by
  have hn : Fields.Ordered [] := .nil
  cases outcome
  case ok    => exact (((hn.insert _ _).insert _ _).insert _ _).insert _ _
  case error => exact ((((hn.insert _ _).insert _ _).insert _ _).insert _ _).insert _ _

theorem accepts_reply_iff {id : Json} {outcome : Except Refusal Json} :
    Frame.Accepts (reply (some id) outcome) ↔ outcome.isOk := by
  cases outcome
  case ok result =>
    refine iff_of_true ⟨?_, ?_⟩ rfl
    all_goals rw [reply_ok]; simp +decide [Fields.get?_insert]
  case error refusal =>
    refine iff_of_false (fun h => ?_) (by simp [Except.isOk, Except.toBool])
    have he := h.error
    rw [reply_error] at he
    simp +decide [Fields.get?_insert] at he

-- The streams named are all known.
def known (names : List String) : Bool :=
  names.all fun name => (Stream.Kind.ofName? name).isSome

-- What the ledger answers to a request that names streams to change.
def decision (names : List String) : Except Refusal Json :=
  if known names then .ok (.object []) else .error malformedStream

theorem streamNames_ofCommand (command : String) (names : List String) (id : Nat) :
    streamNames ((Request.streamCommand command names).insert Frame.idField (.int id)) = names := by
  have hg : (Request.streamCommand command names).get? Frame.streamsField =
      some (.array (names.map .string)) := rfl
  rw [streamNames, Fields.get?_insert_of_ne _ _ (by decide), hg]
  simp [Json.items?, Function.comp_def, Json.string?]

theorem changeStreams_eq (change : Stream.Names → List String → Stream.Names) (request : Fields) :
    ledger.changeStreams change request = (decision (streamNames request), { ledger with
      subscriptions := if known (streamNames request) then
        change ledger.subscriptions (streamNames request) else ledger.subscriptions }) := by
  rw [changeStreams, decision, known]
  split <;> rfl

theorem receive_change (h : Request.Changes limit request names) (hs : ledger.silent = false)
    (id : Nat) :
    let frame := request.command.insert Frame.idField (.int id)
    ledger.receive frame = (some (reply (some (.int id)) (decision names)), { ledger with
      received := ledger.received ++ [frame]
      subscriptions := if known names then request.purpose.revise ledger.subscriptions
        else ledger.subscriptions }) := by
  have hc (command : String) : ((Request.streamCommand command names).insert Frame.idField
      (.int id)).get? Frame.commandField = some (.string command) := by
    rw [Fields.get?_insert_of_ne _ _ (by decide)]
    rfl
  cases h
  all_goals
    simp only [Request.subscribe, Request.unsubscribe, receive, hs, perform, hc, Option.bind_some,
      Json.string?, Option.getD_some, changeStreams_eq, streamNames_ofCommand,
      Fields.get?_insert_self, Purpose.revise]
    rfl

theorem portable_change (h : Request.Changes limit request names) {id : Nat} (hi : id < 2 ^ 64) :
    Portable 127 (.object (request.command.insert Frame.idField (.int id))) := by
  have hp (command : String) : Portable 127 (.object (Request.streamCommand command names)) := by
    refine .object (.of_keys ["command", "streams"] rfl (by decide)) fun f mem => ?_
    simp only [Request.streamCommand, List.mem_cons, List.not_mem_nil, or_false] at mem
    rcases mem with rfl | rfl
    case inl => exact .string _
    case inr => exact .array <| List.forall_mem_map.mpr fun _ _ => .string _
  have hid : Portable 126 (.int id) := .int (by omega) (by omega)
  cases h
  case subscribe   => exact (hp "subscribe").insert hid _
  case unsubscribe => exact (hp "unsubscribe").insert hid _

theorem carrying?_decision (names : List String) {id : Nat} (hi : id < 2 ^ 64) :
    Frame.carrying? id (reply (some (.int id)) (decision names)).text =
      some (reply (some (.int id)) (decision names)) := by
  have hid : Portable 126 (.int id) := .int (by omega) (by omega)
  have hn : Portable 127 (.object []) := .object .nil (List.forall_mem_nil _)
  have hp : Portable 127 (.object (reply (some (.int id)) (decision names))) := by
    rw [decision]
    split
    case isTrue  => exact portable_reply hid <| .object .nil (List.forall_mem_nil _)
    case isFalse =>
      exact ((((hn.insert (.string _) _).insert hid _).insert (.string _) _).insert
        (.string _) _).insert (.string _) _
  exact carrying?_reply hp hi

-- What the ledger makes of such a request when it reaches it, silent or not.
theorem answers_change (h : Request.Changes limit request names) {id : Nat} (hi : id < 2 ^ 64) :
    ledger.answers [(request.command.insert Frame.idField (.int id)).text] =
      if ledger.silent then ([], (ledger.receive (request.command.insert Frame.idField (.int id))).2)
      else ([(reply (some (.int id)) (decision names)).text],
        (ledger.receive (request.command.insert Frame.idField (.int id))).2) := by
  have hf := Frame.ofText?_text (portable_change h hi)
  cases hs : ledger.silent
  case true  => simp [answers, hf, receive, hs]
  case false => simp only [answers, hf, receive_change h hs id]; rfl

end Ledger

namespace Session

variable {session : Session} {config : LinkConfig} {limit : Option Duration} {request : Request}
variable {names : List String}

theorem active_asking (session : Session) (request : Request) :
    (session.asking request).link.connection.active = session.link.connection.active := by
  have ⟨_, _, _, _, _, h⟩ := session.link.connection.call_effect session.link.tickets
    session.link.clock request
  rw [asking, Link.call, h]

-- The same is done to both sets of names, and no names come in but those of streams.
def Alike (before after : Session) : Prop :=
  ∃ change : Stream.Names → Stream.Names,
    (∀ names : Stream.Names, ∀ name ∈ change names,
      name ∈ names ∨ ∃ kind ∈ Stream.Kind.all, kind.name = name) ∧
    after.link.connection.active = change before.link.connection.active ∧
    after.ledger.subscriptions = change before.ledger.subscriptions

theorem Alike.of_eq {after : Session}
    (ha : after.link.connection.active = session.link.connection.active)
    (hs : after.ledger.subscriptions = session.ledger.subscriptions) : session.Alike after :=
  ⟨id, fun _ _ mem => .inl mem, ha, hs⟩

theorem mem_revise (hr : Request.Changes limit request names) (hk : Ledger.known names)
    {before : Stream.Names} {name : String} (mem : name ∈ request.purpose.revise before) :
    name ∈ before ∨ ∃ kind ∈ Stream.Kind.all, kind.name = name := by
  cases hr
  case subscribe =>
    rcases Stream.Names.mem_insertAll.mp mem with mem | mem
    case inl => exact .inr <| Stream.Kind.exists_of_ofName? (List.all_eq_true.mp hk name mem)
    case inr => exact .inl mem
  case unsubscribe => exact .inl (Stream.Names.mem_eraseAll.mp mem).left

-- If no id is left the request fails, and the server never gets to see it.
theorem Settled.alike_asking_of_exhausted (h : session.Settled config)
    (closed : session.link.connection.closed = false)
    (hn : session.link.connection.nextId = none) (request : Request) :
    session.Alike (session.asking request).settle := by
  have he : session.link.connection.allocate? = .error .idsExhausted := by
    simp [Connection.allocate?, closed, hn]
  have ho : (session.asking request).arriving = [] := by
    have hd : (session.asking request).link.duplex = .start := h.quiet closed
    rw [arriving, hd]
    simp [asking, Link.call, Connection.call, he, h.outbound, Duplex.start]
  rw [h.settle_asking closed, ho]
  exact .of_eq (session.active_asking request) rfl

theorem Settled.alike_asking (h : session.Settled config)
    (closed : session.link.connection.closed = false) (hr : Request.Changes limit request names)
    (hl : ∀ limit ∈ request.limit, limit.nanos ≠ 0) :
    session.Alike (session.asking request).settle := by
  cases hn : session.link.connection.nextId
  case none => exact h.alike_asking_of_exhausted closed hn request
  case some id =>
    have ⟨_, _, hs⟩ := h.sound
    have hi : id < 2 ^ 64 := (hs.fresh id hn).left
    have hd : (session.asking request).link.duplex = .start := h.quiet closed
    have harr : (session.asking request).arriving =
        [(request.command.insert Frame.idField (.int id)).text] := by
      rw [arriving, hd]
      simp [asking, Link.call, Connection.call_eq hs closed hn, Connection.retire,
        Connection.dispatch, h.outbound, Connection.frameText, Duplex.start, Outbound.text?]
    have hc : (session.asking request).link.connection.flushed.Coherent :=
      ((hs.call request).accounts.of_outbound []).coherent
    have mem := Connection.mem_calls_call session.link.clock request hs closed hn hl
    have ha : (session.asking request).link.connection.flushed.active =
      session.link.connection.active := session.active_asking request
    rw [h.settle_asking closed, harr, Ledger.answers_change hr hi]
    cases silent : session.ledger.silent
    case true => exact .of_eq ha (by simp [Ledger.receive, silent])
    case false =>
      let reply := Ledger.reply (some (.int id)) (Ledger.decision names)
      have hf : ((session.asking request).link.connection.flushed.route reply.text).active =
          (request.purpose.conclude session.link.connection.active reply).2 :=
        ha ▸ congrArg Connection.active
          (Connection.route_of_carrying hc mem (Ledger.carrying?_decision names hi))
      have hk : Frame.Accepts reply ↔ Ledger.known names := by
        rw [Ledger.accepts_reply_iff, Ledger.decision]
        split <;> simp [*, Except.isOk, Except.toBool]
      rw [Ledger.receive_change hr silent, if_neg (by simp)]
      simp only [List.foldl_cons, List.foldl_nil]
      by_cases known : Ledger.known names
      case pos =>
        rw [Purpose.revise_of_accepts (hk.mpr known)] at hf
        exact ⟨request.purpose.revise, fun _ _ => mem_revise hr known, hf, if_pos known⟩
      case neg =>
        rw [Purpose.keep_of_not_accepts (hk.not.mpr known)] at hf
        exact .of_eq hf (if_neg known)

end Session

end LedgerWire
