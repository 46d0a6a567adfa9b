import LedgerWire.Proofs.Client.Submission
import LedgerWire.Proofs.Link.Prompt

namespace LedgerWire

open Json (Portable)

-- The request that a command is sent as.
def Frame.ofCommand (command : Fields) (id : Nat) : Fields :=
  command.insert idField (.int id)

namespace Ledger

-- The reply that gives a command back.
def echoed (command : Fields) (id : Nat) : Fields := [
  (Frame.idField, .int id),
  (resultField, .object [("echo", .object (command.erase Frame.idField))]),
  (Frame.statusField, .string "success"),
  (Frame.typeField, .string "response")
]

-- What a request asks for.
def commandName (request : Fields) : String :=
  ((request.get? Frame.commandField).bind Json.string?).getD ""

-- The ledger does nothing with the command but to give it back.
structure Echoes (ledger : Ledger) (command : Fields) : Prop where
  plain : commandName command ∉ ["subscribe", "unsubscribe", "submit"]
  unset : ledger.results.lookup (commandName command) = none

variable {ledger : Ledger} {command : Fields}

theorem perform_eq_echo {request : Fields} (h : ledger.Echoes request) :
    ledger.perform request = (.ok (echo request), ledger) := by
  have hp := h.plain
  have hu := h.unset
  unfold commandName at hp hu
  unfold perform
  split
  case h_1 hc => simp [hc] at hp
  case h_2 hc => simp [hc] at hp
  case h_3 hc => simp [hc] at hp
  case h_4 => rw [hu, Option.getD_none]

theorem commandName_ofCommand (command : Fields) (id : Nat) :
    commandName (Frame.ofCommand command id) = commandName command := by
  rw [commandName, Frame.ofCommand, Fields.get?_insert_of_ne _ _ (by decide)]
  rfl

theorem Echoes.ofCommand (h : ledger.Echoes command) (id : Nat) :
    ledger.Echoes (Frame.ofCommand command id) where
  plain := commandName_ofCommand command id ▸ h.plain
  unset := commandName_ofCommand command id ▸ h.unset

theorem reply_echo (command : Fields) (id : Nat) :
    reply (some (.int id)) (.ok (echo (Frame.ofCommand command id))) = echoed command id := by
  have he : echo (Frame.ofCommand command id) =
      .object [("echo", .object (command.erase Frame.idField))] := by
    rw [echo, Frame.ofCommand, Fields.erase_insert]
  rw [he, reply_ok]
  simp +decide only [Fields.insert, echoed, if_true, if_false]

theorem receive_ofCommand (hs : ledger.silent = false) (h : ledger.Echoes command) (id : Nat) :
    ledger.receive (Frame.ofCommand command id) = (some (echoed command id),
      { ledger with received := ledger.received ++ [Frame.ofCommand command id] }) := by
  have hi : (Frame.ofCommand command id).get? Frame.idField = some (.int id) :=
    Fields.get?_insert_self ..
  have hp := @perform_eq_echo
    { ledger with received := ledger.received ++ [Frame.ofCommand command id] } _
    ⟨(h.ofCommand id).plain, (h.ofCommand id).unset⟩
  simp only [receive, hp, hi, reply_echo]
  rw [if_neg (by simp [hs])]

theorem ofText?_ofCommand {id : Nat} (h : Portable 125 (.object command)) (hi : id < 2 ^ 64) :
    Frame.ofText? (Frame.ofCommand command id).text = some (Frame.ofCommand command id) := by
  have hid : Portable 124 (.int id) := .int (by omega) (by omega)
  exact Frame.ofText?_text <| (h.insert hid _).mono (by decide)

-- The reply holds the command two levels deeper than it was, which the reader still follows.
theorem carrying?_echoed {id : Nat} (h : Portable 125 (.object command)) (hi : id < 2 ^ 64) :
    Frame.carrying? id (echoed command id).text = some (echoed command id) := by
  have he : Portable 126 (echo (Frame.ofCommand command id)) := by
    rw [echo, Frame.ofCommand, Fields.erase_insert]
    exact .object (List.pairwise_singleton ..) fun f mem => List.mem_singleton.mp mem ▸ h.erase _
  have hid : Portable 126 (.int id) := .int (by omega) (by omega)
  have hc := carrying?_reply (portable_reply hid he) hi
  rwa [reply_echo] at hc

-- A command that is portable, and that the ledger has no other use for.
structure Simple (ledger : Ledger) (command : Fields) : Prop where
  portable : Portable 125 (.object command)
  echoes   : ledger.Echoes command

theorem answers_ofCommand (hs : ledger.silent = false) {commands : List (Fields × Nat)}
    (h : ∀ p ∈ commands, ledger.Simple p.1 ∧ p.2 < 2 ^ 64) :
    ledger.answers (commands.map fun (command, id) => (Frame.ofCommand command id).text) =
      (commands.map fun (command, id) => (echoed command id).text, { ledger with
        received := ledger.received ++
          commands.map fun (command, id) => Frame.ofCommand command id }) := by
  induction commands generalizing ledger
  case nil => simp [answers]
  case cons p commands hi =>
    obtain ⟨hp, hid⟩ := h p (.head _)
    have hr := receive_ofCommand hs hp.echoes p.2
    -- What the ledger has received does not matter to what it answers.
    have ha := @hi { ledger with received := ledger.received ++ [Frame.ofCommand p.1 p.2] } hs
      fun q mem => (h q (.tail _ mem)).imp_left fun hq =>
        ⟨hq.portable, ⟨hq.echoes.plain, hq.echoes.unset⟩⟩
    simp only [List.map_cons, answers, ofText?_ofCommand hp.portable hid, hr, ha,
      List.append_assoc, List.singleton_append]

end Ledger

namespace Session

variable {session : Session} {config : LinkConfig} {commands : List Fields}

theorem issuing_eq (session : Session) (commands : List Fields) :
    session.issuing commands = { session with
      link := session.link.callAll <| commands.map (⟨·, session.link.limit, .command⟩) } := by
  have hl (l : Link) (request : Request) : (l.call request).limit = l.limit := by
    have ⟨_, _, _, _, _, h⟩ := l.connection.call_effect l.tickets l.clock request
    rw [Link.limit, Link.call, h]
    rfl
  induction commands generalizing session
  case nil => rfl
  case cons command commands hi =>
    rw [issuing, hi]
    simp only [onEvent, Link.act, Link.callTimes, hl]
    rfl

theorem Running.settle_prompt (h : session.Running config) (hp : session.link.Prompt) :
    session.settle.link.Prompt := by
  have ⟨_, _, hs⟩ := h.sound
  have hs' := hs.settle
  obtain ⟨duplex, _, _, he⟩ := serve_effect { session with link := session.link.settle }
  have hp' : Link.Prompt { session.link.settle with duplex } := hp.settle hs
  rw [Session.settle, he]
  exact hp'.settle hs'

theorem Settled.prompt_onEvent (h : session.Settled config) (hp : session.link.Prompt)
    (event : Event) : (session.onEvent event).2.link.Prompt := by
  have ⟨_, _, hs⟩ := h.sound
  have pushRaw (frame : Json) : (session.pushRaw frame).2.link.Prompt := by
    rw [Session.pushRaw]
    split <;> exact hp
  have push (kind : Stream.Kind) (body : Json) : (session.push kind body).2.link.Prompt := by
    rw [Session.push]
    split
    case isTrue  => exact pushRaw _
    case isFalse => exact hp
  have signAndSend (command : Fields) (seed : String) :
      (session.signAndSend command seed).link.Prompt := by
    rw [Session.signAndSend]
    split
    case h_1 => exact Connection.Prompt.call hp hs _
    case h_2 => exact hp
  cases event
  case act action => exact hp.act hs action
  case signAndSend command seed => exact signAndSend command seed
  case signAndSubmit tx seed => exact signAndSend _ seed
  case pushRaw frame => exact pushRaw frame
  case push kind body => exact push kind body
  all_goals exact hp

theorem prompt_run (h : session.Settled config) (hp : session.link.Prompt) (events : List Event) :
    (session.after events).link.Prompt := by
  induction events generalizing session
  case nil => exact hp
  case cons event events hi =>
    exact hi (h.step event) <| (h.onEvent event).settle_prompt (h.prompt_onEvent hp event)

-- The calls that commands become.
def newCalls (session : Session) (commands : List Fields) : List (Call × Fields) :=
  session.link.newCalls <| commands.map (⟨·, session.link.limit, .command⟩)

theorem newCalls_eq (session : Session) (commands : List Fields) :
    session.newCalls commands =
      ((commands.zipIdx session.link.connection.front).zipIdx session.link.tickets).map
        fun ((command, id), ticket) =>
          (⟨ticket, id, .command, session.link.limit, session.link.clock⟩, command) := by
  rw [newCalls, Link.newCalls, List.zipIdx_map, List.zipIdx_map, List.map_map]
  rfl

theorem mem_newCalls {p : Call × Fields} (mem : p ∈ session.newCalls commands) :
    p.1.purpose = .command ∧ p.1.id < session.link.connection.front + commands.length ∧
      p.2 ∈ commands := by
  rw [newCalls_eq, List.mem_map] at mem
  obtain ⟨⟨⟨command, id⟩, ticket⟩, mem, rfl⟩ := mem
  have mem := List.fst_mem_of_mem_zipIdx mem
  exact ⟨rfl, List.snd_lt_add_of_mem_zipIdx mem, List.fst_mem_of_mem_zipIdx mem⟩

-- What makes a burst possible: the session is open, no call under way has run out of time, the
-- server answers, enough ids are left, and the client is ready to wait.
structure Receptive (config : LinkConfig) (session : Session) (commands : List Fields) : Prop
    extends Settled config session where
  prompt  : session.link.Prompt
  closed  : session.link.connection.closed = false
  silent  : session.ledger.silent = false
  timeout : ∀ limit ∈ config.timeout, limit.nanos ≠ 0
  room    : session.link.connection.front + commands.length ≤ Connection.idSpace
  simple  : ∀ command ∈ commands, session.ledger.Simple command

namespace Receptive

theorem issuing_eq (h : session.Receptive config commands) :
    ∃ nextId, session.issuing commands = { session with link := { session.link with
      connection := { session.link.connection with
        nextId
        pending  := .ofCalls (session.link.connection.calls ++ (session.newCalls commands).map (·.1))
        calls    := session.link.connection.calls ++ (session.newCalls commands).map (·.1)
        outbound := (session.newCalls commands).map fun (call, command) =>
          .frame call.id (Connection.frameText command call.id) }
      tickets := session.link.tickets + commands.length } } := by
  have ⟨_, _, hs⟩ := h.sound
  have hl : ∀ request ∈ commands.map (⟨·, session.link.limit, .command⟩),
      ∀ limit ∈ Request.limit request, limit.nanos ≠ 0 := by
    intro request mem limit hm
    obtain ⟨_, _, rfl⟩ := List.mem_map.mp mem
    rw [Link.limit, hs.config] at hm
    exact h.timeout limit hm
  obtain ⟨nextId, hc⟩ := Link.callAll_eq hs h.prompt h.closed hl (by simpa using h.room)
  refine ⟨nextId, ?_⟩
  rw [Session.issuing_eq, hc, h.outbound]
  simp [newCalls]

theorem coherent_issuing (h : session.Receptive config commands) :
    (session.issuing commands).link.connection.flushed.Coherent := by
  have ⟨_, _, hs⟩ := h.sound
  have ⟨_, hc⟩ := hs.callAll (commands.map (⟨·, session.link.limit, .command⟩))
  rw [Session.issuing_eq]
  exact (hc.accounts.of_outbound []).coherent

theorem simple_newCalls (h : session.Receptive config commands) {p : Call × Fields}
    (mem : p ∈ session.newCalls commands) :
    p.1.purpose = .command ∧ session.ledger.Simple p.2 ∧ p.1.id < 2 ^ 64 :=
  have ⟨hp, hid, hm⟩ := mem_newCalls mem
  ⟨hp, h.simple _ hm, Nat.lt_of_lt_of_le hid h.room⟩

-- The texts of all commands reach the server.
theorem settle_issuing (h : session.Receptive config commands) :
    (session.issuing commands).settle = { session.issuing commands with
      ledger := { session.ledger with
        received := session.ledger.received ++
          (session.newCalls commands).map fun p => Frame.ofCommand p.2 p.1.id }
      link := { (session.issuing commands).link with
        connection := ((session.newCalls commands).map fun p =>
          (Ledger.echoed p.2 p.1.id).text).foldl Connection.route
            (session.issuing commands).link.connection.flushed } } := by
  have ⟨live, serving⟩ := h.live h.closed
  have hd := h.quiet h.closed
  have ⟨nextId, hi⟩ := h.issuing_eq
  have hl : (session.issuing commands).link.Live := by rw [hi]; exact { live with }
  have harr : (session.issuing commands).arriving =
      (session.newCalls commands).map fun p => (Frame.ofCommand p.2 p.1.id).text := by
    simp [arriving, hi, hd, Duplex.start, Function.comp_def, Outbound.text?, Connection.frameText,
      Frame.ofCommand]
  have simple : ∀ p ∈ (session.newCalls commands).map fun p => (p.2, p.1.id),
      session.ledger.Simple p.1 ∧ p.2 < 2 ^ 64 :=
    List.forall_mem_map.mpr fun p mem => (h.simple_newCalls mem).right
  have ha := Ledger.answers_ofCommand h.silent simple
  simp only [List.map_map, Function.comp_def] at ha
  rw [settle_eq hl (by rw [hi]; exact serving) (by simp [hi, hd, Duplex.start]) (by simp [hi]),
    harr]
  simp only [hi, ha, hd, Duplex.start, List.nil_append]

-- The replies reach the client, and nothing is different in the end but the id that comes next and
-- what has ended.
theorem connection_settle_issuing (h : session.Receptive config commands) :
    ∃ nextId, (session.issuing commands).settle.link.connection = { session.link.connection with
      nextId
      finished := (session.newCalls commands).map fun p =>
        (p.1.ticket, .replied (Ledger.echoed p.2 p.1.id)) } := by
  have ⟨_, _, hs⟩ := h.sound
  have ⟨nextId, hi⟩ := h.issuing_eq
  have hf : ∀ q ∈ (session.newCalls commands).map fun p => (p.1, Ledger.echoed p.2 p.1.id),
      q.1.purpose = .command ∧ Frame.carrying? q.1.id q.2.text = some q.2 := by
    refine List.forall_mem_map.mpr fun p mem => ?_
    have ⟨hp, hc, hid⟩ := h.simple_newCalls mem
    exact ⟨hp, Ledger.carrying?_echoed hc.portable hid⟩
  have hc : (session.issuing commands).link.connection.flushed.calls =
      session.link.connection.calls ++
        ((session.newCalls commands).map fun p => (p.1, Ledger.echoed p.2 p.1.id)).map (·.1) := by
    simp [hi, Connection.flushed, Function.comp_def]
  have hr := Connection.foldl_route_replies h.coherent_issuing hf hc
  simp only [List.map_map, Function.comp_def] at hr
  refine ⟨nextId, ?_⟩
  rw [h.settle_issuing, hr, hi]
  simp only [Connection.flushed, h.finished, h.outbound, List.nil_append,
    ← hs.accounts.coherent.pending]

end Receptive

theorem pairwise_newCalls (session : Session) (commands : List Fields) :
    (session.newCalls commands).Pairwise fun p q => p.1.ticket ≤ q.1.ticket := by
  have hr := List.pairwise_le_range' (s := session.link.tickets) (n := (commands.zipIdx
    session.link.connection.front).length)
  rw [← List.zipIdx_map_snd, List.pairwise_map] at hr
  rw [newCalls_eq, List.pairwise_map]
  exact hr

theorem ofCommand_newCalls (session : Session) (commands : List Fields) :
    (session.newCalls commands).map (fun p => Frame.ofCommand p.2 p.1.id) =
      (commands.zipIdx session.link.connection.front).map
        fun (command, id) => command.insert Frame.idField (.int id) := by
  have hf := List.zipIdx_map_fst session.link.tickets
    (commands.zipIdx session.link.connection.front)
  rw [newCalls_eq, List.map_map]
  nth_rewrite 2 [← hf]
  rw [List.map_map]
  rfl

-- What ended in the order of the tickets is shown as it ended.
theorem harvest_of_ordered (hr : session.refused = [])
    (hf : session.link.connection.finished.Pairwise (·.1 ≤ ·.1)) :
    session.harvest.1 =
      session.link.connection.finished.map fun (ticket, outcome) =>
        (ticket, outcome.mapError .link) := by
  have hs : session.link.connection.finished.mergeSort (·.1 ≤ ·.1) =
      session.link.connection.finished :=
    List.mergeSort_of_pairwise <| hf.imp decide_eq_true
  simp only [harvest, hr, Link.harvest, hs, List.map_nil, List.append_nil]
  refine List.mergeSort_of_pairwise <| List.pairwise_map.mpr <| hf.imp fun h => ?_
  exact decide_eq_true h

-- However many commands are issued at once on an open session whose server answers, each is answered
-- in the same step, under its own id and with itself as the result. The server has received these
-- commands and no others, in their order. The calls under way, the streams and the active streams
-- are as they were.
theorem requests_get_their_echoes (config : LinkConfig) (events : List Event)
    (commands : List Fields)
    (closed : ((start config).after events).link.connection.closed = false)
    (silent : ((start config).after events).ledger.silent = false)
    (timeout : ∀ limit ∈ config.timeout, limit.nanos ≠ 0)
    (room : ((start config).after events).link.connection.front + commands.length ≤
      Connection.idSpace)
    (portable : ∀ command ∈ commands, Portable 125 (.object command))
    (echoes : ∀ command ∈ commands, ((start config).after events).ledger.Echoes command) :
    let session  := (start config).after events
    let step     := session.burst commands
    let numbered := commands.zipIdx session.link.connection.front
    step.1.finished =
        (numbered.zipIdx session.link.tickets).map (fun ((command, id), ticket) =>
          (ticket, .replied [
            (Frame.idField, .int id),
            (Ledger.resultField, .object [("echo", .object (command.erase Frame.idField))]),
            (Frame.statusField, .string "success"),
            (Frame.typeField, .string "response")
          ])) ∧
      step.1.received =
        numbered.map (fun (command, id) => command.insert Frame.idField (.int id)) ∧
      step.2.ledger =
        { session.ledger with received := session.ledger.received ++ step.1.received } ∧
      step.2.link.connection.calls = session.link.connection.calls ∧
      step.2.link.connection.pending = session.link.connection.pending ∧
      step.2.link.connection.hub = session.link.connection.hub ∧
      step.2.link.connection.active = session.link.connection.active := by
  have h : ((start config).after events).Receptive config commands :=
    { (Settled.start config).run events with
      prompt := prompt_run (Settled.start config) (List.forall_mem_nil _) events
      closed, silent, timeout, room
      simple := fun command mem => ⟨portable command mem, echoes command mem⟩ }
  generalize (start config).after events = session at h
  have hs := h.settle_issuing
  have ⟨_, hc⟩ := h.connection_settle_issuing
  have hr : (session.issuing commands).settle.refused = [] := by
    rw [hs, issuing_eq]
    exact h.refused
  have hl : (session.issuing commands).settle.ledger = { session.ledger with
      received := session.ledger.received ++ (commands.zipIdx session.link.connection.front).map
        fun (command, id) => command.insert Frame.idField (.int id) } := by
    rw [hs, ← ofCommand_newCalls]
  have hd : (session.burst commands).1.received =
      (commands.zipIdx session.link.connection.front).map
        fun (command, id) => command.insert Frame.idField (.int id) := by
    simp only [burst, work, harvest, hl, List.drop_left]
  have hf : (session.burst commands).1.finished = (session.issuing commands).settle.harvest.1 := rfl
  refine ⟨?_, hd, hd.symm ▸ hl, ?_, ?_, ?_, ?_⟩
  case refine_1 =>
    have ho : (session.issuing commands).settle.link.connection.finished.Pairwise (·.1 ≤ ·.1) := by
      rw [hc, List.pairwise_map]
      exact pairwise_newCalls ..
    rw [hf, harvest_of_ordered hr ho, hc, newCalls_eq]
    simp only [List.map_map]
    rfl
  all_goals simp only [burst, work, harvest, Link.harvest, hc]

theorem requests_get_their_echoes_past_a_silence :
    let ping : Fields := [(Frame.commandField, .string "ping")]
    let own : Fields := [(Frame.idField, .int 1), (Frame.statusField, .string "error")]
    let session := (start {}).after [.setSilent true, .act (.issue ping 1), .setSilent false]
    session.link.connection.closed = false ∧ session.ledger.silent = false ∧
      session.link.connection.front + [ping, own].length ≤ Connection.idSpace ∧
      (session.burst [ping, own]).1.received = [
        [(Frame.commandField, .string "ping"), (Frame.idField, .int 2)],
        [(Frame.idField, .int 3), (Frame.statusField, .string "error")]
      ] ∧
      (session.burst [ping, own]).2.link.connection.pending = ⟨[(1, 0)]⟩ := by
  intro ping own session
  have closed : session.link.connection.closed = false := by decide +kernel
  have silent : session.ledger.silent = false := by decide +kernel
  have front : session.link.connection.front = 2 := by decide +kernel
  have results : session.ledger.results = [] := List.isEmpty_iff.mp (by decide +kernel)
  have pending : session.link.connection.pending = ⟨[(1, 0)]⟩ := by decide +kernel
  have room : session.link.connection.front + [ping, own].length ≤ Connection.idSpace := by
    rw [front]
    decide
  have portable : ∀ command ∈ [ping, own], Portable 125 (.object command) := by
    intro command mem
    simp only [List.mem_cons, List.not_mem_nil, or_false] at mem
    rcases mem with rfl | rfl
    case inl =>
      exact .object (List.pairwise_singleton ..) fun f mem => List.mem_singleton.mp mem ▸ .string _
    case inr =>
      refine .object (.of_keys ["id", "status"] rfl (by decide)) fun f mem => ?_
      simp only [own, List.mem_cons, List.not_mem_nil, or_false] at mem
      rcases mem with rfl | rfl
      case inl => exact .int (by decide) (by decide)
      case inr => exact .string _
  have echoes : ∀ command ∈ [ping, own], session.ledger.Echoes command := by
    intro command mem
    simp only [List.mem_cons, List.not_mem_nil, or_false] at mem
    rcases mem with rfl | rfl <;> exact ⟨by decide, by rw [results]; rfl⟩
  have h := requests_get_their_echoes {} _ [ping, own] closed silent (by rintro _ ⟨⟩; decide) room
    portable echoes
  refine ⟨closed, silent, room, ?_, h.right.right.right.right.left.trans pending⟩
  have hr := h.right.left
  rw [front] at hr
  exact hr

end Session
end LedgerWire
