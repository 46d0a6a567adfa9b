import LedgerWire.Proofs.Link.Replies

namespace LedgerWire

namespace Connection

variable {c : Connection} {p : Nat × Outcome LinkError}

-- What waits to be shown goes on waiting.
theorem mem_finished_failRequest (h : c.Coherent) (mem : p ∈ c.finished) (id : Nat)
    (error : LinkError) : p ∈ (c.failRequest id error).finished :=
  failRequest_eq h id error ▸ List.mem_append_left _ mem

theorem mem_finished_shutDown (h : c.Coherent) (mem : p ∈ c.finished) :
    p ∈ c.shutDown.finished :=
  shutDown_eq h ▸ List.mem_append_left _ mem

theorem mem_finished_route (h : c.Coherent) (mem : p ∈ c.finished) (text : String) :
    p ∈ (c.route text).finished := by
  have ⟨_, _, hr⟩ := route_eq h text
  exact hr ▸ List.mem_append_left _ mem

theorem closed_mem_shutDown (h : c.Coherent) {call : Call} (mem : call ∈ c.calls) :
    (call.ticket, .failed .closed) ∈ c.shutDown.finished := by
  rw [shutDown_eq h]
  exact mem_finished_retire.mpr <| .inr ⟨call, mem, _, rfl, rfl⟩

-- The request whose frame is refused fails with the refusal, all others with the end.
theorem closed_mem_failRequest (h : c.Coherent) {call : Call} (mem : call ∈ c.calls) (id : Nat) :
    (call.ticket, .failed .closed) ∈ (c.failRequest id .closed).shutDown.finished := by
  have hr := failRequest_eq h id .closed
  have hf : (c.failRequest id .closed).Coherent := hr ▸ h.retire
  by_cases hi : call.id = id
  case pos =>
    refine mem_finished_shutDown hf ?_
    rw [hr]
    exact mem_finished_retire.mpr <| .inr ⟨call, mem, _, if_pos hi, rfl⟩
  case neg =>
    refine closed_mem_shutDown hf ?_
    rw [hr]
    exact mem_calls_retire.mpr ⟨mem, if_neg hi⟩

theorem closed_shutDown (c : Connection) : c.shutDown.closed := by
  have ⟨_, _, _, _, h⟩ := c.shutDown_effect
  rw [h]

theorem closed_failRequest (c : Connection) (id : Nat) (error : LinkError) :
    (c.failRequest id error).closed = c.closed := by
  have ⟨_, _, _, h⟩ := c.failRequest_effect id error
  rw [h]

theorem closed_route (c : Connection) (text : String) : (c.route text).closed = c.closed := by
  have ⟨_, _, _, _, _, h⟩ := c.route_effect text
  rw [h]

end Connection

namespace Link

variable {link : Link} {event : Event} {calls : List Call}

-- The link with its queue taken out, at the moment when these items of it are written.
def written (link : Link) (items : List Outbound) : Link :=
  items.foldl writeOne { link with connection := link.connection.flushed }

-- The three ways in which a step closes a link, each with the calls in flight at that moment.
inductive Closes (link : Link) : Event → List Call → Prop
  | caller : Closes link (.act .close) link.connection.calls
  | refused {event : Event} {before after : List Outbound} {id : Nat} {text : String} :
    (link.onEvent event).2.connection.outbound = before ++ .frame id text :: after →
    ((link.onEvent event).2.written before).writing →
    (((link.onEvent event).2.written before).send text).1 = .error .closed →
    Closes link event ((link.onEvent event).2.written before).connection.calls
  | ended {event : Event} :
    (link.onEvent event).2.write.reading →
    ((link.onEvent event).2.write.duplex.drain .near).2.ended .near →
    Closes link event (link.onEvent event).2.write.drained.connection.calls

theorem closed_callTimes (link : Link) (request : Request) (times : Nat) :
    (link.callTimes request times).connection.closed = link.connection.closed := by
  induction times generalizing link
  case zero => rfl
  case succ times hi =>
    have ⟨_, _, _, _, _, h⟩ := link.connection.call_effect link.tickets link.clock request
    rw [callTimes, hi, call, h]

-- An event that makes requests does nothing else.
theorem onEvent_of_requests (h : link.requests event ≠ []) : ∃ request times,
    link.requests event = .replicate times request ∧
      link.onEvent event = (.nothing, link.callTimes request times) := by
  cases event
  case act action =>
    cases action
    case issue command times         => exact ⟨_, times, rfl, rfl⟩
    case issueWithin command limit   => exact ⟨_, 1, rfl, rfl⟩
    case subscribe names             => exact ⟨_, 1, rfl, rfl⟩
    case unsubscribe names           => exact ⟨_, 1, rfl, rfl⟩
    all_goals contradiction
  all_goals contradiction

-- An event that makes no request queues nothing, unless the caller closes the link.
theorem onEvent_of_no_request (h : link.requests event = []) (he : event ≠ .act .close) :
    ∃ pending calls finished hub,
      (link.onEvent event).2.connection =
        { link.connection with pending, calls, finished, hub } := by
  have hw := link.onEvent_effect event
  cases event
  case act action =>
    cases action
    case issue command times =>
      cases (List.replicate_eq_nil_iff _).mp h
      exact ⟨_, _, _, _, rfl⟩
    case cancel ticket =>
      have ⟨_, _, _, h⟩ := link.connection.cancel_effect ticket
      exact ⟨_, _, _, _, h⟩
    case advance ms =>
      have ⟨_, _, _, h⟩ := link.connection.expire_effect (link.clock + ms)
      exact ⟨_, _, _, _, h⟩
    case read kind most =>
      rw [onEvent, act]
      split <;> exact ⟨_, _, _, _, rfl⟩
    case take         => exact ⟨_, _, _, _, rfl⟩
    case dropConsumer => exact ⟨_, _, _, _, rfl⟩
    all_goals contradiction
  all_goals
    obtain ⟨_, _, hw⟩ := hw (by simp)
    rw [hw]
    exact ⟨_, _, _, _, rfl⟩

theorem closed_onEvent_of_ne (he : event ≠ .act .close) :
    (link.onEvent event).2.connection.closed = link.connection.closed := by
  by_cases hn : link.requests event = []
  case pos =>
    have ⟨_, _, _, _, h⟩ := onEvent_of_no_request hn he
    rw [h]
  case neg =>
    have ⟨_, _, _, h⟩ := onEvent_of_requests hn
    rw [h, closed_callTimes]

theorem closed_writeOne (h : link.connection.closed = false) (item : Outbound) :
    (link.writeOne item).connection.closed ↔
      ∃ id text, item = .frame id text ∧ link.writing ∧ (link.send text).1 = .error .closed := by
  unfold writeOne
  split
  case isFalse hw => simp [h, hw]
  case isTrue hw =>
    cases item
    case close => simp [closeWire_connection, h]
    case frame id text =>
      have hc := link.send_connection text
      rcases he : link.send text with ⟨error | _, link'⟩
      all_goals simp only [he] at hc ⊢
      case ok => simp [hc, h, he]
      case error =>
        rw [writeFailed]
        split
        case isTrue hf => simp [Connection.closed_shutDown, hw, he, hf]
        case isFalse hf => simp [Connection.closed_failRequest, hc, h, he, hf]

theorem closed_foldl_of_closed (h : link.connection.closed) (items : List Outbound) :
    (items.foldl writeOne link).connection.closed := by
  refine (WritesKeep.foldl (P := fun c => c.closed) ⟨?_, ?_⟩ items h (.refl _)).left
  · exact fun c id error _ hc => (c.closed_failRequest id error).trans hc
  · exact fun c _ => c.closed_shutDown

-- What closes the connection is the one frame that is refused as closed while the loop runs.
theorem closed_foldl_writeOne (h : link.connection.closed = false) (items : List Outbound) :
    (items.foldl writeOne link).connection.closed ↔
      ∃ before after id text, items = before ++ .frame id text :: after ∧
        (before.foldl writeOne link).writing ∧
        ((before.foldl writeOne link).send text).1 = .error .closed := by
  induction items generalizing link
  case nil => simp [h]
  case cons item items hi =>
    have hs := closed_writeOne h item
    rw [List.foldl_cons]
    cases hc : (link.writeOne item).connection.closed
    case true =>
      obtain ⟨id, text, rfl, hw⟩ := hs.mp hc
      exact iff_of_true (closed_foldl_of_closed hc items) ⟨[], items, id, text, rfl, hw⟩
    case false =>
      rw [hi hc]
      constructor
      case mp =>
        intro ⟨before, after, id, text, heq, hw⟩
        exact ⟨item :: before, after, id, text, by rw [heq, List.cons_append], hw⟩
      case mpr =>
        intro ⟨before, after, id, text, heq, hw⟩
        cases before
        case nil =>
          cases heq
          exact absurd (hs.mpr ⟨id, text, rfl, hw⟩) (by simp [hc])
        case cons first before =>
          obtain ⟨rfl, rfl⟩ := List.cons.inj heq
          exact ⟨before, after, id, text, rfl, hw⟩

theorem closed_write (h : link.connection.closed = false) :
    link.write.connection.closed ↔
      ∃ before after id text, link.connection.outbound = before ++ .frame id text :: after ∧
        (link.written before).writing ∧ ((link.written before).send text).1 = .error .closed :=
  @closed_foldl_writeOne { link with connection := link.connection.flushed } h _

theorem closed_read (h : link.connection.closed = false) :
    link.read.connection.closed ↔ link.reading ∧ (link.duplex.drain .near).2.ended .near := by
  rw [ended_drain]
  cases hr : link.reading
  case false => simp [read_of_not_reading hr, h]
  case true =>
    rw [read_eq hr]
    split
    case isTrue hl =>
      have hd : link.drained.connection.closed = false :=
        foldl_route_keeps (fun c text => (c.closed_route text).trans) _ h
      simp [hd, hl]
    case isFalse hl => simp [Connection.closed_shutDown, hl]

theorem closed_read_of_closed (h : link.connection.closed) : link.read.connection.closed := by
  refine read_keeps (P := fun c => c.closed) ?_ ?_ h
  · exact fun c text => (c.closed_route text).trans
  · exact fun c _ => c.closed_shutDown

theorem step_connection (link : Link) (event : Event) :
    (link.step event).2.connection =
      { (link.onEvent event).2.write.read.connection with finished := [] } := by
  simp only [step, work, harvest, collect, settle, release_connection]

-- From an open link, a step closes it in one of the three ways, and each of the three closes it.
theorem closed_step (h : link.connection.closed = false) :
    (link.step event).2.connection.closed ↔ ∃ calls, link.Closes event calls := by
  rw [step_connection]
  by_cases he : event = .act .close
  case pos =>
    subst he
    have hc : (link.onEvent (.act .close)).2.connection.closed := Connection.closed_shutDown _
    have hw := (write_drained fun (_ : True) => hc).right trivial
    exact iff_of_true (closed_read_of_closed hw) ⟨_, .caller⟩
  case neg =>
    have ho := (closed_onEvent_of_ne he).trans h
    cases hw : (link.onEvent event).2.write.connection.closed
    case true =>
      obtain ⟨before, after, id, text, hb, hs⟩ := (closed_write ho).mp hw
      exact iff_of_true (closed_read_of_closed hw) ⟨_, .refused hb hs.left hs.right⟩
    case false =>
      refine (closed_read hw).trans ⟨fun ⟨hr, hd⟩ => ⟨_, .ended hr hd⟩, ?_⟩
      intro ⟨_, hcl⟩
      cases hcl
      case caller => contradiction
      case refused hb hs hf =>
        exact absurd ((closed_write ho).mpr ⟨_, _, _, _, hb, hs, hf⟩) (by simp [hw])
      case ended hr hd => exact ⟨hr, hd⟩

section

variable {tickets : Nat} {log : List Call} {shown : List (Nat × Outcome LinkError)}
variable {p : Nat × Outcome LinkError}

theorem foldl_writeOne_accounts (h : link.connection.Accounts tickets log shown)
    (items : List Outbound) :
    (items.foldl writeOne link).connection.Accounts tickets log shown :=
  have k : WritesKeep (Connection.Accounts · tickets log shown) link.faults.sends :=
    ⟨fun _ id error _ hc => hc.failRequest id error, fun _ hc => hc.shutDown⟩
  (k.foldl items h (.refl _)).left

theorem written_accounts (h : link.connection.Accounts tickets log shown) (items : List Outbound) :
    (link.written items).connection.Accounts tickets log shown :=
  foldl_writeOne_accounts (h.of_outbound []) items

theorem drained_accounts (h : link.connection.Accounts tickets log shown) :
    link.drained.connection.Accounts tickets log shown :=
  foldl_route_keeps (P := (Connection.Accounts · tickets log shown))
    (fun _ text hc => hc.route text) _ h

-- The loops keep what waits to be shown.
theorem mem_finished_foldl_writeOne (h : link.connection.Accounts tickets log shown)
    (mem : p ∈ link.connection.finished) (items : List Outbound) :
    p ∈ (items.foldl writeOne link).connection.finished := by
  refine (WritesKeep.foldl (P := fun c => c.Accounts tickets log shown ∧ p ∈ c.finished) ⟨?_, ?_⟩
    items ⟨h, mem⟩ (.refl _)).left.right
  · exact fun c id error _ hc => ⟨hc.left.failRequest id error,
      Connection.mem_finished_failRequest hc.left.coherent hc.right id error⟩
  · exact fun c hc => ⟨hc.left.shutDown,
      Connection.mem_finished_shutDown hc.left.coherent hc.right⟩

theorem mem_finished_read (h : link.connection.Accounts tickets log shown)
    (mem : p ∈ link.connection.finished) : p ∈ link.read.connection.finished := by
  refine (read_keeps (P := fun c => c.Accounts tickets log shown ∧ p ∈ c.finished) ?_ ?_
    ⟨h, mem⟩).right
  · exact fun c text hc => ⟨hc.left.route text,
      Connection.mem_finished_route hc.left.coherent hc.right text⟩
  · exact fun c hc => ⟨hc.left.shutDown,
      Connection.mem_finished_shutDown hc.left.coherent hc.right⟩

theorem writeOne_refused {text : String} (hw : link.writing)
    (hs : (link.send text).1 = .error .closed) (id : Nat) :
    (link.writeOne (.frame id text)).connection =
      (link.connection.failRequest id .closed).shutDown := by
  have hc := link.send_connection text
  rcases he : link.send text with ⟨error | _, link'⟩
  all_goals simp only [he] at hc hs
  case error =>
    cases hs
    simp only [writeOne, if_pos hw, he, writeFailed, if_pos, hc]
  case ok => cases hs

theorem read_ended (hr : link.reading) (hd : (link.duplex.drain .near).2.ended .near) :
    link.read.connection = link.drained.connection.shutDown := by
  rw [ended_drain, decide_eq_true_eq] at hd
  rw [read_eq hr, if_neg hd]

-- The calls in flight when a link closes are shown as closed in the same step.
theorem Closes.finished (hc : link.Closes event calls) (h : link.Accounts log shown) {call : Call}
    (mem : call ∈ calls) : (call.ticket, .failed .closed) ∈ (link.step event).1.finished := by
  have ha := h.onEvent event
  generalize log ++ link.dispatched (link.requests event) = log at ha
  have hw : (link.onEvent event).2.write.connection.Accounts _ log shown := written_accounts ha _
  rw [mem_step_finished, settle, release_connection]
  cases hc
  case caller =>
    have ho := (h.of_outbound (link.connection.outbound ++ [.close])).coherent
    refine mem_finished_read hw <| mem_finished_foldl_writeOne (ha.of_outbound []) ?_ _
    exact Connection.closed_mem_shutDown ho mem
  case refused before after id text hb hs hf =>
    have hp := (written_accounts ha before).coherent
    have hr := writeOne_refused hs hf id
    have hi : ((link.onEvent event).2.written (before ++ [.frame id text])).connection.Accounts
      (link.onEvent event).2.tickets log shown := written_accounts ha _
    refine mem_finished_read hw ?_
    rw [write, hb, List.foldl_append, List.foldl_cons]
    simp only [written, List.foldl_append, List.foldl_cons, List.foldl_nil] at hi
    refine mem_finished_foldl_writeOne hi ?_ after
    exact hr ▸ Connection.closed_mem_failRequest hp mem id
  case ended hr hd =>
    exact read_ended hr hd ▸ Connection.closed_mem_shutDown (drained_accounts hw).coherent mem

end

-- Only the peer can change what it still sends.
theorem onEvent_far_standing (hc : event ≠ .peerClose) (hd : event ≠ .peerDrop) :
    (link.onEvent event).2.duplex.far.standing = link.duplex.far.standing := by
  cases event
  case act action =>
    have ⟨_, _, _, h⟩ := link.act_effect action
    rw [onEvent, h]
  case peerSend text =>
    rw [onEvent]
    split
    case isFalse => rfl
    case isTrue =>
      split
      case h_2 => rfl
      case h_1 duplex hs =>
        rw [Duplex.send?] at hs
        split at hs <;> cases hs
        rfl
  case peerClose => contradiction
  case peerDrop  => contradiction
  all_goals rfl

-- What closes a settled link is the caller, the peer that goes away, or a frame of the very event
-- that is refused. No text that arrives, no time that passes, and no other fault does.
theorem Closes.cause (hc : link.Closes event calls) (h : link.Settled) :
    event = .act .close ∨ event = .peerClose ∨ event = .peerDrop ∨ link.requests event ≠ [] := by
  cases hc
  case caller => exact .inl rfl
  case refused before after id text hb _ _ =>
    by_cases he : event = .act .close
    case pos => exact .inl he
    case neg =>
      refine .inr <| .inr <| .inr fun hn => ?_
      have ⟨_, _, _, _, ho⟩ := onEvent_of_no_request hn he
      simp [ho, h.outbound] at hb
  case ended hr hd =>
    by_contra hn
    simp only [not_or] at hn
    have u := Undisturbed.write (link.onEvent event).2
    rw [ended_drain, decide_eq_true_eq, u.peer, onEvent_far_standing hn.2.1 hn.2.2.1] at hd
    refine hd <| h.peer ?_
    rw [← (Nearby.onEvent link event).reading, ← u.reading, hr]

end Link
end LedgerWire
