import LedgerWire.Proofs.Link.Accounts
import LedgerWire.Proofs.Link.Effects

namespace LedgerWire.Link

variable {link : Link}

-- The requests that an event makes, in the order in which they are made.
def requests (link : Link) : Event → List Request
  | .act (.issue command times)        => List.replicate times ⟨command, link.limit, .command⟩
  | .act (.issueWithin command limit)  => [⟨command, some limit, .command⟩]
  | .act (.subscribe names)            => [.subscribe names link.limit]
  | .act (.unsubscribe names)          => [.unsubscribe names link.limit]
  | _                                  => []

-- The calls that requests set out as. Each meets the link that those before it have left.
def dispatched (link : Link) : List Request → List Call
  | [] => []
  | request :: requests =>
    (link.connection.dispatch? link.tickets link.clock request).toList ++
      (link.call request).dispatched requests

-- The calls dispatched in the course of a run.
def history (link : Link) : List Event → List Call
  | [] => []
  | event :: events =>
    link.dispatched (link.requests event) ++ (link.step event).2.history events

-- The outcomes shown in the course of a run, by ticket.
def endings (link : Link) (events : List Event) : List (Nat × Outcome LinkError) :=
  (link.run events).1.flatMap (·.finished)

-- The link at the end of a run.
def after (link : Link) (events : List Event) : Link :=
  (link.run events).2

-- What an event does to a connection before the loops see it. `P` may also speak about the tickets
-- handed out and the calls dispatched so far.
structure EventsKeep (P : Connection → Nat → List Call → Prop) : Prop where
  call   : ∀ c n log now request, P c n log →
    P (c.call n now request) (n + 1) (log ++ (c.dispatch? n now request).toList)
  expire : ∀ c n log now, P c n log → P (c.expire now) n log
  cancel : ∀ c n log ticket, P c n log → P (c.cancel ticket).2 n log
  hub    : ∀ c n log (hub : Stream.Hub), hub.closed = c.hub.closed → P c n log →
    P { c with hub } n log
  close  : ∀ c n log, P c n log → P c.close n log

namespace EventsKeep

variable {P : Connection → Nat → List Call → Prop} {log : List Call}

theorem call_dispatched (k : EventsKeep P) (h : P link.connection link.tickets log)
    (request : Request) :
    P (link.call request).connection (link.call request).tickets
      (log ++ link.dispatched [request]) := by
  rw [dispatched, dispatched, List.append_nil]
  exact k.call _ _ _ link.clock request h

theorem callTimes (k : EventsKeep P) (h : P link.connection link.tickets log) (request : Request)
    (times : Nat) :
    P (link.callTimes request times).connection (link.callTimes request times).tickets
      (log ++ link.dispatched (List.replicate times request)) := by
  induction times generalizing link log
  case zero => simpa [Link.callTimes, dispatched] using h
  case succ times hi =>
    have := hi (k.call_dispatched h request)
    simpa [Link.callTimes, List.replicate_succ, dispatched] using this

theorem onEvent (k : EventsKeep P) (log : List Call) (h : P link.connection link.tickets log)
    (event : Event) :
    P (link.onEvent event).2.connection (link.onEvent event).2.tickets
      (log ++ link.dispatched (link.requests event)) := by
  have he := link.onEvent_effect event
  cases event
  case act action =>
    cases action
    case issue command times      => exact k.callTimes h _ times
    case issueWithin command time => exact k.call_dispatched h _
    case subscribe names          => exact k.call_dispatched h _
    case unsubscribe names        => exact k.call_dispatched h _
    all_goals simp only [requests, dispatched, List.append_nil]
    case cancel ticket     => exact k.cancel _ _ _ ticket h
    case advance ms        => exact k.expire _ _ _ _ h
    case take kind         => exact k.hub _ _ _ _ (link.connection.hub.closed_take kind) h
    case dropConsumer kind => exact k.hub _ _ _ _ (link.connection.hub.closed_dropConsumer kind) h
    case close             => exact k.close _ _ _ h
    case read kind most    =>
      simp only [Link.onEvent, act]
      split
      case isTrue  => exact k.hub _ _ _ _ (link.connection.hub.closed_read kind most) h
      case isFalse => exact h
  all_goals
    obtain ⟨_, _, he⟩ := he (by simp)
    simpa only [he, requests, dispatched, List.append_nil] using h

end EventsKeep

-- What an error of a write can be: one that is in store, or that the wire is closed.
def Unwritten (faults : List LinkError) (error : LinkError) : Prop :=
  error = .closed ∨ error ∈ faults

theorem Unwritten.mono {faults faults' : List LinkError} {error : LinkError}
    (h : Unwritten faults error) (hf : faults ⊆ faults') : Unwritten faults' error :=
  h.imp_right (hf ·)

theorem send_connection (link : Link) (text : String) :
    (link.send text).2.connection = link.connection := by
  have ⟨_, _, h⟩ := link.send_effect text
  rw [h]

theorem send_faults (link : Link) (text : String) :
    (link.send text).2.faults.sends ⊆ link.faults.sends := by
  rw [send]
  split
  case h_1 hs => simp [hs]
  case h_2 => split <;> simp

theorem send_error {text : String} {error : LinkError} {link' : Link}
    (h : link.send text = (.error error, link')) : Unwritten link.faults.sends error := by
  rw [send] at h
  split at h
  case h_1 hs => cases h; exact .inr (by simp [hs])
  case h_2 => split at h <;> cases h; exact .inl rfl

theorem closeWire_connection (link : Link) : link.closeWire.2.connection = link.connection := by
  have ⟨_, _, h⟩ := link.closeWire_effect
  rw [h]

theorem closeWire_sends (link : Link) : link.closeWire.2.faults.sends = link.faults.sends := by
  have ⟨_, _, h⟩ := link.closeWire_effect
  rw [h]

-- What the loop that writes does to a connection is to fail requests and to end it.
structure WritesKeep (P : Connection → Prop) (faults : List LinkError) : Prop where
  fail  : ∀ c id error, Unwritten faults error → P c → P (c.failRequest id error)
  close : ∀ c, P c → P c.shutDown

namespace WritesKeep

variable {P : Connection → Prop} {faults : List LinkError}

theorem writeOne (k : WritesKeep P faults) (h : P link.connection)
    (hf : link.faults.sends ⊆ faults) (item : Outbound) :
    P (link.writeOne item).connection ∧ (link.writeOne item).faults.sends ⊆ faults := by
  unfold Link.writeOne
  split
  case isFalse => exact ⟨h, hf⟩
  case isTrue =>
    cases item
    case close => exact ⟨link.closeWire_connection ▸ h, link.closeWire_sends ▸ hf⟩
    case frame id text =>
      have hc := link.send_connection text
      have hs := List.Subset.trans (link.send_faults text) hf
      rcases he : link.send text with ⟨error | _, link'⟩
      all_goals simp only [he] at hc hs ⊢
      case ok => exact ⟨hc ▸ h, hs⟩
      case error =>
        have hp := k.fail link'.connection id error (send_error he |>.mono hf) (hc ▸ h)
        rw [writeFailed]
        split
        case isTrue => exact ⟨k.close _ hp, hs⟩
        case isFalse => exact ⟨hp, hs⟩

theorem foldl (k : WritesKeep P faults) (items : List Outbound) (h : P link.connection)
    (hf : link.faults.sends ⊆ faults) :
    P (items.foldl Link.writeOne link).connection ∧
      (items.foldl Link.writeOne link).faults.sends ⊆ faults := by
  -- The faults in store only get fewer, so an error of any item was in store at the start.
  induction items generalizing link
  case nil => exact ⟨h, hf⟩
  case cons item items hi =>
    have ⟨h, hf⟩ := k.writeOne h hf item
    exact hi h hf

theorem write (k : WritesKeep P link.faults.sends) (h : P link.connection.flushed) :
    P link.write.connection :=
  And.left <| k.foldl link.connection.outbound h (List.Subset.refl _)

end WritesKeep

-- After everything that arrived is routed, the end has come unless the peer may still send.
def drained (link : Link) : Link :=
  { link with
    connection := link.duplex.near.inbox.foldl Connection.route link.connection
    duplex     := { link.duplex with near := { link.duplex.near with inbox := [] } }
    faults     := { link.faults with receives := [] } }

-- Nothing is left in the inbox, so the end has come if the peer does not send any more.
theorem ended_drain (link : Link) : (link.duplex.drain .near).2.ended .near =
    decide (link.duplex.far.standing ≠ .live) := by
  simp [Duplex.ended, Duplex.drain, Duplex.get, Duplex.set, Side.other]

-- A receive that fails takes nothing with it but itself.
theorem foldl_receive (c : Connection) (errors : List LinkError) (texts : List String) :
    (errors.map Except.error ++ texts.map Except.ok).foldl Connection.receive c =
      texts.foldl Connection.route c := by
  induction errors
  case nil => rw [List.map_nil, List.nil_append, List.foldl_map]; rfl
  case cons error errors hi => exact hi

theorem read_eq (hr : link.reading) :
    link.read =
      if link.duplex.far.standing = .live then link.drained
      else { link.drained with
        connection := link.drained.connection.shutDown, reading := false } := by
  unfold read receive
  simp only [if_pos hr, ended_drain, decide_eq_true_eq, ite_not, foldl_receive]
  rfl

theorem read_of_not_reading (hr : link.reading = false) : link.read = link := by
  simp [read, hr]

theorem foldl_route_keeps {P : Connection → Prop} (route : ∀ c text, P c → P (c.route text))
    (texts : List String) {c : Connection} (h : P c) : P (texts.foldl Connection.route c) := by
  induction texts generalizing c
  case nil => exact h
  case cons text texts hi => exact hi <| route c text h

theorem read_keeps {P : Connection → Prop} (route : ∀ c text, P c → P (c.route text))
    (close : ∀ c, P c → P c.shutDown) (h : P link.connection) : P link.read.connection := by
  cases hr : link.reading
  case false => rwa [read_of_not_reading hr]
  case true =>
    rw [read_eq hr]
    split
    case isTrue  => exact foldl_route_keeps route _ h
    case isFalse => exact close _ <| foldl_route_keeps route _ h

theorem read_tickets (link : Link) : link.read.tickets = link.tickets := by
  cases hr : link.reading
  case false => rw [read_of_not_reading hr]
  case true  => rw [read_eq hr]; split <;> rfl

theorem release_tickets (link : Link) : link.release.tickets = link.tickets := by
  rw [release]
  split <;> rfl

theorem settle_tickets (link : Link) : link.settle.tickets = link.tickets :=
  (release_tickets _).trans <| (read_tickets _).trans (Undisturbed.write link).tickets

-- After the loop that writes no faults are used up but those of receives.
theorem settle_faults (link : Link) : ∃ receives,
    link.settle.faults = { link.write.faults with receives } := by
  have hs : link.settle.faults = link.write.read.faults := by
    rw [settle, release]
    split <;> rfl
  rw [hs]
  cases hr : link.write.reading
  case false => rw [read_of_not_reading hr]; exact ⟨_, rfl⟩
  case true  => rw [read_eq hr]; split <;> exact ⟨_, rfl⟩

theorem release_connection (link : Link) : link.release.connection = link.connection := by
  rw [release]
  split <;> rfl

-- What both loops keep, a link keeps that works until nothing is left to do.
theorem settle_keeps {P : Connection → Prop} (k : WritesKeep P link.faults.sends)
    (route : ∀ c text, P c → P (c.route text)) (h : P link.connection.flushed) :
    P link.settle.connection := by
  rw [settle, release_connection]
  exact read_keeps route k.close <| k.write h

variable {log : List Call} {shown : List (Nat × Outcome LinkError)}

def Accounts (link : Link) (log : List Call) (shown : List (Nat × Outcome LinkError)) : Prop :=
  link.connection.Accounts link.tickets log shown

namespace Accounts

theorem start (config : LinkConfig) : (start config).Accounts [] [] where
  coherent := ⟨rfl, .nil, .nil, fun _ => rfl, rfl⟩
  logged   := .slnil
  calls    := rfl
  tickets  := .nil

theorem eventsKeep (shown : List (Nat × Outcome LinkError)) :
    EventsKeep (fun c tickets log => c.Accounts tickets log shown) where
  call _ _ _ now request h := h.call now request
  expire _ _ _ now h       := h.expire now
  cancel _ _ _ ticket h    := h.cancel ticket
  hub _ _ _ _ hh h         := h.of_hub hh
  close _ _ _ h            := h.close

theorem onEvent (h : link.Accounts log shown) (event : Event) :
    (link.onEvent event).2.Accounts (log ++ link.dispatched (link.requests event)) shown :=
  (eventsKeep shown).onEvent log h event

-- The loops hand out no tickets and dispatch no calls, so only the connection changes.
theorem settle (h : link.Accounts log shown) : link.settle.Accounts log shown := by
  rw [Accounts, settle_tickets]
  refine settle_keeps (P := (Connection.Accounts · link.tickets log shown)) ⟨?_, ?_⟩ ?_
    (h.of_outbound [])
  · exact fun c id error _ hc => hc.failRequest id error
  · exact fun c hc => hc.shutDown
  · exact fun c text hc => hc.route text

-- Outcomes are shown in the order of their tickets, which is a permutation of how they came about.
theorem harvest (h : link.Accounts log shown) :
    link.harvest.2.Accounts log (shown ++ link.harvest.1) := by
  have hp : (shown ++ link.harvest.1 ++ []).Perm (shown ++ link.connection.finished) := by
    simpa [Link.harvest] using (List.mergeSort_perm ..).append_left shown
  exact {
    coherent := { h.coherent with }
    logged   := h.logged
    calls    := h.calls.trans <| underWay_perm log hp.symm
    tickets  := ((hp.map _).append_right _).trans h.tickets
  }

theorem step (h : link.Accounts log shown) (event : Event) :
    (link.step event).2.Accounts (log ++ link.dispatched (link.requests event))
      (shown ++ (link.step event).1.finished) :=
  (h.onEvent event).settle.harvest

theorem run (h : link.Accounts log shown) (events : List Event) :
    (link.after events).Accounts (log ++ link.history events) (shown ++ link.endings events) := by
  induction events generalizing link log shown
  case nil => simpa [after, Link.run, history, endings] using h
  case cons event events hi =>
    have := hi (h.step event)
    simpa [after, Link.run, history, endings] using this

end Accounts
end LedgerWire.Link
