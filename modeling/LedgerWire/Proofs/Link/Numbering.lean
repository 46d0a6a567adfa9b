import LedgerWire.Proofs.Link.Live

namespace LedgerWire

namespace Connection

variable {c : Connection} {first : Nat} {log : List Call}

-- The id that follows so many ids, if there is one.
def idAfter (first count : Nat) : Option Nat :=
  if first + count < idSpace then some (first + count) else none

theorem idAfter_eq_some {count id : Nat} :
    idAfter first count = some id ↔ first + count = id ∧ id < idSpace := by
  rw [idAfter, Option.ite_none_right_eq_some, Option.some_inj]
  exact ⟨fun ⟨hi, heq⟩ => ⟨heq, heq ▸ hi⟩, fun ⟨heq, hi⟩ => ⟨heq ▸ hi, heq⟩⟩

-- A connection that has handed out the ids in this log, and no others.
structure Numbered (first : Nat) (c : Connection) (log : List Call) : Prop where
  ids  : log.map (·.id) = List.range' first log.length
  room : first + log.length ≤ idSpace
  next : c.nextId = idAfter first log.length

namespace Numbered

-- Nothing else of a connection has a part in it.
theorem congr {c' : Connection} (h : c.Numbered first log) (hn : c'.nextId = c.nextId) :
    c'.Numbered first log :=
  { h with next := hn.trans h.next }

theorem expire (h : c.Numbered first log) (now : Nat) : (c.expire now).Numbered first log := by
  have ⟨_, _, _, he⟩ := c.expire_effect now
  exact h.congr (by rw [he])

theorem cancel (h : c.Numbered first log) (ticket : Nat) :
    (c.cancel ticket).2.Numbered first log := by
  have ⟨_, _, _, he⟩ := c.cancel_effect ticket
  exact h.congr (by rw [he])

theorem failRequest (h : c.Numbered first log) (id : Nat) (error : LinkError) :
    (c.failRequest id error).Numbered first log := by
  have ⟨_, _, _, he⟩ := c.failRequest_effect id error
  exact h.congr (by rw [he])

theorem shutDown (h : c.Numbered first log) : c.shutDown.Numbered first log := by
  have ⟨_, _, _, _, he⟩ := c.shutDown_effect
  exact h.congr (by rw [he])

theorem close (h : c.Numbered first log) : c.close.Numbered first log := by
  have ho : Numbered first { c with outbound := c.outbound ++ [.close] } log := h.congr rfl
  exact ho.shutDown

theorem route (h : c.Numbered first log) (text : String) : (c.route text).Numbered first log := by
  have ⟨_, _, _, _, _, he⟩ := c.route_effect text
  exact h.congr (by rw [he])

theorem dispatch {id : Nat} (h : c.Numbered first log) (ha : c.allocate? = .ok id)
    (ticket now : Nat) (request : Request) :
    (c.dispatch id ticket now request).Numbered first
      (log ++ [⟨ticket, id, request.purpose, request.limit, now⟩]) := by
  have ⟨heq, hi⟩ := idAfter_eq_some.mp <| h.next.symm.trans <| nextId_of_allocate? ha
  constructor
  case ids  => simp [h.ids, List.range'_1_concat, heq]
  case room => rw [List.length_append, List.length_singleton]; omega
  case next => simp [Connection.dispatch, idAfter, ← heq, Nat.add_assoc]

theorem call (h : c.Numbered first log) (ticket now : Nat) (request : Request) :
    (c.call ticket now request).Numbered first
      (log ++ (c.dispatch? ticket now request).toList) := by
  rw [Connection.call]
  cases ha : c.allocate?
  case ok id     => simpa [dispatch?, ha] using (h.dispatch ha ticket now request).expire now
  case error err =>
    have hr : Numbered first { c with finished := c.finished ++ [(ticket, .failed err)] } log :=
      h.congr rfl
    simpa [dispatch?, ha] using hr

theorem id_bounds (h : c.Numbered first log) {call : Call} (mem : call ∈ log) :
    first ≤ call.id ∧ call.id < first + log.length :=
  List.mem_range'_1.mp <| h.ids ▸ List.mem_map_of_mem mem

-- The calls under way are in the log, so the next id is beyond all of theirs.
theorem not_pending {tickets : Nat} {shown : List (Nat × Outcome LinkError)}
    (h : c.Numbered first log) (ha : c.Accounts tickets log shown) {id : Nat}
    (hi : first + log.length ≤ id) : ¬c.pending.contains id := by
  rw [ha.coherent.pending, Pending.contains_ofCalls, List.mem_map]
  intro ⟨call, mem, heq⟩
  rw [ha.calls, mem_underWay] at mem
  exact absurd (h.id_bounds mem.left).right (by omega)

theorem allocate?_eq {tickets : Nat} {shown : List (Nat × Outcome LinkError)}
    (h : c.Numbered first log) (ha : c.Accounts tickets log shown) (closed : c.closed = false) :
    c.allocate? =
      if first + log.length < idSpace then .ok (first + log.length) else .error .idsExhausted := by
  have hp := h.not_pending ha (Nat.le_refl _)
  simp only [allocate?, closed, h.next, idAfter]
  by_cases hi : first + log.length < idSpace
  case pos => simp [if_pos hi, hp]
  case neg => simp [if_neg hi]

end Numbered
end Connection

namespace Link

variable {link : Link} {first : Nat} {log : List Call}

def Numbered (first : Nat) (link : Link) (log : List Call) : Prop :=
  link.connection.Numbered first log

namespace Numbered

theorem start (config : LinkConfig) : (start config).Numbered config.firstId.toNat [] where
  ids  := rfl
  room := Nat.le_of_lt config.firstId.toNat_lt
  next := by
    have hi : config.firstId.toNat < Connection.idSpace := config.firstId.toNat_lt
    simp [Link.start, Connection.start, Connection.idAfter, hi]

theorem eventsKeep (first : Nat) : EventsKeep (fun c _ log => c.Numbered first log) where
  call _ ticket _ now request h := h.call ticket now request
  expire _ _ _ now h            := h.expire now
  cancel _ _ _ ticket h         := h.cancel ticket
  hub _ _ _ _ _ h               := h.congr rfl
  close _ _ _ h                 := h.close

theorem settle (h : link.Numbered first log) : link.settle.Numbered first log := by
  refine settle_keeps (P := (Connection.Numbered first · log)) ⟨?_, ?_⟩ ?_ (h.congr rfl)
  · exact fun c id error _ hc => hc.failRequest id error
  · exact fun c hc => hc.shutDown
  · exact fun c text hc => hc.route text

theorem step (h : link.Numbered first log) (event : Event) :
    (link.step event).2.Numbered first (log ++ link.dispatched (link.requests event)) := by
  have he := (eventsKeep first).onEvent log h event
  have hs : (link.onEvent event).2.settle.Numbered first _ := settle he
  exact hs.congr rfl

theorem run (h : link.Numbered first log) (events : List Event) :
    (link.after events).Numbered first (log ++ link.history events) := by
  induction events generalizing link log
  case nil => simpa [after, Link.run, history] using h
  case cons event events hi =>
    have := hi (h.step event)
    simpa [after, Link.run, history] using this

end Numbered

-- Requests are made in a row within a step. At each moment in such a row, the ids handed out so far
-- are consecutive, and all that are pending are among them. The next request of an open link gets
-- the id that follows, or fails, if there is none, and then nothing but its failure is new.
theorem ids_are_consecutive (config : LinkConfig) (events : List Event) (request : Request)
    (times : Nat) :
    let first := config.firstId.toNat
    let rest  := (start config).after events
    let link  := rest.callTimes request times
    let log   := (start config).history events ++ rest.dispatched (.replicate times request)
    log.map (·.id) = List.range' first log.length ∧ first + log.length ≤ Connection.idSpace ∧
      (log.map (·.id)).Nodup ∧
      link.connection.nextId = Connection.idAfter first log.length ∧
      (∀ id ∈ link.connection.pending.ids, id ∈ log.map (·.id) ∧ id < first + log.length) ∧
      (∀ id ∈ link.connection.nextId, ¬link.connection.pending.contains id) ∧
      (link.connection.closed = false → link.connection.allocate? =
        if first + log.length < Connection.idSpace then .ok (first + log.length)
        else .error .idsExhausted) ∧
      (link.connection.allocate? = .error .idsExhausted → ∀ next, link.call next = { link with
        connection := { link.connection with
          finished := link.connection.finished ++ [(link.tickets, .failed .idsExhausted)] }
        tickets := link.tickets + 1 }) := by
  have hn := (Numbered.eventsKeep _).callTimes (Numbered.start config |>.run events) request times
  have ha := (Accounts.eventsKeep _).callTimes (Accounts.start config |>.run events) request times
  simp only [List.nil_append] at hn ha
  refine ⟨hn.ids, hn.room, hn.ids ▸ List.nodup_range', hn.next, ?_, ?_, hn.allocate?_eq ha, ?_⟩
  case refine_1 =>
    intro id mem
    rw [ha.coherent.pending, Pending.ids_ofCalls, ha.calls] at mem
    obtain ⟨call, hc, rfl⟩ := List.mem_map.mp mem
    have hl := (mem_underWay.mp hc).left
    exact ⟨List.mem_map_of_mem hl, (hn.id_bounds hl).right⟩
  case refine_2 =>
    intro id mem
    have ⟨heq, _⟩ := Connection.idAfter_eq_some.mp <| hn.next.symm.trans mem
    exact hn.not_pending ha (Nat.le_of_eq heq)
  case refine_3 =>
    intro he next
    simp only [call, Connection.call, he]

end Link
end LedgerWire
