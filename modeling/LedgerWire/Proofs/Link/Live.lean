import LedgerWire.Proofs.Link.Closure

namespace LedgerWire

-- The text that an item puts on the wire.
def Outbound.text? : Outbound → Option String
  | frame _ text => some text
  | close        => none

-- The ends with these texts sent from the near to the far one.
def Duplex.sending (d : Duplex) (texts : List String) : Duplex :=
  { d with far := { d.far with inbox := d.far.inbox ++ texts } }

namespace Connection

variable {c : Connection} {config : LinkConfig} {tickets : Nat} {log : List Call}
variable {shown : List (Nat × Outcome LinkError)}

theorem outbound_route (c : Connection) (text : String) : (c.route text).outbound = c.outbound := by
  have ⟨_, _, _, _, _, h⟩ := c.route_effect text
  rw [h]

theorem nextId_of_allocate? {id : Nat} (h : c.allocate? = .ok id) : c.nextId = some id := by
  rw [allocate?] at h
  split at h
  case isTrue => cases h
  case isFalse =>
    split at h
    case h_1 => cases h
    case h_2 hn => split at h <;> cases h; exact hn

-- A connection whose accounts are in balance, whose next id is beyond all that are in use, and
-- which has nothing but frames to write until it closes.
structure Sound (config : LinkConfig) (c : Connection) (tickets : Nat) (log : List Call)
    (shown : List (Nat × Outcome LinkError)) : Prop where
  accounts : c.Accounts tickets log shown
  config   : c.config = config
  fresh    : ∀ next ∈ c.nextId, next < idSpace ∧ ∀ call ∈ c.calls, call.id < next
  frames   : c.closed = false → .close ∉ c.outbound

namespace Sound

theorem retire (h : c.Sound config tickets log shown)
    (verdict : Call → Option (Outcome LinkError)) :
    (c.retire verdict).Sound config tickets log shown where
  accounts := h.accounts.retire
  config   := h.config
  fresh    := fun next mem =>
    (h.fresh next mem).imp_right fun hf call hc => hf call (List.mem_of_mem_filter hc)
  frames   := h.frames

theorem expire (h : c.Sound config tickets log shown) (now : Nat) :
    (c.expire now).Sound config tickets log shown :=
  expire_eq h.accounts.coherent now ▸ h.retire _

theorem cancel (h : c.Sound config tickets log shown) (ticket : Nat) :
    (c.cancel ticket).2.Sound config tickets log shown :=
  cancel_eq h.accounts.coherent ticket ▸ h.retire _

theorem failRequest (h : c.Sound config tickets log shown) (id : Nat) (error : LinkError) :
    (c.failRequest id error).Sound config tickets log shown :=
  failRequest_eq h.accounts.coherent id error ▸ h.retire _

theorem of_outbound (h : c.Sound config tickets log shown) {outbound : List Outbound}
    (hf : c.closed = false → .close ∉ outbound) :
    Sound config { c with outbound } tickets log shown :=
  { h with accounts := h.accounts.of_outbound _, frames := hf }

theorem of_hub {hub : Stream.Hub} (h : c.Sound config tickets log shown)
    (hh : hub.closed = c.hub.closed) : Sound config { c with hub } tickets log shown :=
  { h with accounts := h.accounts.of_hub hh }

theorem shutDown (h : c.Sound config tickets log shown) :
    c.shutDown.Sound config tickets log shown := by
  have ha := h.accounts.shutDown
  rw [shutDown_eq h.accounts.coherent] at ha ⊢
  exact { h.retire fun _ => some (.failed .closed) with accounts := ha, frames := nofun }

-- Closing queues more than frames, but by then the connection has ended.
theorem close (h : c.Sound config tickets log shown) :
    c.close.Sound config tickets log shown := by
  have hs := Connection.shutDown_eq (c := { c with outbound := c.outbound ++ [.close] })
    (h.accounts.of_outbound _).coherent
  have ha := h.accounts.close
  rw [Connection.close] at ha ⊢
  rw [hs] at ha ⊢
  exact { h.retire fun _ => some (.failed .closed) with accounts := ha, frames := by simp }

theorem dispatch (h : c.Sound config tickets log shown) {id : Nat} (now : Nat) (request : Request)
    (ha : c.allocate? = .ok id) :
    (c.dispatch id tickets now request).Sound config (tickets + 1)
      (log ++ [⟨tickets, id, request.purpose, request.limit, now⟩]) shown where
  accounts := h.accounts.dispatch ha
  config   := h.config
  fresh    := by
    intro next mem
    simp only [Connection.dispatch, Option.mem_def, Option.ite_none_right_eq_some] at mem
    obtain ⟨hi, heq⟩ := mem
    cases heq
    refine ⟨hi, fun call hc => ?_⟩
    cases List.mem_append.mp hc
    case inl hc => exact Nat.lt_succ_of_lt <| (h.fresh id (nextId_of_allocate? ha)).right call hc
    case inr hc => cases List.mem_singleton.mp hc; exact Nat.lt_succ_self id
  frames   := by
    intro closed mem
    cases List.mem_append.mp mem
    case inl mem => exact h.frames closed mem
    case inr mem => cases List.mem_singleton.mp mem

theorem call (h : c.Sound config tickets log shown) (now : Nat) (request : Request) :
    (c.call tickets now request).Sound config (tickets + 1)
      (log ++ (c.dispatch? tickets now request).toList) shown := by
  rw [Connection.call]
  cases ha : c.allocate?
  case ok id     => simpa [dispatch?, ha] using (h.dispatch now request ha).expire now
  case error err =>
    have := h.accounts.refuse (.failed err)
    exact { h with accounts := by simpa [dispatch?, ha] using this }

theorem route (h : c.Sound config tickets log shown) (text : String) :
    (c.route text).Sound config tickets log shown := by
  have ha := h.accounts.route text
  obtain ⟨_, _, hr⟩ := route_eq h.accounts.coherent text
  rw [hr] at ha ⊢
  exact { h.retire _ with accounts := ha }

end Sound

-- While an id is left, an open connection has one for the next request.
theorem Sound.allocate? {id : Nat} (h : c.Sound config tickets log shown)
    (closed : c.closed = false) (hn : c.nextId = some id) : c.allocate? = .ok id := by
  have hi : ¬c.pending.contains id := by
    rw [h.accounts.coherent.pending, Pending.contains_ofCalls, List.mem_map]
    intro ⟨call, mem, heq⟩
    exact absurd ((h.fresh id hn).right call mem) (by simp [heq])
  simp [Connection.allocate?, closed, hn, hi]

end Connection

namespace Link

variable {link : Link} {config : LinkConfig} {log : List Call}
variable {shown : List (Nat × Outcome LinkError)}

def Sound (config : LinkConfig) (link : Link) (log : List Call)
    (shown : List (Nat × Outcome LinkError)) : Prop :=
  link.connection.Sound config link.tickets log shown

namespace Sound

theorem start (config : LinkConfig) : (start config).Sound config [] [] where
  accounts := Accounts.start config
  config   := rfl
  fresh    := fun next mem => by
    cases mem
    exact ⟨config.firstId.toNat_lt, List.forall_mem_nil _⟩
  frames   := nofun

theorem call (h : link.Sound config log shown) (request : Request) :
    (link.call request).Sound config
      (log ++ (link.connection.dispatch? link.tickets link.clock request).toList) shown :=
  Connection.Sound.call h link.clock request

-- A ticket that no call gets counts as one whose outcome was shown at once, whatever it was.
theorem skip (h : link.Sound config log shown) (hf : link.connection.finished = [])
    (outcome : Outcome LinkError) :
    Sound config { link with tickets := link.tickets + 1 } log
      (shown ++ [(link.tickets, outcome)]) := by
  have hr := h.accounts.refuse outcome
  simp only [hf, List.nil_append] at hr
  refine { h with accounts := ⟨h.accounts.coherent, hr.logged, ?_, ?_⟩ }
  case refine_1 => simpa [hf] using hr.calls
  case refine_2 => simpa [hf] using hr.tickets

theorem act (h : link.Sound config log shown) (action : Action) :
    (link.act action).2.Sound config
      (log ++ link.dispatched (link.requests (.act action))) shown := by
  refine EventsKeep.onEvent (P := (Connection.Sound config · · · shown)) ?_ log h (.act action)
  constructor
  case call   => exact fun c _ _ now request hc => hc.call now request
  case expire => exact fun c _ _ now hc => hc.expire now
  case cancel => exact fun c _ _ ticket hc => hc.cancel ticket
  case hub    => exact fun c _ _ hub hh hc => hc.of_hub hh
  case close  => exact fun c _ _ hc => hc.close

theorem settle (h : link.Sound config log shown) : link.settle.Sound config log shown := by
  rw [Sound, settle_tickets]
  refine settle_keeps (P := (Connection.Sound config · link.tickets log shown)) ⟨?_, ?_⟩ ?_
    (h.of_outbound nofun)
  · exact fun c id error _ hc => hc.failRequest id error
  · exact fun c hc => hc.shutDown
  · exact fun c text hc => hc.route text

theorem harvest (h : link.Sound config log shown) :
    link.harvest.2.Sound config log (shown ++ link.harvest.1) :=
  { h with accounts := Accounts.harvest h.accounts }

end Sound

theorem read_release (hr : link.reading) (hl : link.duplex.far.standing = .live) :
    link.read.release = link.drained := by
  rw [read_eq hr, if_pos hl]
  exact release_of_reading hr

-- What is queued on the link is sent, as far as it is up to the near end.
structure Writable (link : Link) : Prop where
  writing : link.writing
  near    : link.duplex.near.standing = .live

theorem Writable.send (h : link.Writable) (hd : link.duplex.far.standing ≠ .dropped)
    (hs : link.faults.sends = []) (text : String) :
    link.send text = (.ok (), { link with duplex := link.duplex.sending [text] }) := by
  have hc : link.duplex.canSend .near := by
    simpa [Duplex.canSend, Duplex.get, Side.other, h.near] using hd
  rw [Link.send, hs]
  simp only [Duplex.send?, if_pos hc]
  rfl

-- The near end can send, unless the far end is gone for good, and it hears from the far end.
structure Live (link : Link) : Prop where
  writing : link.writing
  reading : link.reading
  faults  : link.faults = ⟨[], [], []⟩
  near    : link.duplex.near.standing = .live
  far     : link.duplex.far.standing ≠ .dropped

namespace Live

theorem start (config : LinkConfig) : (start config).Live :=
  ⟨rfl, rfl, rfl, rfl, nofun⟩

theorem sending (h : link.Live) (texts : List String) :
    Live { link with duplex := link.duplex.sending texts } :=
  { h with }

theorem send (h : link.Live) (text : String) :
    link.send text = (.ok (), { link with duplex := link.duplex.sending [text] }) :=
  Writable.send ⟨h.writing, h.near⟩ h.far (by rw [h.faults]) text

theorem foldl_writeOne (h : link.Live) {items : List Outbound} (hf : .close ∉ items) :
    items.foldl writeOne link =
      { link with duplex := link.duplex.sending (items.filterMap Outbound.text?) } := by
  induction items generalizing link
  case nil => simp [Duplex.sending]
  case cons item items hi =>
    cases item
    case close => exact absurd (List.mem_cons_self ..) hf
    case frame id text =>
      have hw : link.writeOne (.frame id text) =
          { link with duplex := link.duplex.sending [text] } := by
        simp only [writeOne, if_pos h.writing, h.send]
      rw [List.foldl_cons, hw, hi (h.sending [text]) fun mem => hf (.tail _ mem)]
      simp [Outbound.text?, Duplex.sending]

-- All that is queued is sent, in its order.
theorem write (h : link.Live) (hf : .close ∉ link.connection.outbound) :
    link.write = { link with
      connection := link.connection.flushed
      duplex     := link.duplex.sending (link.connection.outbound.filterMap Outbound.text?) } :=
  @foldl_writeOne { link with connection := link.connection.flushed } { h with } _ hf

-- And all that has arrived is routed, if the far end has not closed.
theorem settle (h : link.Live) (hf : .close ∉ link.connection.outbound)
    (hl : link.duplex.far.standing = .live) :
    link.settle = { link with
      connection := link.duplex.near.inbox.foldl Connection.route link.connection.flushed
      duplex     := ⟨⟨[], .live⟩, ⟨link.duplex.far.inbox ++
        link.connection.outbound.filterMap Outbound.text?, .live⟩⟩ } := by
  rw [Link.settle, h.write hf, read_release (by exact h.reading) (by exact hl)]
  simp only [drained, Duplex.sending, h.near, hl, h.faults]

end Live

theorem settle_outbound (link : Link) : link.settle.connection.outbound = [] := by
  refine settle_keeps (P := (·.outbound = [])) ⟨?_, ?_⟩ (fun c text => ?_) rfl
  · intro c id error _ ho
    have ⟨_, _, _, h⟩ := c.failRequest_effect id error
    exact h ▸ ho
  · intro c ho
    have ⟨_, _, _, _, h⟩ := c.shutDown_effect
    exact h ▸ ho
  · exact (c.outbound_route text).trans

-- A link that is still open after its loops had their turn was open before, and its peer too.
theorem open_of_settle (h : link.settle.connection.closed = false) :
    link.connection.closed = false ∧ (link.reading → link.duplex.far.standing = .live) := by
  rw [settle, release_connection] at h
  have hw : link.write.connection.closed = false := by
    cases hw : link.write.connection.closed
    case false => rfl
    case true  => simp [closed_read_of_closed hw] at h
  constructor
  case left =>
    cases hc : link.connection.closed
    case false => rfl
    case true  => simp [(write_drained fun (_ : True) => hc).right trivial] at hw
  case right =>
    intro hr
    have u := Undisturbed.write link
    have hn := (closed_read hw).not.mp (by simp [h])
    rw [ended_drain, u.reading, u.peer] at hn
    simpa [hr] using hn

end Link
end LedgerWire
