import LedgerWire.Proofs.Link.Wire

namespace LedgerWire.Link

variable {link : Link} {config : LinkConfig} {log : List Call} {events : List Event}
variable {shown : List (Nat × Outcome LinkError)}

theorem Settled.reading_of_open (h : link.Settled) (hc : link.connection.closed = false) :
    link.reading := by
  by_contra hr
  exact Bool.eq_false_iff.mp hc <| h.closed <| Bool.eq_false_iff.mpr hr

theorem Settled.turn (h : link.Settled) (events : List Event) : (link.turn events).2.2.Settled := by
  have hr := link.burst_reading events
  have hs := settle_settled (fun h' => link.burst_near events ▸ h.present (hr ▸ h'))
    (fun h' => closed_burst (h.closed (hr ▸ h')) events)
  exact ⟨rfl, hs.outbound, hs.inbox, hs.receives, hs.peer, hs.present, hs.closed⟩

theorem Accounts.turn (h : link.Accounts log shown) (events : List Event) :
    ∃ shown, (link.turn events).2.2.Accounts (log ++ link.made events) shown := by
  have hb : (link.burst events).Accounts (log ++ link.made events) shown :=
    (eventsKeep shown).burst h events
  exact ⟨_, hb.settle.harvest⟩

namespace Writable

-- A frame ends the loop that writes only together with the connection.
theorem writeOne (h : link.Writable) {item : Outbound} (hc : item ≠ .close)
    (ho : (link.writeOne item).connection.closed = false) : (link.writeOne item).Writable := by
  unfold Link.writeOne at ho ⊢
  rw [if_pos h.writing] at ho ⊢
  cases item
  case close => contradiction
  case frame id text =>
    have hs := (link.send_writing text).trans h.writing
    have hn := (link.send_standing text).trans h.near
    rcases he : link.send text with ⟨error | _, link'⟩
    all_goals simp only [he] at hs hn ho ⊢
    case ok => exact ⟨hs, hn⟩
    case error =>
      rw [writeFailed] at ho ⊢
      split at ho
      case isTrue hf  => exact absurd (Connection.closed_shutDown _) (Bool.eq_false_iff.mp ho)
      case isFalse hf => rw [if_neg hf]; exact ⟨hs, hn⟩

theorem foldl (h : link.Writable) {items : List Outbound} (hc : .close ∉ items)
    (ho : (items.foldl Link.writeOne link).connection.closed = false) :
    (items.foldl Link.writeOne link).Writable := by
  induction items generalizing link
  case nil => exact h
  case cons item items hi =>
    have ⟨hn, hc⟩ := List.mem_cons.not.trans not_or |>.mp hc
    refine hi (h.writeOne (Ne.symm hn) ?_) hc ho
    exact Bool.eq_false_iff.mpr fun hw => Bool.eq_false_iff.mp ho <| closed_foldl_of_closed hw items

theorem burst (h : link.Writable) (events : List Event) : (link.burst events).Writable where
  writing := (link.burst_outward events).left.trans h.writing
  near    := (link.burst_near events).trans h.near

-- A link that is open after a turn was open before, and went on to write all the time.
theorem turn (h : link.connection.closed = false → link.Writable)
    (hn : link.connection.outbound = [])
    (ho : (link.turn events).2.2.connection.closed = false) : (link.turn events).2.2.Writable := by
  have hs : (link.burst events).settle.connection.closed = false := ho
  have ⟨hb, _⟩ := open_of_settle hs
  have hc : .close ∉ (link.burst events).connection.outbound := by
    rw [outbound_burst, hn, List.nil_append]
    exact fun mem => Bool.eq_false_iff.mp hb <| closed_of_close_mem_queued mem
  have hl : link.connection.closed = false :=
    Bool.eq_false_iff.mpr fun h => Bool.eq_false_iff.mp hb <| closed_burst h events
  have hw : (link.burst events).write.connection.closed = false := by
    refine Bool.eq_false_iff.mpr fun h => Bool.eq_false_iff.mp hs ?_
    rw [settle, release_connection]
    exact closed_read_of_closed h
  have hf : (link.burst events).write.Writable :=
    @foldl { link.burst events with connection := (link.burst events).connection.flushed }
      { (h hl).burst events with } _ hc hw
  obtain ⟨hw, _, hn⟩ := (link.burst events).write.read_outward
  have hr : (link.burst events).write.read.Writable := ⟨hw.trans hf.writing, hn.trans hf.near⟩
  have hs : (link.burst events).settle = (link.burst events).write.read := by
    simp [settle, release, hr.writing]
  have ht : (link.burst events).settle.Writable := hs ▸ hr
  exact { ht with }

end Writable

structure Ready (config : LinkConfig) (link : Link) (log : List Call)
    (shown : List (Nat × Outcome LinkError)) : Prop extends link.Settled where
  accounts : link.Accounts log shown
  numbered : link.Numbered config.firstId.toNat log
  writable : link.connection.closed = false → link.Writable
  sent     : link.duplex.far.inbox = []

namespace Ready

theorem start (config : LinkConfig) : (start config).Ready config [] [] where
  toSettled := .start config
  accounts  := .start config
  numbered  := .start config
  writable  := fun _ => ⟨rfl, rfl⟩
  sent      := rfl

theorem turn (h : link.Ready config log shown) (events : List Event) :
    ∃ shown, (link.turn events).2.2.Ready config (log ++ link.made events) shown := by
  have ⟨shown, ha⟩ := h.accounts.turn events
  exact ⟨shown, h.toSettled.turn events, ha, h.numbered.turn events,
    Writable.turn h.writable h.outbound, link.inbox_turn events⟩

theorem turns (h : link.Ready config log shown) (bursts : List (List Event)) :
    ∃ log shown, (link.turns bursts).Ready config log shown := by
  induction bursts generalizing link log shown
  case nil => exact ⟨log, shown, h⟩
  case cons events bursts hi =>
    have ⟨_, ht⟩ := h.turn events
    exact hi ht

end Ready
end LedgerWire.Link
