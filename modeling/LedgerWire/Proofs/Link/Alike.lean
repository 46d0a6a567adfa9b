import LedgerWire.Proofs.Link.Pushes

namespace LedgerWire

namespace Connection

-- The buffers, the counters and the capacity may differ, and nothing else.
def Alike (c d : Connection) : Prop :=
  ∃ hub streamCapacity, d = { c with hub, config := { c.config with streamCapacity } }

namespace Alike

variable {c d e : Connection}

theorem refl (c : Connection) : c.Alike c :=
  ⟨c.hub, c.config.streamCapacity, rfl⟩

theorem of_hub (c : Connection) (hub : Stream.Hub) : c.Alike { c with hub } :=
  ⟨hub, c.config.streamCapacity, rfl⟩

theorem symm (h : c.Alike d) : d.Alike c := by
  obtain ⟨_, _, rfl⟩ := h
  exact ⟨c.hub, c.config.streamCapacity, rfl⟩

theorem trans (h₁ : c.Alike d) (h₂ : d.Alike e) : c.Alike e := by
  obtain ⟨_, _, rfl⟩ := h₁
  obtain ⟨hub, streamCapacity, rfl⟩ := h₂
  exact ⟨hub, streamCapacity, rfl⟩

theorem calls (h : c.Alike d) : c.calls = d.calls := by
  obtain ⟨_, _, rfl⟩ := h
  rfl

theorem pending (h : c.Alike d) : c.pending = d.pending := by
  obtain ⟨_, _, rfl⟩ := h
  rfl

theorem start {config config' : LinkConfig} (ht : config.timeout = config'.timeout)
    (hf : config.firstId = config'.firstId) :
    (Connection.start config).Alike (Connection.start config') := by
  obtain ⟨capacity, timeout, firstId⟩ := config
  obtain ⟨capacity', timeout', firstId'⟩ := config'
  cases ht
  cases hf
  exact ⟨_, capacity', rfl⟩

theorem finish (h : c.Alike d) (ticket : Nat) (outcome : Outcome LinkError) :
    (c.finish ticket outcome).Alike (d.finish ticket outcome) := by
  obtain ⟨hub, streamCapacity, rfl⟩ := h
  unfold Connection.finish
  dsimp only
  split <;> exact ⟨hub, streamCapacity, rfl⟩

theorem erase (h : c.Alike d) (id : Nat) :
    Alike { c with pending := c.pending.erase id } { d with pending := d.pending.erase id } := by
  obtain ⟨hub, streamCapacity, rfl⟩ := h
  exact ⟨hub, streamCapacity, rfl⟩

theorem answer (h : c.Alike d) (ticket : Nat) (reply : Fields) :
    (c.answer ticket reply).Alike (d.answer ticket reply) := by
  have hf (outcome : Outcome LinkError) := h.finish ticket outcome
  obtain ⟨hub, streamCapacity, rfl⟩ := h
  unfold Connection.answer
  dsimp only
  split
  case h_2 => exact ⟨hub, streamCapacity, rfl⟩
  case h_1 call _ =>
    obtain ⟨hub, streamCapacity, hf⟩ := hf (call.purpose.conclude c.active reply).1
    exact ⟨hub, streamCapacity, by rw [hf]⟩

theorem abandon (h : c.Alike d) (call : Call) (outcome : Outcome LinkError) :
    (c.abandon call outcome).Alike (d.abandon call outcome) :=
  (h.erase call.id).finish call.ticket outcome

theorem expire (h : c.Alike d) (now : Nat) : (c.expire now).Alike (d.expire now) := by
  unfold Connection.expire
  rw [← h.calls]
  refine List.foldl_rel h fun call _ c d h => ?_
  split
  case h_1 => exact h.abandon ..
  case h_2 => exact h

theorem cancel (h : c.Alike d) (ticket : Nat) :
    (c.cancel ticket).1 = (d.cancel ticket).1 ∧ (c.cancel ticket).2.Alike (d.cancel ticket).2 := by
  unfold Connection.cancel
  rw [← h.calls]
  split
  case h_1 call _ => exact ⟨rfl, h.abandon call .cancelled⟩
  case h_2        => exact ⟨rfl, h⟩

theorem failRequest (h : c.Alike d) (id : Nat) (error : LinkError) :
    (c.failRequest id error).Alike (d.failRequest id error) := by
  unfold Connection.failRequest
  rw [← h.pending]
  split
  case h_1 ticket _ => exact h.pending ▸ (h.erase id).finish ticket (.failed error)
  case h_2          => exact h

theorem shutDown (h : c.Alike d) : c.shutDown.Alike d.shutDown := by
  obtain ⟨hub, streamCapacity, rfl⟩ := h
  unfold Connection.shutDown
  dsimp only
  split
  case isTrue  => exact ⟨hub, streamCapacity, rfl⟩
  case isFalse =>
    exact List.foldl_rel ⟨_, streamCapacity, rfl⟩ fun ticket _ c d h => h.finish ticket _

theorem close (h : c.Alike d) : c.close.Alike d.close := by
  apply shutDown
  obtain ⟨hub, streamCapacity, rfl⟩ := h
  exact ⟨hub, streamCapacity, rfl⟩

theorem call (h : c.Alike d) (ticket now : Nat) (request : Request) :
    (c.call ticket now request).Alike (d.call ticket now request) := by
  have ha : c.allocate? = d.allocate? := by obtain ⟨_, _, rfl⟩ := h; rfl
  unfold Connection.call
  rw [← ha]
  split
  case h_1 =>
    apply expire
    obtain ⟨hub, streamCapacity, rfl⟩ := h
    exact ⟨hub, streamCapacity, rfl⟩
  case h_2 =>
    obtain ⟨hub, streamCapacity, rfl⟩ := h
    exact ⟨hub, streamCapacity, rfl⟩

-- A push reaches the streams only.
theorem push (c : Connection) (frame : Fields) : c.Alike (c.push frame) := by
  have ⟨hub, h⟩ := c.push_effect frame
  exact h ▸ of_hub c hub

theorem routeFrame (h : c.Alike d) (frame : Fields) :
    (c.routeFrame frame).Alike (d.routeFrame frame) := by
  have hp : (c.push frame).Alike (d.push frame) :=
    (push c frame).symm.trans <| h.trans (push d frame)
  unfold Connection.routeFrame
  rw [← h.pending]
  split
  case h_2 => exact hp
  case h_1 id _ =>
    split
    case h_1 ticket _ => exact h.pending ▸ (h.erase id).answer ticket frame
    case h_2          => exact hp

theorem route (h : c.Alike d) (text : String) : (c.route text).Alike (d.route text) := by
  unfold Connection.route
  split
  case h_1 frame _ => exact h.routeFrame frame
  case h_2         => exact h

-- Neither does any other text that answers no pending request.
theorem route_of_not_awaits {text : String}
    (h : (Frame.ofText? text).any c.awaits = false) : c.Alike (c.route text) := by
  unfold Connection.route
  split
  case h_2 => exact .refl c
  case h_1 frame hf =>
    rw [hf, Option.any_some] at h
    exact routeFrame_of_not_awaits h ▸ push c frame

end Alike

end Connection

namespace Link

-- Outside of the connection only the receives that are to fail may differ.
def Alike (l m : Link) : Prop :=
  ∃ connection receives, l.connection.Alike connection ∧
    m = { l with connection, faults := { l.faults with receives } }

namespace Alike

variable {l m n : Link}

theorem refl (link : Link) : link.Alike link :=
  ⟨link.connection, link.faults.receives, .refl _, rfl⟩

theorem of_connection (link : Link) {connection : Connection}
    (h : link.connection.Alike connection) : link.Alike { link with connection } :=
  ⟨connection, link.faults.receives, h, rfl⟩

theorem symm (h : l.Alike m) : m.Alike l := by
  obtain ⟨_, _, hc, rfl⟩ := h
  exact ⟨l.connection, l.faults.receives, hc.symm, rfl⟩

theorem trans (h₁ : l.Alike m) (h₂ : m.Alike n) : l.Alike n := by
  obtain ⟨_, _, hc, rfl⟩ := h₁
  obtain ⟨connection, receives, hd, rfl⟩ := h₂
  exact ⟨connection, receives, hc.trans hd, rfl⟩

theorem start {config config' : LinkConfig} (ht : config.timeout = config'.timeout)
    (hf : config.firstId = config'.firstId) : (Link.start config).Alike (Link.start config') :=
  ⟨_, _, .start ht hf, rfl⟩

theorem send (h : l.Alike m) (text : String) :
    (l.send text).1 = (m.send text).1 ∧ (l.send text).2.Alike (m.send text).2 := by
  obtain ⟨connection, receives, hc, rfl⟩ := h
  unfold Link.send
  dsimp only
  split
  case h_1 => exact ⟨rfl, connection, receives, hc, rfl⟩
  case h_2 => split <;> exact ⟨rfl, connection, receives, hc, rfl⟩

theorem closeWire (h : l.Alike m) : l.closeWire.2.Alike m.closeWire.2 := by
  obtain ⟨connection, receives, hc, rfl⟩ := h
  unfold Link.closeWire
  dsimp only
  split <;> exact ⟨connection, receives, hc, rfl⟩

theorem writeFailed (h : l.Alike m) (id : Nat) (error : LinkError) :
    (l.writeFailed id error).Alike (m.writeFailed id error) := by
  obtain ⟨connection, receives, hc, rfl⟩ := h
  have hf := hc.failRequest id error
  unfold Link.writeFailed
  split
  case isTrue  => exact ⟨_, receives, hf.shutDown, rfl⟩
  case isFalse => exact ⟨_, receives, hf, rfl⟩

theorem writeOne (h : l.Alike m) (item : Outbound) : (l.writeOne item).Alike (m.writeOne item) := by
  have hw : l.writing = m.writing := by obtain ⟨_, _, _, rfl⟩ := h; rfl
  unfold Link.writeOne
  rw [← hw]
  split
  case isFalse => exact h
  case isTrue =>
    cases item
    case close =>
      obtain ⟨connection, receives, hc, he⟩ := h.closeWire
      exact ⟨connection, receives, hc, by rw [he]⟩
    case frame id text =>
      have ⟨he, hs⟩ := h.send text
      rcases hl : l.send text with ⟨error | _, l'⟩
      all_goals
        rcases hm : m.send text with ⟨_, m'⟩
        simp only [hl, hm] at he hs ⊢
        cases he
      case ok    => exact hs
      case error => exact hs.writeFailed id error

theorem write (h : l.Alike m) : l.write.Alike m.write := by
  obtain ⟨_, receives, ⟨hub, streamCapacity, rfl⟩, rfl⟩ := h
  unfold Link.write
  refine List.foldl_rel ?_ fun item _ l m h => h.writeOne item
  exact ⟨_, receives, ⟨hub, streamCapacity, rfl⟩, rfl⟩

-- Whatever receives fail, the same texts are routed.
theorem drained (h : l.Alike m) : l.drained.Alike m.drained := by
  obtain ⟨_, _, hc, rfl⟩ := h
  exact ⟨_, [], List.foldl_rel hc fun text _ c d h => h.route text, rfl⟩

theorem read (h : l.Alike m) : l.read.Alike m.read := by
  have hr : l.reading = m.reading := by obtain ⟨_, _, _, rfl⟩ := h; rfl
  have hd : l.duplex = m.duplex := by obtain ⟨_, _, _, rfl⟩ := h; rfl
  cases hl : l.reading
  case false => rwa [read_of_not_reading hl, read_of_not_reading (hr ▸ hl)]
  case true =>
    have hs := h.drained
    rw [read_eq hl, read_eq (hr ▸ hl), ← hd]
    split
    case isTrue  => exact hs
    case isFalse =>
      obtain ⟨_, receives, hc, he⟩ := hs
      exact ⟨_, receives, hc.shutDown, by rw [he]⟩

theorem release (h : l.Alike m) : l.release.Alike m.release := by
  obtain ⟨connection, receives, hc, rfl⟩ := h
  unfold Link.release
  dsimp only
  split <;> exact ⟨connection, receives, hc, rfl⟩

theorem settle (h : l.Alike m) : l.settle.Alike m.settle :=
  h.write.read.release

theorem call (h : l.Alike m) (request : Request) : (l.call request).Alike (m.call request) := by
  obtain ⟨_, receives, hc, rfl⟩ := h
  exact ⟨_, receives, hc.call l.tickets l.clock request, rfl⟩

theorem callTimes (h : l.Alike m) (request : Request) (times : Nat) :
    (l.callTimes request times).Alike (m.callTimes request times) := by
  induction times generalizing l m
  case zero          => exact h
  case succ times hi => exact hi <| h.call request

theorem limit (h : l.Alike m) : l.limit = m.limit := by
  obtain ⟨_, _, ⟨_, _, rfl⟩, rfl⟩ := h
  rfl

end Alike

end Link
end LedgerWire
