import LedgerWire.Stream.Hub

namespace LedgerWire.Stream.Hub

variable (hub : Hub) (kind : Kind)

theorem closed_setChannel (channel : Channel) : (hub.setChannel kind channel).closed = hub.closed :=
  rfl

theorem closed_drop : hub.drop.closed = hub.closed :=
  rfl

-- Closing takes nothing from the channels, so doing it twice is doing it once.
theorem close_of_closed (h : hub.closed) : hub.close = hub := by
  obtain ⟨⟩ := hub
  simp_all [close]

theorem closed_take : (hub.take kind).2.closed = hub.closed := by
  rw [take]
  split
  case h_1 => exact closed_setChannel hub kind _
  case h_2 => rfl

theorem closed_offer (push : Fields) : (hub.offer kind push).closed = hub.closed := by
  rw [offer]
  split
  case h_1 => split <;> rfl
  case h_2 => rfl

theorem closed_deliver (push : Fields) : (hub.deliver kind push).closed = hub.closed :=
  hub.closed_offer (hub.resolve kind) push

theorem closed_dropConsumer : (hub.dropConsumer kind).2.closed = hub.closed := by
  rw [dropConsumer]
  split <;> rfl

variable {hub kind} in
theorem closed_readOne? {reading : Reading} {hub' : Hub}
    (h : hub.readOne? kind = some (reading, hub')) :
    hub'.closed = hub.closed := by
  rw [readOne?] at h
  split at h
  all_goals cases h
  case h_1 => exact closed_setChannel hub kind _
  case h_2 => rfl

theorem closed_read (most : Nat) : (hub.read kind most).2.closed = hub.closed := by
  induction most generalizing hub
  case zero => rfl
  case succ most hi =>
    rw [read]
    split
    case h_1 h => exact (hi _).trans <| closed_readOne? h
    case h_2 h => exact closed_readOne? h
    case h_3 => rfl

end LedgerWire.Stream.Hub
