import LedgerWire.Proofs.Bytes.Text
import LedgerWire.Proofs.Link.Closure
import LedgerWire.Proofs.WebSocket.Turns

namespace LedgerWire.WebSocket

namespace Item

-- What one item is to whoever receives. Control frames are nothing.
inductive Gives : Item → Arrival → Prop where
  | text (text : String) : Gives (.message (.text text)) (.text text)
  | binary (text : String) : Gives (.message (.binary (Bytes.ofText text))) (.text text)
  | garbled : (∀ text, bytes ≠ Bytes.ofText text) →
    Gives (.message (.binary bytes)) (.unreadable (.transport "binary frame is not UTF-8"))
  | tooLong (size limit : Nat) :
    Gives (.tooLong size limit) (.unreadable (.transport (tooLongText size limit)))
  | close (reason : Option CloseReason) : Gives (.message (.close reason)) .ended
  | failed   : Gives .failed .ended
  | finished : Gives .finished .ended

def isControl : Item → Bool
  | message (.ping _) | message (.pong _) | raw _ => true
  | _ => false

-- Whether the stream is over with the item. It goes on behind a message that is too long.
def ends : Item → Bool
  | message (.close _) | failed | finished => true
  | _ => false

-- The text that an item carries, if its payload is one.
def text? : Item → Option String
  | message (.text text)    => some text
  | message (.binary bytes) => Bytes.toText? bytes
  | _                       => none

variable {item : Item} {arrival : Arrival}

theorem arrival?_eq_some_iff : item.arrival? = some arrival ↔ item.Gives arrival := by
  constructor
  case mp =>
    intro h
    unfold arrival? at h
    split at h
    case h_1 => cases h; exact .text _
    case h_2 bytes =>
      split at h
      case h_1 text hb =>
        cases h
        exact Bytes.toText?_eq_some_iff.mp hb ▸ .binary text
      case h_2 hb =>
        cases h
        refine .garbled fun text heq => ?_
        rw [Bytes.toText?_eq_some_iff.mpr heq] at hb
        contradiction
    case h_9 => cases h; exact .tooLong _ _
    case h_6 => cases h; exact .close _
    case h_7 => cases h; exact .failed
    case h_8 => cases h; exact .finished
    all_goals contradiction
  case mpr =>
    intro h
    cases h
    case binary text => simp only [arrival?, Bytes.toText?_ofText]
    case garbled bytes hb =>
      cases ht : Bytes.toText? bytes
      case none      => simp only [arrival?, ht]
      case some text => exact absurd (Bytes.toText?_eq_some_iff.mp ht) (hb text)
    all_goals rfl

-- Control frames are all that gives nothing.
theorem arrival?_eq_none_iff : item.arrival? = none ↔ item.isControl := by
  unfold arrival? isControl
  grind

theorem text?_eq (item : Item) : item.text? = match item.arrival? with
    | some (.text text) => some text
    | _                 => none := by
  unfold text? arrival?
  grind

theorem ends_iff : item.ends ↔ item.arrival? = some .ended := by
  unfold ends arrival?
  grind

end Item

variable {items rest : List Item} {arrival : Arrival}

theorem length_rest_lt_of_receive (h : receive items = some (arrival, rest)) :
    rest.length < items.length := by
  induction items
  case nil => contradiction
  case cons item items hi =>
    rw [receive] at h
    split at h
    case h_1 => cases h; exact Nat.lt_succ_self _
    case h_2 => exact Nat.lt_succ_of_lt (hi h)

-- The arrivals of one receive after the other, until one waits.
def arrivals (items : List Item) : List Arrival :=
  match _h : receive items with
  | some (arrival, rest) => arrival :: arrivals rest
  | none                 => []
  termination_by items.length
  decreasing_by exact length_rest_lt_of_receive _h

theorem arrivals_of_some (h : receive items = some (arrival, rest)) :
    arrivals items = arrival :: arrivals rest := by
  rw [arrivals]
  split
  case h_1 heq => cases h.symm.trans heq; rfl
  case h_2 heq => cases h.symm.trans heq

theorem arrivals_of_none (h : receive items = none) : arrivals items = [] := by
  rw [arrivals]
  split
  case h_1 heq => cases h.symm.trans heq
  case h_2     => rfl

theorem arrivals_eq (items : List Item) : arrivals items = items.filterMap Item.arrival? := by
  induction items
  case nil => exact arrivals_of_none rfl
  case cons item items hi =>
    cases ha : item.arrival?
    case some arrival =>
      rw [List.filterMap_cons_some ha, ← hi]
      exact arrivals_of_some (by rw [receive, ha])
    case none =>
      rw [List.filterMap_cons_none ha, ← hi]
      cases hr : receive items
      case none           => rw [arrivals_of_none hr, arrivals_of_none (by rw [receive, ha, hr])]
      case some received =>
        obtain ⟨arrival, rest⟩ := received
        rw [arrivals_of_some hr, arrivals_of_some (by rw [receive, ha, hr])]

-- Each item but the control frames is received, as what it is and in its place.
theorem gives_arrivals (items : List Item) :
    List.Forall₂ Item.Gives (items.filter (!·.isControl)) (arrivals items) := by
  rw [arrivals_eq]
  induction items
  case nil => exact .nil
  case cons item items hi =>
    cases ha : item.arrival?
    case none =>
      rw [List.filterMap_cons_none ha,
        List.filter_cons_of_neg (by simp [Item.arrival?_eq_none_iff.mp ha])]
      exact hi
    case some arrival =>
      have hc : item.isControl = false := by
        refine Bool.eq_false_iff.mpr fun hc => ?_
        rw [Item.arrival?_eq_none_iff.mpr hc] at ha
        contradiction
      rw [List.filterMap_cons_some ha, List.filter_cons_of_pos (by simp [hc])]
      exact .cons (Item.arrival?_eq_some_iff.mp ha) hi

-- The loop receives, and goes on with what that leaves unless it is the end.
theorem feed_eq_receive (c : Connection) (items : List Item) :
    feed c items = match receive items with
      | some (.text text, rest)    => feed (c.route text) rest
      | some (.unreadable _, rest) => feed c rest
      | some (.ended, _)           => c.shutDown
      | none                       => c := by
  induction items
  case nil => rfl
  case cons item items hi =>
    rw [feed, receive]
    cases item.arrival?
    case none => exact hi
    case some arrival => cases arrival <;> rfl

-- The connection behind an item that does not end the stream.
def Item.passTo (item : Item) (c : Connection) : Connection :=
  match item.text? with
  | some text => c.route text
  | none      => c

theorem feed_cons (c : Connection) (item : Item) (items : List Item) :
    feed c (item :: items) = if item.ends then c.shutDown else feed (item.passTo c) items := by
  rw [feed, Item.passTo, item.text?_eq]
  cases ha : item.arrival?
  case none => simp [Item.ends_iff, ha]
  case some arrival => cases arrival <;> simp [Item.ends_iff, ha]

-- The connection with the texts routed that come before the end.
def routed (c : Connection) (items : List Item) : Connection :=
  ((items.takeWhile (!·.ends)).filterMap Item.text?).foldl Connection.route c

theorem routed_cons (c : Connection) (item : Item) (items : List Item) :
    routed c (item :: items) = if item.ends then c else routed (item.passTo c) items := by
  rw [routed, routed, Item.passTo, List.takeWhile_cons]
  cases item.ends
  case true => rfl
  case false =>
    cases ht : item.text?
    case none      => simp [ht]
    case some text => simp [ht]

theorem closed_routed (c : Connection) (items : List Item) : (routed c items).closed = c.closed :=
  Link.foldl_route_keeps (fun c text => (c.closed_route text).trans) _ rfl

theorem feed_eq (c : Connection) (items : List Item) :
    feed c items =
      if items.any Item.ends then (routed c items).shutDown else routed c items := by
  induction items generalizing c
  case nil => rfl
  case cons item items hi =>
    rw [feed_cons, routed_cons, List.any_cons]
    cases item.ends
    case true  => rfl
    case false => exact hi _

-- Nothing behind the end makes a difference, and up to it the items are fed one by one.
theorem feed_append (c : Connection) (items after : List Item) :
    feed c (items ++ after) =
      if items.any Item.ends then feed c items else feed (feed c items) after := by
  induction items generalizing c
  case nil => rfl
  case cons item items hi =>
    rw [List.cons_append, feed_cons, feed_cons, List.any_cons]
    cases item.ends
    case true  => rfl
    case false => exact hi _

theorem closed_feed (c : Connection) (items : List Item) :
    (feed c items).closed = (c.closed || items.any Item.ends) := by
  rw [feed_eq]
  cases items.any Item.ends
  case true  => simp [Connection.closed_shutDown]
  case false => simp [closed_routed]

-- A WebSocket feeds a connection exactly its texts, and closes it exactly with its end. Whatever
-- else happens on the wire, a client's receives are receives from the items that it has yielded.
theorem feeds_exactly_its_texts (c : Connection) (items : List Item) :
    (feed c items = match receive items with
      | some (.text text, rest)    => feed (c.route text) rest
      | some (.unreadable _, rest) => feed c rest
      | some (.ended, _)           => c.shutDown
      | none                       => c) ∧
    List.Forall₂ Item.Gives (items.filter (!·.isControl)) (arrivals items) ∧
    feed c items =
      (if items.any Item.ends then (routed c items).shutDown else routed c items) ∧
    (feed c items).closed = (c.closed || items.any Item.ends) ∧
    (∀ after, feed c (items ++ after) =
      if items.any Item.ends then feed c items else feed (feed c items) after) ∧
    ∀ (p : Pair) (events : List Pair.Event),
      (∃ yielded, p.Yields yielded (p.run events).2 ∧
        arrivals yielded = (p.run events).1.filterMap Pair.Answer.arrival?) ∧
      (p.receive.1.isSome ∨ ∃ yielded last, p.Yields yielded last ∧
        last.turn .client = (.pending, p.receive.2)) := by
  refine ⟨feed_eq_receive c items, gives_arrivals items, feed_eq c items, closed_feed c items,
    feed_append c items, fun p events => ⟨?_, ?_⟩⟩
  · obtain ⟨yielded, yields, received⟩ := p.yields_run events
    exact ⟨yielded, yields, (arrivals_eq yielded).trans received⟩
  · cases hr : p.receive.1
    case none         => exact .inr <| Pair.pending_of_receive hr
    case some arrival => exact .inl rfl

end LedgerWire.WebSocket
