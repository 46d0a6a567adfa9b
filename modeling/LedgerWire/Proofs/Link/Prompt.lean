import LedgerWire.Proofs.Link.Live
import LedgerWire.Proofs.Link.Registry

namespace LedgerWire

namespace Connection

variable {c : Connection} {now : Nat}

-- No call has run out of time.
def Prompt (c : Connection) (now : Nat) : Prop :=
  ∀ call ∈ c.calls, call.overdue? now = none

namespace Prompt

theorem retire (h : c.Prompt now) (verdict : Call → Option (Outcome LinkError)) :
    (c.retire verdict).Prompt now :=
  fun call mem => h call (mem_calls_retire.mp mem).left

theorem of_expire (h : c.Coherent) (now : Nat) : (c.expire now).Prompt now := by
  rw [expire_eq h]
  intro call mem
  exact Option.map_eq_none_iff.mp (mem_calls_retire.mp mem).right

theorem expire_eq (h : c.Prompt now) (hc : c.Coherent) : c.expire now = c := by
  rw [Connection.expire_eq hc, retire_none hc]
  exact fun call mem => Option.map_eq_none_iff.mpr (h call mem)

theorem call (h : c.Prompt now) {config : LinkConfig} {tickets : Nat} {log : List Call}
    {shown : List (Nat × Outcome LinkError)} (hs : c.Sound config tickets log shown)
    (request : Request) : (c.call tickets now request).Prompt now := by
  rw [Connection.call]
  cases ha : c.allocate?
  case ok id => exact of_expire (hs.dispatch now request ha).accounts.coherent now
  case error => exact h

theorem failRequest (h : c.Prompt now) (hc : c.Coherent) (id : Nat) (error : LinkError) :
    (c.failRequest id error).Prompt now :=
  failRequest_eq hc id error ▸ h.retire _

theorem cancel (h : c.Prompt now) (hc : c.Coherent) (ticket : Nat) :
    (c.cancel ticket).2.Prompt now :=
  cancel_eq hc ticket ▸ h.retire _

theorem shutDown (h : c.Prompt now) (hc : c.Coherent) : c.shutDown.Prompt now := by
  rw [shutDown_eq hc]
  exact h.retire fun _ => some (.failed .closed)

theorem route (h : c.Prompt now) (hc : c.Coherent) (text : String) :
    (c.route text).Prompt now := by
  have ⟨_, _, hr⟩ := route_eq hc text
  rw [hr]
  exact h.retire (replied text)

end Prompt

-- The id that comes next, or the number of ids there are if none is left.
def front (c : Connection) : Nat :=
  c.nextId.getD idSpace

end Connection

namespace Link

variable {link : Link} {config : LinkConfig} {log : List Call}
variable {shown : List (Nat × Outcome LinkError)}

def Prompt (link : Link) : Prop :=
  link.connection.Prompt link.clock

theorem read_clock (link : Link) : link.read.clock = link.clock := by
  cases hr : link.reading
  case false => rw [read_of_not_reading hr]
  case true  => rw [read_eq hr]; split <;> rfl

theorem release_clock (link : Link) : link.release.clock = link.clock := by
  rw [release]
  split <;> rfl

theorem settle_clock (link : Link) : link.settle.clock = link.clock := by
  rw [settle, release_clock, read_clock, (Undisturbed.write link).clock]

namespace Prompt

theorem callTimes (h : link.Prompt) (hs : link.Sound config log shown) (request : Request)
    (times : Nat) : (link.callTimes request times).Prompt := by
  induction times generalizing link log
  case zero => exact h
  case succ times hi => exact hi (Connection.Prompt.call h hs request) (hs.call request)

-- Whatever the caller does, the calls whose time is up have ended by the time that it is done.
theorem act (h : link.Prompt) (hs : link.Sound config log shown) (action : Action) :
    (link.act action).2.Prompt := by
  have hc := hs.accounts.coherent
  cases action
  case issue command times         => exact callTimes h hs _ times
  case issueWithin command limit   => exact Connection.Prompt.call h hs _
  case subscribe names             => exact Connection.Prompt.call h hs _
  case unsubscribe names           => exact Connection.Prompt.call h hs _
  case cancel ticket               => exact Connection.Prompt.cancel h hc ticket
  case advance ms                  => exact .of_expire hc (link.clock + ms)
  case close                       =>
    exact Connection.Prompt.shutDown h (hs.accounts.of_outbound _).coherent
  case read kind most =>
    rw [Link.act]
    split <;> exact h
  all_goals exact h

theorem settle (h : link.Prompt) (hs : link.Sound config log shown) : link.settle.Prompt := by
  have hk : link.settle.connection.Sound config link.tickets log shown ∧
      link.settle.connection.Prompt link.clock := by
    refine settle_keeps (P := fun c => c.Sound config link.tickets log shown ∧ c.Prompt link.clock)
      ⟨?_, ?_⟩ ?_ ⟨hs.of_outbound nofun, h⟩
    · exact fun c id error _ hc =>
        ⟨hc.left.failRequest id error, hc.right.failRequest hc.left.accounts.coherent id error⟩
    · exact fun c hc => ⟨hc.left.shutDown, hc.right.shutDown hc.left.accounts.coherent⟩
    · exact fun c text hc => ⟨hc.left.route text, hc.right.route hc.left.accounts.coherent text⟩
  rw [Prompt, settle_clock]
  exact hk.right

end Prompt

-- Starts these requests one after the other.
def callAll (link : Link) : List Request → Link
  | []                  => link
  | request :: requests => (link.call request).callAll requests

theorem Sound.callAll (h : link.Sound config log shown) (requests : List Request) :
    ∃ log, (link.callAll requests).Sound config log shown := by
  induction requests generalizing link log
  case nil => exact ⟨log, h⟩
  case cons request requests hi => exact hi (h.call request)

-- The calls that they become, if nothing goes wrong.
def newCalls (link : Link) (requests : List Request) : List (Call × Fields) :=
  ((requests.zipIdx link.connection.front).zipIdx link.tickets).map fun ((request, id), ticket) =>
    (⟨ticket, id, request.purpose, request.limit, link.clock⟩, request.command)

theorem nextId_of_front (room : link.connection.front < Connection.idSpace) :
    link.connection.nextId = some link.connection.front := by
  rw [Connection.front] at room ⊢
  cases hn : link.connection.nextId
  case none   => simp [hn] at room
  case some id => rfl

-- A request becomes a call while an id is left. No other call ends by it.
theorem call_of_prompt {request : Request} (h : link.Sound config log shown) (hp : link.Prompt)
    (closed : link.connection.closed = false) (hl : ∀ limit ∈ request.limit, limit.nanos ≠ 0)
    (room : link.connection.front < Connection.idSpace) :
    link.call request = { link with
      connection := link.connection.dispatch link.connection.front link.tickets link.clock request
      tickets    := link.tickets + 1 } := by
  have ha := Connection.Sound.allocate? h closed (nextId_of_front room)
  have hd : (link.connection.dispatch link.connection.front link.tickets link.clock
      request).Coherent := (h.accounts.dispatch ha).coherent
  have hc : (link.connection.dispatch link.connection.front link.tickets link.clock
      request).Prompt link.clock := by
    intro call mem
    cases List.mem_append.mp mem
    case inl mem => exact hp call mem
    case inr mem => exact List.mem_singleton.mp mem ▸ Connection.overdue?_new hl _ _ _
  simp only [call, Connection.call, ha, hc.expire_eq hd]

theorem front_dispatch {c : Connection} {id : Nat} (room : id < Connection.idSpace)
    (ticket now : Nat) (request : Request) : (c.dispatch id ticket now request).front = id + 1 := by
  rw [Connection.front, Connection.dispatch]
  split
  case isTrue  => rfl
  case isFalse => rw [Option.getD_none]; omega

theorem callAll_eq (h : link.Sound config log shown) (hp : link.Prompt)
    (closed : link.connection.closed = false) {requests : List Request}
    (hl : ∀ request ∈ requests, ∀ limit ∈ request.limit, limit.nanos ≠ 0)
    (room : link.connection.front + requests.length ≤ Connection.idSpace) :
    ∃ nextId, link.callAll requests = { link with
      connection := { link.connection with
        nextId
        pending  := .ofCalls (link.connection.calls ++ (link.newCalls requests).map (·.1))
        calls    := link.connection.calls ++ (link.newCalls requests).map (·.1)
        outbound := link.connection.outbound ++ (link.newCalls requests).map fun (call, command) =>
          .frame call.id (Connection.frameText command call.id) }
      tickets := link.tickets + requests.length } := by
  induction requests generalizing link log
  case nil =>
    refine ⟨link.connection.nextId, ?_⟩
    simp [callAll, newCalls, ← h.accounts.coherent.pending]
  case cons request requests hi =>
    rw [List.length_cons] at room
    have hf : link.connection.front < Connection.idSpace := by omega
    have hc := call_of_prompt h hp closed (hl request (.head _)) hf
    have hf' : (link.call request).connection.front = link.connection.front + 1 := by
      rw [hc, front_dispatch hf]
    have hp' : (link.call request).Prompt := Connection.Prompt.call hp h request
    have hn : link.newCalls (request :: requests) =
        (⟨link.tickets, link.connection.front, request.purpose, request.limit, link.clock⟩,
          request.command) :: (link.call request).newCalls requests := by
      simp only [newCalls, List.zipIdx_cons, List.map_cons, hf']
      simp only [hc]
    have ⟨nextId, ih⟩ := hi (h.call request) hp' (by rw [hc]; exact closed)
      (fun r mem => hl r (.tail _ mem)) (by omega)
    rw [callAll, ih, hn]
    generalize (link.call request).newCalls requests = new
    refine ⟨nextId, ?_⟩
    simp [hc, Connection.dispatch]
    omega

end Link

namespace Connection

variable {c : Connection} {before : List Call}

-- Replies to commands that come in the order of their calls end these calls, and do nothing else.
theorem foldl_route_replies (h : c.Coherent) {replies : List (Call × Fields)}
    (hr : ∀ p ∈ replies, p.1.purpose = .command ∧ Frame.carrying? p.1.id p.2.text = some p.2)
    (hc : c.calls = before ++ replies.map (·.1)) :
    (replies.map fun (_, reply) => reply.text).foldl route c = { c with
      pending  := .ofCalls before
      calls    := before
      finished := c.finished ++ replies.map fun (call, reply) => (call.ticket, .replied reply) } := by
  induction replies generalizing c
  case nil =>
    have hc : c.calls = before := by simpa using hc
    simp [← hc, ← h.pending]
  case cons p replies hi =>
    have ⟨hp, hf⟩ := hr p (.head _)
    have hn : c.route p.2.text = c.retire (only p.1.id (.replied p.2)) := by
      rw [route_of_carrying h (by simp [hc]) hf, hp]
      rfl
    have ho := retire_only (.replied p.2) h (hc.trans (by rw [List.map_cons]))
    simp only [List.map_cons, List.foldl_cons, hn]
    rw [hi h.retire (fun q mem => hr q (.tail _ mem)) (by rw [ho])]
    simp [ho]

end Connection

end LedgerWire
