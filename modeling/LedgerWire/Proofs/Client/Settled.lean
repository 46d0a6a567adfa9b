import LedgerWire.Client.Session
import LedgerWire.Proofs.Link.Live

namespace LedgerWire

-- What the ledger sends back for texts that reach it, and the ledger after them.
def Ledger.answers (ledger : Ledger) : List String → List String × Ledger
  | [] => ([], ledger)
  | text :: texts =>
    match Frame.ofText? text with
    | none         => ledger.answers texts
    | some request =>
      match ledger.receive request with
      | (none, ledger)       => ledger.answers texts
      | (some reply, ledger) =>
        let (replies, ledger) := ledger.answers texts
        (reply.text :: replies, ledger)

namespace Session

variable {session : Session}

def after (session : Session) (events : List Event) : Session :=
  (session.run events).2

-- The server reaches the wire and its own state only.
theorem serveOne_effect (session : Session) (text : String) : ∃ duplex ledger serving,
    session.serveOne text =
      { session with link := { session.link with duplex }, ledger, serving } := by
  rw [serveOne]
  split
  case isFalse => exact ⟨_, _, _, rfl⟩
  case isTrue =>
    split
    case h_1 => exact ⟨_, _, _, rfl⟩
    case h_2 =>
      split
      case h_1 => exact ⟨_, _, _, rfl⟩
      case h_2 => split <;> exact ⟨_, _, _, rfl⟩

theorem serve_effect (session : Session) : ∃ duplex ledger serving,
    session.serve = { session with link := { session.link with duplex }, ledger, serving } := by
  have loop (texts : List String) (s : Session) : ∃ duplex ledger serving,
      texts.foldl serveOne s = { s with link := { s.link with duplex }, ledger, serving } := by
    induction texts generalizing s
    case nil => exact ⟨_, _, _, rfl⟩
    case cons text texts hi =>
      obtain ⟨_, _, _, ho⟩ := s.serveOne_effect text
      obtain ⟨_, _, _, hf⟩ := hi (s.serveOne text)
      rw [List.foldl_cons, hf, ho]
      exact ⟨_, _, _, rfl⟩
  rw [serve]
  split
  case isFalse => exact ⟨_, _, _, rfl⟩
  case isTrue =>
    obtain ⟨_, _, _, h⟩ := loop (session.link.duplex.drain .far).1
      { session with link := { session.link with duplex := (session.link.duplex.drain .far).2 } }
    simp only [h]
    exact ⟨_, _, _, rfl⟩

-- The session with these texts sent from the server to the client.
def delivering (session : Session) (texts : List String) : Session :=
  { session with link := { session.link with duplex := { session.link.duplex with
    near := { session.link.duplex.near with inbox := session.link.duplex.near.inbox ++ texts } } } }

theorem send?_far {d : Duplex} (hn : d.near.standing ≠ .dropped) (hf : d.far.standing = .live)
    (text : String) : d.send? .far text =
      some { d with near := { d.near with inbox := d.near.inbox ++ [text] } } := by
  have hs : d.canSend .far := by simpa [Duplex.canSend, Duplex.get, Side.other, hf] using hn
  rw [Duplex.send?, if_pos hs]
  rfl

-- While both ends are there the server answers whatever reaches it.
theorem foldl_serveOne (hs : session.serving) (hn : session.link.duplex.near.standing ≠ .dropped)
    (hf : session.link.duplex.far.standing = .live) (texts : List String) :
    texts.foldl serveOne session =
      { session.delivering (session.ledger.answers texts).1 with
        ledger := (session.ledger.answers texts).2 } := by
  induction texts generalizing session
  case nil => simp [delivering, Ledger.answers]
  case cons text texts hi =>
    rw [List.foldl_cons, serveOne, if_pos hs, Ledger.answers]
    cases Frame.ofText? text
    case none => exact hi hs hn hf
    case some request =>
      rcases he : session.ledger.receive request with ⟨_ | reply, ledger⟩
      all_goals simp only [he]
      case none => exact @hi { session with ledger } hs hn hf
      case some =>
        simp only [send?_far hn hf]
        rw [hi (by exact hs) (by exact hn) (by exact hf)]
        simp [delivering]

theorem serve_eq (hs : session.serving) (hn : session.link.duplex.near.standing = .live)
    (hf : session.link.duplex.far.standing = .live) :
    session.serve = { session with
      ledger := (session.ledger.answers session.link.duplex.far.inbox).2
      link := { session.link with duplex := ⟨⟨session.link.duplex.near.inbox ++
        (session.ledger.answers session.link.duplex.far.inbox).1, .live⟩, ⟨[], .live⟩⟩ } } := by
  have hl := @foldl_serveOne { session with
    link := { session.link with duplex := (session.link.duplex.drain .far).2 } } hs
    (by simp [Duplex.drain, Duplex.get, Duplex.set, hn])
    (by simp [Duplex.drain, Duplex.get, Duplex.set, hf]) (session.link.duplex.drain .far).1
  rw [serve, if_pos hs]
  simp only [hl]
  simp [delivering, Duplex.drain, Duplex.get, Duplex.set, Duplex.ended, Side.other, hs, hn, hf]

-- What has come to the server by the time that the client has written all it had to write.
def arriving (session : Session) : List String :=
  session.link.duplex.far.inbox ++ session.link.connection.outbound.filterMap Outbound.text?

-- The client hears what was on its way to it, and then the answers to all that it has written.
theorem settle_eq (hl : session.link.Live) (hs : session.serving)
    (hp : session.link.duplex.far.standing = .live)
    (hf : .close ∉ session.link.connection.outbound) :
    session.settle = { session with
      ledger := (session.ledger.answers session.arriving).2
      link := { session.link with
        connection := (session.link.duplex.near.inbox ++
          (session.ledger.answers session.arriving).1).foldl Connection.route
            session.link.connection.flushed
        duplex := .start } } := by
  have h₁ := hl.settle hf hp
  have h₂ := @serve_eq { session with link := session.link.settle } hs
    (by simp only [h₁]) (by simp only [h₁])
  simp only [h₁, List.nil_append] at h₂
  rw [settle]
  simp only [h₁, h₂]
  -- All is written by now, so the link only hears the answers in its second turn.
  have ho : (session.link.duplex.near.inbox.foldl Connection.route
      session.link.connection.flushed).outbound = [] :=
    Link.foldl_route_keeps (fun c text => (c.outbound_route text).trans) _ rfl
  rw [List.foldl_append]
  generalize session.link.duplex.near.inbox.foldl Connection.route
    session.link.connection.flushed = c at ho ⊢
  have h₃ := @Link.Live.settle { session.link with
    connection := c
    duplex     := ⟨⟨(session.ledger.answers session.arriving).1, .live⟩, ⟨[], .live⟩⟩ }
    { hl with near := rfl, far := nofun } (by simp [ho]) rfl
  simp only [ho, Connection.flushed_of_empty ho] at h₃
  simp only [arriving, Duplex.start] at h₃ ⊢
  rw [h₃]
  rfl

variable {config : LinkConfig}

-- While an event is dealt with.
structure Running (config : LinkConfig) (session : Session) : Prop where
  sound : ∃ log shown, session.link.Sound config log shown
  live  : session.link.connection.closed = false → session.link.Live ∧ session.serving

-- Between events.
structure Settled (config : LinkConfig) (session : Session) : Prop
    extends Running config session where
  finished : session.link.connection.finished = []
  outbound : session.link.connection.outbound = []
  refused  : session.refused = []
  quiet    : session.link.connection.closed = false → session.link.duplex = .start

theorem Settled.start (config : LinkConfig) : (start config).Settled config where
  sound    := ⟨_, _, Link.Sound.start config⟩
  live _   := ⟨Link.Live.start config, rfl⟩
  finished := rfl
  outbound := rfl
  refused  := rfl
  quiet _  := rfl

namespace Running

-- The client reaches the link only through its connection, so it leaves the link alive.
theorem of_link (h : session.Running config) {link : Link}
    (hs : ∃ log shown, link.Sound config log shown)
    (hc : link.connection.closed = false → session.link.connection.closed = false)
    (hl : ∃ connection clock tickets, link = { session.link with connection, clock, tickets }) :
    Running config { session with link } where
  sound := hs
  live closed := by
    have ⟨live, serving⟩ := h.live (hc closed)
    obtain ⟨_, _, _, rfl⟩ := hl
    exact ⟨{ live with }, serving⟩

theorem act (h : session.Running config) (action : Link.Action) :
    Running config { session with link := (session.link.act action).2 } := by
  have ⟨_, _, hs⟩ := h.sound
  refine h.of_link ⟨_, _, hs.act action⟩ (fun closed => ?_) (session.link.act_effect action)
  cases hc : session.link.connection.closed
  case false => rfl
  case true  => exact absurd (Link.closed_onEvent hc (.act action)) (by simp [Link.onEvent, closed])

theorem call (h : session.Running config) (request : Request) :
    Running config { session with link := session.link.call request } := by
  have ⟨_, _, hs⟩ := h.sound
  refine h.of_link ⟨_, _, hs.call request⟩ (fun closed => ?_) ⟨_, _, _, rfl⟩
  exact (Link.closed_callTimes session.link request 1).symm.trans closed

-- A request that could not be signed uses up a ticket.
theorem skip (h : session.Running config) (hf : session.link.connection.finished = []) :
    Running config { session with
      link := { session.link with tickets := session.link.tickets + 1 } } := by
  have ⟨_, _, hs⟩ := h.sound
  exact h.of_link ⟨_, _, hs.skip hf .cancelled⟩ id ⟨_, _, _, rfl⟩

theorem of_duplex (h : session.Running config) {duplex : Duplex}
    (hn : duplex.near.standing = session.link.duplex.near.standing)
    (hf : session.link.duplex.far.standing ≠ .dropped → duplex.far.standing ≠ .dropped) :
    Running config { session with link := { session.link with duplex } } where
  sound := h.sound
  live closed := by
    have ⟨live, serving⟩ := h.live closed
    exact ⟨{ live with near := hn.trans live.near, far := hf live.far }, serving⟩

theorem pushRaw (h : session.Running config) (frame : Json) :
    (session.pushRaw frame).2.Running config := by
  rw [Session.pushRaw]
  split
  case h_2 => exact h
  case h_1 duplex hs =>
    rw [Duplex.send?] at hs
    split at hs <;> cases hs
    exact h.of_duplex rfl id

theorem push (h : session.Running config) (kind : Stream.Kind) (body : Json) :
    (session.push kind body).2.Running config := by
  rw [Session.push]
  split
  case isTrue  => exact h.pushRaw _
  case isFalse => exact h

theorem disconnect (h : session.Running config) : session.disconnect.Running config := by
  rw [Session.disconnect, Duplex.close]
  split
  case isTrue  => exact h.of_duplex rfl fun _ => by simp [Duplex.set]
  case isFalse => exact h.of_duplex rfl id

theorem settle_sound (h : session.Running config) :
    ∃ log shown, session.settle.link.Sound config log shown := by
  have ⟨_, _, hs⟩ := h.sound
  obtain ⟨_, _, _, he⟩ := serve_effect { session with link := session.link.settle }
  have hs' := hs.settle
  rw [Session.settle, he]
  exact ⟨_, _, Link.Sound.settle hs'⟩

-- A session that is open in the end was open before, with the server there to the last.
theorem settle_open (h : session.Running config)
    (ho : session.settle.link.connection.closed = false) :
    session.settle.link.Live ∧ session.settle.serving ∧ session.settle.link.duplex = .start := by
  have ⟨_, _, hs⟩ := h.sound
  have hc : session.link.settle.connection.closed = false := by
    obtain ⟨_, _, _, he⟩ := serve_effect { session with link := session.link.settle }
    rw [Session.settle, he] at ho
    exact (Link.open_of_settle ho).left
  have ⟨closed, hp⟩ := Link.open_of_settle hc
  have ⟨live, serving⟩ := h.live closed
  rw [settle_eq live serving (hp live.reading) (hs.frames closed)]
  exact ⟨{ live with near := rfl, far := nofun }, serving, rfl⟩

theorem settle (h : session.Running config) : session.settle.harvest.2.Settled config where
  sound    := have ⟨_, _, hs⟩ := h.settle_sound; ⟨_, _, hs.harvest⟩
  live ho  := have ⟨hl, hs, _⟩ := h.settle_open ho; ⟨{ hl with }, hs⟩
  finished := rfl
  outbound := Link.settle_outbound _
  refused  := rfl
  quiet ho := (h.settle_open ho).right.right

end Running

namespace Settled

theorem onEvent (h : session.Settled config) (event : Event) :
    (session.onEvent event).2.Running config := by
  have hr := h.toRunning
  have signAndSend (command : Fields) (seed : String) :
      (session.signAndSend command seed).Running config := by
    rw [Session.signAndSend]
    split
    case h_1 => exact hr.call _
    case h_2 => exact { hr.skip h.finished with }
  cases event
  case act action => exact hr.act action
  case signAndSend command seed => exact signAndSend command seed
  case signAndSubmit tx seed => exact signAndSend _ seed
  case push kind body => exact hr.push kind body
  case pushRaw frame => exact hr.pushRaw frame
  case setResult => exact { hr with }
  case setSilent => exact { hr with }
  case disconnect => exact hr.disconnect

theorem step (h : session.Settled config) (event : Event) :
    (session.step event).2.Settled config :=
  (h.onEvent event).settle

theorem run (h : session.Settled config) (events : List Event) :
    (session.after events).Settled config := by
  induction events generalizing session
  case nil => exact h
  case cons event events hi => exact hi <| h.step event

end Settled

-- The session once its client has made a request.
def asking (session : Session) (request : Request) : Session :=
  { session with link := session.link.call request }

-- All that the request puts on the wire is answered, and then nothing else happens.
theorem Settled.settle_asking (h : session.Settled config)
    (closed : session.link.connection.closed = false) (request : Request) :
    (session.asking request).settle = { session.asking request with
      ledger := (session.ledger.answers (session.asking request).arriving).2
      link := { (session.asking request).link with
        connection := (session.ledger.answers (session.asking request).arriving).1.foldl
          Connection.route (session.asking request).link.connection.flushed
        duplex := .start } } := by
  have ⟨live, serving⟩ := h.live closed
  have hd : (session.asking request).link.duplex = .start := h.quiet closed
  have ⟨_, _, hs⟩ := h.sound
  have hc : (session.asking request).link.connection.closed = false :=
    (Link.closed_callTimes session.link request 1).trans closed
  have hl : (session.asking request).link.Live := { live with }
  have hn : (session.asking request).link.duplex.near.inbox = [] := by rw [hd]; rfl
  rw [settle_eq hl serving (by rw [hd]; rfl) ((hs.call request).frames hc), hn, List.nil_append]
  rfl

end Session
end LedgerWire
