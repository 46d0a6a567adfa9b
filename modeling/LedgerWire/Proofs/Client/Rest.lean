import LedgerWire.Proofs.Client.Agreement

namespace LedgerWire

namespace Link

variable {link : Link}

-- Once neither loop runs, the near end is given up.
def Released (link : Link) : Prop :=
  link.writing = false → link.reading = false → link.duplex.near = ⟨[], .dropped⟩

theorem released_settle (link : Link) : link.settle.Released := by
  rw [settle, release]
  split
  case isFalse => exact fun _ _ => rfl
  case isTrue h =>
    intro hw hr
    simp [hw, hr] at h

theorem release_of_released (h : link.Released) : link.release = link := by
  rw [release]
  split
  case isTrue => rfl
  case isFalse hl =>
    simp only [Bool.or_eq_true, not_or, Bool.not_eq_true] at hl
    have hn := h hl.left hl.right
    obtain ⟨_, ⟨_, _⟩, _⟩ := link
    cases hn
    rfl

theorem Settled.settle (h : link.Settled) (hr : link.Released) : link.settle = link := by
  rw [Link.settle, h.read_write, release_of_released hr]

-- The near end keeps its standing if nothing is queued and one of the loops goes on.
theorem near_settle (ho : link.connection.outbound = [])
    (hp : link.reading → link.duplex.far.standing = .live) (hl : link.writing || link.reading) :
    link.settle.duplex.near.standing = link.duplex.near.standing := by
  rw [settle, write_of_nothing ho]
  cases hr : link.reading
  case false =>
    rw [read_of_not_reading hr, release, if_pos hl]
  case true =>
    rw [read_release hr (hp hr)]
    rfl

end Link

namespace Session

variable {session : Session}

theorem standing_serveOne (session : Session) (text : String) (side : Side) :
    ((session.serveOne text).link.duplex.get side).standing =
      (session.link.duplex.get side).standing := by
  have ⟨_, h⟩ := session.duplex_serveOne text
  rw [h]
  cases side <;> rfl

-- What a link keeps in a turn of the server.
structure Kept (link link' : Link) : Prop where
  connection : link'.connection = link.connection
  writing    : link'.writing = link.writing
  reading    : link'.reading = link.reading
  standing   : ∀ side, (link'.duplex.get side).standing = (link.duplex.get side).standing

theorem Kept.serve (session : Session) : Kept session.link session.serve.link := by
  obtain ⟨_, _, _, he⟩ := session.serve_effect
  constructor
  case standing =>
    intro side
    by_cases hs : session.serving
    case neg => rw [serve_of_not_serving hs]
    case pos =>
      refine serve_keeps (P := fun _ link =>
        (link.duplex.get side).standing = (session.link.duplex.get side).standing)
        (fun s text => (s.standing_serveOne text side).trans) hs ?_
      cases side <;> rfl
  all_goals rw [he]

-- A server that goes on has a client that may still send.
theorem near_of_serving (h : session.serve.serving) :
    session.serve.link.duplex.near.standing = .live := by
  have hi := session.idle_serve h
  by_cases hs : session.serving
  case neg => exact absurd (serve_of_not_serving hs ▸ h) hs
  case pos =>
    have ⟨s, he⟩ : ∃ s : Session, session.serve =
        { s with serving := s.serving && !s.link.duplex.ended .far } :=
      ⟨_, by rw [serve, if_pos hs]⟩
    rw [he] at h hi ⊢
    have hi : s.link.duplex.far.inbox = [] := hi
    have ho : s.link.duplex.ended .far = false := by simpa using (Bool.and_eq_true_iff.mp h).right
    simpa [Duplex.ended, Duplex.get, Side.other, hi] using ho

theorem Idle.serve (h : session.Idle)
    (hn : session.serving → session.link.duplex.near.standing = .live) :
    session.serve = session := by
  by_cases hs : session.serving
  case neg => exact serve_of_not_serving hs
  case pos =>
    have hi := h hs
    have hn := hn hs
    obtain ⟨⟨_, ⟨_, ⟨_, _⟩⟩, _⟩, _⟩ := session
    cases hi
    simp_all [Session.serve, Duplex.drain, Duplex.get, Duplex.set, Duplex.ended, Side.other]

structure AtRest (session : Session) : Prop where
  link     : session.link.Settled
  released : session.link.Released
  idle     : session.Idle
  client   : session.serving → session.link.duplex.near.standing = .live

namespace AtRest

theorem start (config : LinkConfig) : (start config).AtRest where
  link     := .start config
  released := nofun
  idle _   := rfl
  client _ := rfl

theorem settle (h : session.AtRest) : session.settle = session := by
  have hl := h.link.settle h.released
  rw [settle_eq_served, served, hl, h.idle.serve h.client, hl]

end AtRest

-- Both are at rest once they have worked, whatever was done before to the wire and its ends.
theorem settle_atRest
    (present : session.link.reading → session.link.duplex.near.standing ≠ .dropped)
    (closed : session.link.reading = false → session.link.connection.closed) :
    session.settle.harvest.2.AtRest := by
  have h₁ := Link.settle_settled present closed
  have kept : Kept session.link.settle session.served.link :=
    .serve { session with link := session.link.settle }
  have near : session.served.link.duplex.near.standing =
    session.link.settle.duplex.near.standing := kept.standing .near
  have far : session.served.link.duplex.far.standing =
    session.link.settle.duplex.far.standing := kept.standing .far
  have h₂ := Link.settle_settled
    (fun hr => near ▸ h₁.present (kept.reading ▸ hr))
    (fun hr => kept.connection ▸ h₁.closed (kept.reading ▸ hr))
  constructor
  case link     => exact { h₂ with }
  case released => exact session.served.link.released_settle
  case idle     => exact session.idle_settle
  case client   =>
    intro hs
    have live : session.served.link.duplex.near.standing = .live := near_of_serving hs
    -- A client that runs no loop has left its end, and then the server would have stopped.
    have hl : session.served.link.writing || session.served.link.reading := by
      by_contra hl
      simp only [kept.writing, kept.reading, Bool.or_eq_true, not_or, Bool.not_eq_true] at hl
      rw [near, session.link.released_settle hl.left hl.right] at live
      cases live
    have ho : session.served.link.connection.outbound = [] := by
      rw [kept.connection, Link.settle_outbound]
    have hp : session.served.link.reading → session.served.link.duplex.far.standing = .live :=
      fun hr => far.trans <| h₁.peer (kept.reading ▸ hr)
    exact (Link.near_settle ho hp hl).trans live

-- What an event leaves alone at the client's end of the wire.
structure Nearby (session session' : Session) : Prop where
  reading  : session'.link.reading = session.link.reading
  standing : session'.link.duplex.near.standing = session.link.duplex.near.standing

namespace Nearby

theorem refl (session : Session) : Nearby session session :=
  ⟨rfl, rfl⟩

theorem signAndSend (session : Session) (command : Fields) (seed : String) :
    Nearby session (session.signAndSend command seed) := by
  rw [Session.signAndSend]
  split <;> exact ⟨rfl, rfl⟩

theorem pushRaw (session : Session) (frame : Json) :
    Nearby session (session.pushRaw frame).2 := by
  rw [Session.pushRaw]
  split
  case h_2 => exact refl session
  case h_1 duplex hs =>
    rw [Duplex.send?] at hs
    split at hs <;> cases hs
    exact ⟨rfl, rfl⟩

theorem push (session : Session) (kind : Stream.Kind) (body : Json) :
    Nearby session (session.push kind body).2 := by
  rw [Session.push]
  split
  case isTrue  => exact pushRaw session _
  case isFalse => exact refl session

theorem onEvent (session : Session) (event : Event) :
    Nearby session (session.onEvent event).2 := by
  cases event
  case act action =>
    have h := Link.Nearby.onEvent session.link (.act action)
    exact ⟨h.reading, h.standing⟩
  case signAndSend command seed => exact signAndSend session command seed
  case signAndSubmit tx seed => exact signAndSend session _ seed
  case push kind body => exact push session kind body
  case pushRaw frame => exact pushRaw session frame
  case disconnect =>
    rw [Session.onEvent, Session.disconnect, Duplex.close]
    split <;> exact ⟨rfl, rfl⟩
  all_goals exact ⟨rfl, rfl⟩

end Nearby

namespace AtRest

theorem step (h : session.AtRest) (event : Event) : (session.step event).2.AtRest := by
  have n := Nearby.onEvent session event
  have held := Held.onEvent session event
  exact settle_atRest (fun hr => n.standing ▸ h.link.present (n.reading ▸ hr))
    (fun hr => held.closed <| h.link.closed (n.reading ▸ hr))

theorem run (h : session.AtRest) (events : List Event) : (session.after events).AtRest := by
  induction events generalizing session
  case nil => exact h
  case cons event events hi => exact hi <| h.step event

end AtRest

end Session
end LedgerWire
