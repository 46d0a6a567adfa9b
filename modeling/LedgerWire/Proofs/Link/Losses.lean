import LedgerWire.Proofs.Link.Ready

namespace LedgerWire

-- The frames that are lost if their sends meet these errors one after the other, by id.
def lost : List Outbound → List LinkError → List (Nat × LinkError)
  | .frame id _ :: items, error :: errors => (id, error) :: lost items errors
  | _, _                                  => []

theorem lost_of_no_error (items : List Outbound) : lost items [] = [] := by
  cases items
  case nil            => rfl
  case cons item items => cases item <;> rfl

theorem map_fst_lost_sublist (items : List Outbound) (errors : List LinkError) :
    ((lost items errors).map (·.1)).Sublist (items.filterMap Outbound.id?) := by
  induction items generalizing errors
  case nil => exact .slnil
  case cons item items hi =>
    cases item <;> cases errors
    case frame.cons id text error errors => exact (hi errors).cons_cons id
    all_goals exact List.nil_sublist _

namespace Connection

variable {c : Connection} {call : Call} {frames : List (Nat × LinkError)}

def failAll (c : Connection) (frames : List (Nat × LinkError)) : Connection :=
  frames.foldl (fun c (id, error) => c.failRequest id error) c

-- The outcome of a call whose frame is among the lost ones.
def spoiled (frames : List (Nat × LinkError)) (call : Call) : Option (Outcome LinkError) :=
  (frames.lookup call.id).map .failed

theorem spoiled_cons (id : Nat) (error : LinkError) (frames : List (Nat × LinkError))
    (call : Call) : spoiled ((id, error) :: frames) call =
      if call.id = id then some (.failed error) else spoiled frames call := by
  rw [spoiled, List.lookup_cons]
  split
  case h_1 h => rw [if_pos (by simpa using h), Option.map_some]
  case h_2 h => rw [if_neg (by simpa using h), spoiled]

theorem spoiled_eq_none (h : ∀ p ∈ frames, p.1 ≠ call.id) : spoiled frames call = none := by
  rw [spoiled, Option.map_eq_none_iff, List.lookup_eq_none_iff]
  exact fun p mem => by simpa using (h p mem).symm

-- Where a rule ends the call at some place and none before it, that call can be ended first.
theorem retire_first (h : c.Coherent) {before after : List Call}
    (hc : c.calls = before ++ call :: after) {outcome : Outcome LinkError}
    {verdict verdict' : Call → Option (Outcome LinkError)}
    (hb : ∀ other ∈ before, verdict other = none ∧ verdict' other = none)
    (hv : verdict call = some outcome) (ha : ∀ other ∈ after, verdict other = verdict' other) :
    (c.retire (only call.id outcome)).retire verdict' = c.retire verdict := by
  have hs : spared verdict' (before ++ after) = spared verdict c.calls := by
    have hsb := spared_of_none fun other mem => (hb other mem).left
    have hsb' := spared_of_none fun other mem => (hb other mem).right
    have hsa : after.filter (fun other => (verdict other).isNone) =
        after.filter fun other => (verdict' other).isNone :=
      List.filter_congr fun other mem => by rw [ha other mem]
    rw [spared] at hsb hsb'
    simp [spared, hc, hsb, hsb', hv, hsa]
  have ho : (call.ticket, outcome) :: outcomes verdict' (before ++ after) =
      outcomes verdict c.calls := by
    have hob := outcomes_of_none fun other mem => (hb other mem).left
    have hob' := outcomes_of_none fun other mem => (hb other mem).right
    have hoa : after.filterMap (fun other => (verdict other).map (other.ticket, ·)) =
        after.filterMap fun other => (verdict' other).map (other.ticket, ·) :=
      List.filterMap_congr fun other mem => by rw [ha other mem]
    rw [outcomes] at hob hob'
    simp [outcomes, hc, hob, hob', hv, hoa]
  rw [retire_only outcome h hc]
  simp only [Connection.retire, hs, ← ho, List.append_assoc, List.singleton_append]

-- Frames are lost in the order in which their calls were made, so to fail one request after the
-- other is to end all these calls at once.
theorem failAll_eq (h : c.Coherent) (hc : c.calls.Pairwise (·.id < ·.id))
    (hf : frames.Pairwise (·.1 < ·.1)) : c.failAll frames = c.retire (spoiled frames) := by
  induction frames generalizing c
  case nil => exact (retire_none h fun _ _ => rfl).symm
  case cons p frames hi =>
    obtain ⟨id, error⟩ := p
    have ⟨hlt, hf⟩ := List.pairwise_cons.mp hf
    have hr := failRequest_eq h id error
    have hs := @hi (c.failRequest id error) (hr ▸ h.retire) (hr ▸ hc.filter _) hf
    rw [failAll] at hs ⊢
    rw [List.foldl_cons, hs, hr]
    by_cases hm : ∃ call ∈ c.calls, call.id = id
    case neg =>
      have hn : ∀ call ∈ c.calls, call.id ≠ id := fun call mem he => hm ⟨call, mem, he⟩
      have ho : c.retire (only id (.failed error)) = c :=
        retire_none h fun call mem => if_neg (hn call mem)
      rw [ho]
      exact retire_congr fun call mem => by rw [spoiled_cons, if_neg (hn call mem)]
    case pos =>
      obtain ⟨call, mem, rfl⟩ := hm
      obtain ⟨before, after, hb⟩ := List.append_of_mem mem
      -- The calls before this one have lower ids than any frame that is lost.
      have ⟨_, ha, hl⟩ := List.pairwise_append.mp (hb ▸ hc)
      refine retire_first h hb (fun other mem => ?_) ?_ fun other mem => ?_
      case refine_1 =>
        have hi := hl other mem call (.head _)
        have hn : spoiled frames other = none :=
          spoiled_eq_none fun p hp => by have := hlt p hp; dsimp only at this; omega
        exact ⟨by rw [spoiled_cons, if_neg (by omega), hn], hn⟩
      case refine_2 => rw [spoiled_cons, if_pos rfl]
      case refine_3 =>
        have hi := (List.pairwise_cons.mp ha).left other mem
        rw [spoiled_cons, if_neg (by omega)]

end Connection

namespace Link

variable {link : Link} {items : List Outbound} {errors : List LinkError}

-- What becomes of these frames if their sends meet these errors.
def lossy (items : List Outbound) (errors : List LinkError) : List (Outbound × Fate) :=
  (items.zip errors).map (fun (item, error) => (item, .failed error)) ++
    (items.drop errors.length).map (·, .done)

namespace Writable

theorem sending (h : link.Writable) (texts : List String) :
    Writable { link with duplex := link.duplex.sending texts } :=
  { h with }

theorem writeOne_sent (h : link.Writable) (hd : link.duplex.far.standing ≠ .dropped)
    (hs : link.faults.sends = []) (id : Nat) (text : String) :
    link.fate (.frame id text) = .done ∧
      link.writeOne (.frame id text) = { link with duplex := link.duplex.sending [text] } := by
  have he := h.send hd hs text
  constructor
  case left  => simp only [fate, if_pos h.writing, he, Fate.ofResult]
  case right => simp only [Link.writeOne, if_pos h.writing, he]

theorem writeOne_lost (h : link.Writable) {error : LinkError} (hn : error ≠ .closed)
    (hs : link.faults.sends = error :: errors) (id : Nat) (text : String) :
    link.fate (.frame id text) = .failed error ∧
      link.writeOne (.frame id text) = { link with
        connection := link.connection.failRequest id error
        faults     := { link.faults with sends := errors } } := by
  have he : link.send text = (.error error, { link with
      faults := { link.faults with sends := errors } }) := by rw [Link.send, hs]
  constructor
  case left  => simp only [fate, if_pos h.writing, he, Fate.ofResult]
  case right => simp only [Link.writeOne, if_pos h.writing, he, writeFailed, if_neg hn]

-- The frames at the front of the queue use up the errors, and those behind are sent.
theorem foldl_lossy (h : link.Writable) (hd : link.duplex.far.standing ≠ .dropped)
    (hc : .close ∉ items) (hs : link.faults.sends = errors) (hf : .closed ∉ errors) :
    link.fates items = lossy items errors ∧
    items.foldl Link.writeOne link = { link with
      connection := link.connection.failAll (lost items errors)
      duplex     := link.duplex.sending ((items.drop errors.length).filterMap Outbound.text?)
      faults     := { link.faults with sends := errors.drop items.length } } := by
  induction items generalizing link errors
  case nil =>
    subst hs
    simp [fates, lossy, Connection.failAll, lost, Duplex.sending]
  case cons item items hi =>
    cases item
    case close => exact absurd (.head _) hc
    case frame id text =>
      have hc : .close ∉ items := fun mem => hc (.tail _ mem)
      cases errors
      case nil =>
        obtain ⟨ht, hw⟩ := h.writeOne_sent hd hs id text
        obtain ⟨hr, hl⟩ := hi (h.sending [text]) hd hc hs hf
        rw [fates, ht, List.foldl_cons, hw, hr, hl]
        simp [lossy, lost, Connection.failAll, Duplex.sending, Outbound.text?]
      case cons error errors =>
        obtain ⟨he, hf⟩ := List.mem_cons.not.trans not_or |>.mp hf
        obtain ⟨ht, hw⟩ := h.writeOne_lost (Ne.symm he) hs id text
        obtain ⟨hr, hl⟩ := @hi { link with
          connection := link.connection.failRequest id error
          faults     := { link.faults with sends := errors } } errors { h with } hd hc rfl hf
        rw [fates, ht, List.foldl_cons, hw, hr, hl]
        simp [lossy, lost, Connection.failAll]

theorem settle_lossy (h : link.Writable) (hr : link.reading) (hl : link.duplex.far.standing = .live)
    (hi : link.duplex.near.inbox = []) (hc : .close ∉ link.connection.outbound)
    (hf : .closed ∉ link.faults.sends) :
    link.settle.connection =
      link.connection.flushed.failAll (lost link.connection.outbound link.faults.sends) := by
  have u := Undisturbed.write link
  have hs : link.settle.connection = link.write.connection := by
    rw [settle, read_release (u.reading.trans hr) (u.peer.trans hl),
      drained_connection (u.inbox.trans hi)]
  have hd : link.duplex.far.standing ≠ .dropped := by simp [hl]
  have hw := @foldl_lossy { link with connection := link.connection.flushed } _ _
    { h with } hd hc rfl hf
  exact hs.trans <| congrArg _ hw.right

end Writable

end Link
end LedgerWire
