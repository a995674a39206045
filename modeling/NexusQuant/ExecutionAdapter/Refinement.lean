import NexusQuant.ExecutionAdapter.Paper
import NexusQuant.ExecutionCore.AuditTrail

/-!
# The paper adapter refines the core

Both ways of driving the core run one command of the reducer, and `Advances` says what that does to
the session: the events it gains are the venue's image of the audit event the core gained.  Every
operation is a chain of such steps, so `Refines`, the relation between a session and the execution
it was bound to, is proved of one step and carried over the calls.
-/

namespace NexusQuant.ExecutionAdapter

open ExecutionCore Run

/-! ## The image of the audit trail -/

/-- What an event of either side says at the venue boundary. -/
structure Boundary where
  type : AdapterEventType
  reason : String
  provenance : ExecutionProvenance
  ts : ℤ
deriving DecidableEq, Repr

def AdapterEvent.boundary (e : AdapterEvent) : Boundary := ⟨e.type, e.reason, e.provenance, e.ts⟩

/-- The image of an audit event under `mapCoreEventType`, nothing when it is internal. -/
def venueImage (e : ExecutionEvent) : Option Boundary :=
  (mapCoreEventType e.type).map fun type => ⟨type, e.reason, e.provenance, e.ts⟩

/-- A command the core accepted, and the event it recorded. -/
structure Recorded (core : ExecutionState) (c : ExecutionCommand) (e : ExecutionEvent) : Prop where
  ok : (reduceExecution core c).ok = true
  event : (reduceExecution core c).event = some e
  audit : (step core c).audit.events = core.audit.events ++ [e]
  history : (step core c).lifecycle.history = core.lifecycle.history ++ [(step core c).status]
  fits : e.type ∈ recordedAs (step core c).status
  ts : e.ts = c.now
  accepted : Accepted core c (step core c).books

theorem recorded_of_ok {core : ExecutionState} {c : ExecutionCommand}
    (h : (reduceExecution core c).ok = true) : ∃ e, Recorded core c e := by
  rcases reduceExecution_cases core c with ⟨why, message, now, hreject⟩ | ⟨k, hcommit, haccepted⟩
  · rw [hreject] at h
    cases h
  · have hfits := reduceExecution_eventFits core c
    rw [hcommit] at hfits
    have hstep : step core c = (commit core k).state := by rw [step, hcommit]
    refine ⟨_, h, by rw [hcommit]; rfl, by rw [hstep]; rfl, by rw [hstep]; rfl, ?_,
      (hfits _ rfl).2, ?_⟩
    · rw [hstep]
      exact (hfits _ rfl).1
    · rw [hstep]
      exact haccepted

/-! ## The statuses an accepted command leads to -/

section Statuses

variable {core : ExecutionState} {b : Books} {now : ℤ}

theorem status_arm (h : Accepted core (.arm now) b) : b.status = .ready := by
  cases h
  rfl

theorem status_open (h : Accepted core (.open now) b) : b.status = .opened := by
  cases h
  rfl

theorem status_submit (h : Accepted core (.submit now) b) : b.status = .submitted := by
  cases h
  rfl

theorem status_cancel {reason : Option String} (h : Accepted core (.cancel now reason) b) :
    b.status = .cancelled := by
  cases h
  rfl

/-- Only a submission leads to SUBMITTED. -/
theorem status_ne_submitted {c : ExecutionCommand} (h : Accepted core c b)
    (hc : ∀ now, c ≠ .submit now) : b.status ≠ .submitted := by
  cases h with
  | submit now hstatus hgate => exact absurd rfl (hc now)
  | fillEntry => unfold fillTarget; split <;> exact nofun
  | fillProtective => unfold reducedStatus; split <;> exact nofun
  | reduce => unfold reducedStatus; split <;> exact nofun
  | _ => exact nofun

theorem live_of_accepted {c : ExecutionCommand} (h : Accepted core c b) :
    isTerminal core.status = false := by
  have hlive : ∀ src dst, canTransition src dst → isTerminal src = false := by decide
  exact hlive _ _ h.legal

end Statuses

/-! ## One step of the core under a session -/

/-- The session `s'` is `s` over the next state of the core, with the image of the event `e`
appended. -/
structure Advances (s : AdapterSession) (e : ExecutionEvent) (next : ExecutionState)
    (s' : AdapterSession) : Prop where
  core : s'.core = some next
  status : s'.status = s.status
  submitted : s'.submitted = s.submitted
  events : ∃ new, s'.events = s.events ++ new ∧ new.map AdapterEvent.boundary = (venueImage e).toList ∧
    s'.seq = s.seq + new.length ∧ ∀ ev ∈ new, ev.seq = s.seq + 1

section Drive

variable {s : AdapterSession} {core : ExecutionState} {c : ExecutionCommand}

/-- An event without an image leaves the log as it is. -/
theorem advances_advanced {e : ExecutionEvent} (himage : mapCoreEventType e.type = none)
    (next : ExecutionState) (now : ℤ) : Advances s e next (s.advanced next now) where
  core := rfl
  status := rfl
  submitted := rfl
  events := by
    refine ⟨[], (List.append_nil _).symm, ?_, rfl, by simp⟩
    rw [venueImage, himage]
    rfl

theorem advances_emit {e : ExecutionEvent} {type : AdapterEventType}
    (himage : mapCoreEventType e.type = some type) (next : ExecutionState) (now : ℤ)
    (hts : e.ts = now) (orderId : Option String) :
    Advances s e next (emit (s.advanced next now) ⟨orderId, type, e.reason, e.provenance, now⟩).1 where
  core := rfl
  status := rfl
  submitted := rfl
  events := by
    refine ⟨[_], rfl, ?_, rfl, ?_⟩
    · rw [venueImage, himage, hts]
      rfl
    · intro ev hev
      rw [List.mem_singleton.mp hev]
      rfl

/-- Driving the core with an event either leaves the session alone or advances it. -/
theorem driveAndEmit_cases (hbound : s.core = some core) (c : ExecutionCommand)
    (tag : Option (Option String)) :
    ((driveAndEmit s c tag).ok = false ∧ (driveAndEmit s c tag).session = s ∧
      (reduceExecution core c).ok = false) ∨
    ((driveAndEmit s c tag).ok = true ∧ ∃ e, Recorded core c e ∧
      Advances s e (step core c) (driveAndEmit s c tag).session) := by
  unfold driveAndEmit advanceExecution
  rw [hbound]
  dsimp only
  by_cases hok : (reduceExecution core c).ok = false
  · rw [if_pos hok]
    exact .inl ⟨rfl, rfl, hok⟩
  · rw [if_neg hok]
    obtain ⟨e, hrec⟩ := recorded_of_ok (Bool.eq_true_of_not_eq_false hok)
    right
    rw [hrec.event]
    dsimp only
    -- Some events of the core stay inside: arming and opening have no image.
    cases himage : mapCoreEventType e.type with
    | none => exact ⟨rfl, e, hrec, advances_advanced himage _ _⟩
    | some type => exact ⟨rfl, e, hrec, advances_emit himage _ _ hrec.ts _⟩

/-- Driving it silently does the same where the event of the core has no image. -/
theorem driveSilent_cases (hbound : s.core = some core)
    (hsilent : ∀ e, Recorded core c e → mapCoreEventType e.type = none) :
    ((driveSilent s c).ok = false ∧ (driveSilent s c).session = s) ∨
    ((driveSilent s c).ok = true ∧ ∃ e, Recorded core c e ∧
      Advances s e (step core c) (driveSilent s c).session) := by
  unfold driveSilent advanceExecution
  rw [hbound]
  dsimp only
  by_cases hok : (reduceExecution core c).ok = false
  · rw [if_pos hok]
    exact .inl ⟨rfl, rfl⟩
  · rw [if_neg hok]
    obtain ⟨e, hrec⟩ := recorded_of_ok (Bool.eq_true_of_not_eq_false hok)
    exact .inr ⟨rfl, e, hrec, advances_advanced (hsilent e hrec) _ _⟩

theorem arm_silent (now : ℤ) : ∀ e, Recorded core (.arm now) e → mapCoreEventType e.type = none := by
  intro e hrec
  have hstatus : (step core (.arm now)).status = .ready := status_arm hrec.accepted
  have hfits := hrec.fits
  rw [hstatus] at hfits
  rw [List.mem_singleton.mp hfits]
  rfl

theorem open_silent (now : ℤ) :
    ∀ e, Recorded core (.open now) e → mapCoreEventType e.type = none := by
  intro e hrec
  have hstatus : (step core (.open now)).status = .opened := status_open hrec.accepted
  have hfits := hrec.fits
  rw [hstatus] at hfits
  rw [List.mem_singleton.mp hfits]
  rfl

end Drive

/-! ## The refinement relation -/

/-- The session `s` over `core` follows the execution it was bound to in the state `core₀`. -/
structure Tracks (core₀ : ExecutionState) (s : AdapterSession) (core : ExecutionState) : Prop where
  bound : s.core = some core
  reached : ∃ commands, core = run step core₀ commands
  trail : Trail core
  events : ∃ added, core.audit.events = core₀.audit.events ++ added ∧
    s.events.map AdapterEvent.boundary = added.filterMap venueImage
  seq : s.seq = s.events.length
  numbered : ∀ (k : ℕ) (e : AdapterEvent), s.events[k]? = some e → e.seq = k + 1

/-- Beyond that, the flag of the session marks the one submission, and a session that is shut down
is over a terminal execution. -/
structure Refines (core₀ : ExecutionState) (s : AdapterSession) (core : ExecutionState) : Prop
    extends Tracks core₀ s core where
  flag : s.submitted = true ↔ .submitted ∈ core.lifecycle.history
  once : s.events.countP (fun e => e.type = .submitted) = if s.submitted then 1 else 0
  closed : s.status = .shutdown → isTerminal core.status

section Steps

variable {core₀ core : ExecutionState} {s s' : AdapterSession} {c : ExecutionCommand}
  {e : ExecutionEvent}

theorem Tracks.advance (h : Tracks core₀ s core) (hrec : Recorded core c e)
    (hadv : Advances s e (step core c) s') : Tracks core₀ s' (step core c) := by
  obtain ⟨new, hevents, himage, hseq, hnew⟩ := hadv.events
  -- An audit event has at most one venue event as its image.
  have hone : new.length ≤ 1 := by
    rw [← List.length_map AdapterEvent.boundary, himage]
    exact Option.length_toList_le
  refine ⟨hadv.core, ?_, h.trail.step c, ?_, ?_, ?_⟩
  · obtain ⟨commands, hcore⟩ := h.reached
    refine ⟨commands ++ [c], ?_⟩
    rw [run_append, ← hcore]
    rfl
  · obtain ⟨added, haudit, hmap⟩ := h.events
    refine ⟨added ++ [e], ?_, ?_⟩
    · rw [hrec.audit, haudit, List.append_assoc]
    · rw [hevents, List.map_append, List.filterMap_append, hmap, himage]
      cases himg : venueImage e with
      | none => simp [himg]
      | some b => simp [himg]
  · rw [hseq, hevents, List.length_append, h.seq]
  · -- at most one event is new, and it takes the next number
    intro k ev hk
    rw [hevents] at hk
    by_cases hlt : k < s.events.length
    · rw [List.getElem?_append_left hlt] at hk
      exact h.numbered k ev hk
    · rw [List.getElem?_append_right (Nat.le_of_not_lt hlt)] at hk
      have hmem := List.mem_of_getElem? hk
      have hbound := (List.getElem?_eq_some_iff.mp hk).1
      rw [hnew ev hmem, h.seq]
      omega

theorem recordedAs_submitted : ∀ st, ExecutionEventType.submitted ∈ recordedAs st →
    st = .submitted := by
  decide

/-- The submissions among the events a step adds. -/
theorem Advances.countP (hadv : Advances s e (step core c) s') :
    s'.events.countP (fun ev => ev.type = .submitted) =
      s.events.countP (fun ev => ev.type = .submitted) + if e.type = .submitted then 1 else 0 := by
  obtain ⟨new, hevents, himage, -, -⟩ := hadv.events
  rw [hevents, List.countP_append]
  congr 1
  have hcount : new.countP (fun ev => ev.type = .submitted) =
      ((venueImage e).toList).countP (fun b => b.type = .submitted) := by
    rw [← himage, List.countP_map]
    rfl
  rw [hcount, venueImage]
  cases e.type <;> rfl

theorem Refines.advance (h : Refines core₀ s core) (hrec : Recorded core c e)
    (hadv : Advances s e (step core c) s') (hstatus : (step core c).status ≠ .submitted) :
    Refines core₀ s' (step core c) where
  toTracks := h.toTracks.advance hrec hadv
  flag := by
    rw [hadv.submitted, hrec.history, List.mem_append, List.mem_singleton]
    rw [h.flag]
    constructor
    · exact .inl
    -- Only a step to SUBMITTED could raise the flag.
    · rintro (hmem | heq)
      · exact hmem
      · exact absurd heq.symm hstatus
  once := by
    have htype : e.type ≠ .submitted := by
      intro heq
      have hfits := hrec.fits
      rw [heq] at hfits
      exact hstatus (recordedAs_submitted _ hfits)
    rw [hadv.countP, if_neg htype, Nat.add_zero, hadv.submitted]
    exact h.once
  closed := by
    intro hshut
    rw [hadv.status] at hshut
    -- a session that is shut down is over a terminal execution, which accepts nothing
    exact absurd (h.closed hshut) (by rw [live_of_accepted hrec.accepted]; decide)

/-- The submission itself: the flag is raised with the event. -/
theorem Refines.submission (h : Refines core₀ s core) {now : ℤ} (hflag : s.submitted = false)
    (hrec : Recorded core (.submit now) e) (hadv : Advances s e (step core (.submit now)) s') :
    Refines core₀ { s' with submitted := true } (step core (.submit now)) := by
  -- The event itself is like any other; what is new is that the flag goes up with it.
  have htracks := h.toTracks.advance hrec hadv
  have hstatus : (step core (.submit now)).status = .submitted := status_submit hrec.accepted
  have htype : e.type = .submitted := by
    have hfits := hrec.fits
    rw [hstatus] at hfits
    exact List.mem_singleton.mp hfits
  refine ⟨⟨htracks.bound, htracks.reached, htracks.trail, htracks.events, htracks.seq,
    htracks.numbered⟩, ?_, ?_, ?_⟩
  · rw [hrec.history, hstatus]
    simp
  · show s'.events.countP (fun ev => ev.type = .submitted) = 1
    rw [hadv.countP, h.once, hflag, htype]
    rfl
  · intro hshut
    have hshut' : s.status = .shutdown := hadv.status ▸ hshut
    exact absurd (h.closed hshut') (by rw [live_of_accepted hrec.accepted]; decide)

end Steps

/-! ## The operations -/

theorem validateBound_eq_none {s : AdapterSession}
    {rest : ExecutionState → Option AdapterFailureReason} (h : validateBound s rest = none) :
    ∃ core, s.core = some core ∧ rest core = none := by
  unfold validateBound at h
  rw [Option.or_eq_none_iff] at h
  -- A session that is not bound to an execution is refused.
  cases hcore : s.core with
  | none =>
      rw [hcore] at h
      cases h.2
  | some core =>
      rw [hcore] at h
      have hrest := h.2
      dsimp only at hrest
      split at hrest
      · cases hrest
      · exact ⟨core, rfl, hrest⟩

theorem validateBound_shutdown {s : AdapterSession} (h : s.status = .shutdown)
    (rest : ExecutionState → Option AdapterFailureReason) :
    validateBound s rest = some .adapterShutdown := by
  rw [validateBound, shutdownReason, if_pos h]
  rfl

theorem submitted_eq_false_of_validateSubmit {s : AdapterSession} {runtime : RuntimeContext}
    (h : validateSubmit s runtime = none) : s.submitted = false := by
  obtain ⟨core, -, hrest⟩ := validateBound_eq_none h
  split at hrest
  · cases hrest
  · rename_i hflag
    exact Bool.eq_false_of_not_eq_true hflag

/-- A call ends in a session that still refines the execution, and if it fails it has left the
session alone unless it was stopped by the kill switch or by the runtime. -/
structure CallSound (core₀ : ExecutionState) (s : AdapterSession) (r : AdapterResult) : Prop where
  refines : ∃ core, Refines core₀ r.session core
  refused : r.ok = false → r.session = s ∨ ∃ err ∈ r.error,
    err.reason = .core .killSwitch ∨ err.reason = .core .runtimeUnhealthy

section Calls

variable {core₀ core : ExecutionState} {s : AdapterSession}

theorem Refines.sound_of_session_eq (h : Refines core₀ s core) {r : AdapterResult}
    (heq : r.session = s) : CallSound core₀ s r where
  refines := by
    rw [heq]
    exact ⟨core, h⟩
  refused _ := .inl heq

theorem Refines.driveAndEmit (h : Refines core₀ s core) {c : ExecutionCommand}
    (hc : ∀ now, c ≠ .submit now) (tag : Option (Option String)) :
    ∃ core', Refines core₀ (driveAndEmit s c tag).session core' := by
  rcases driveAndEmit_cases h.bound c tag with ⟨-, hsame, -⟩ | ⟨-, e, hrec, hadv⟩
  · rw [hsame]
    exact ⟨core, h⟩
  · exact ⟨_, h.advance hrec hadv (status_ne_submitted hrec.accepted hc)⟩

/-- An operation that runs one command of the core. -/
theorem Refines.sound_toResult (h : Refines core₀ s core) {c : ExecutionCommand}
    (hc : ∀ now, c ≠ .submit now) (tag : Option (Option String)) :
    CallSound core₀ s (toResult (ExecutionAdapter.driveAndEmit s c tag)) where
  refines := by
    have hsession : (toResult (ExecutionAdapter.driveAndEmit s c tag)).session =
        (ExecutionAdapter.driveAndEmit s c tag).session := by
      unfold toResult
      split <;> rfl
    rw [hsession]
    exact h.driveAndEmit hc tag
  refused := by
    intro hok
    rcases driveAndEmit_cases h.bound c tag with ⟨hfailed, hsame, -⟩ | ⟨hdone, -⟩
    · left
      rw [toResult, hfailed]
      exact hsame
    · rw [toResult, hdone] at hok
      cases hok

theorem Refines.sound_failClosed (h : Refines core₀ s core) {c : ExecutionCommand}
    (hc : ∀ now, c ≠ .submit now) {reason : ExecutionFailureReason}
    (hreason : reason = .killSwitch ∨ reason = .runtimeUnhealthy) (message : String)
    (fatal : Bool) : CallSound core₀ s (failClosed s c reason message fatal) where
  refines := h.driveAndEmit hc none
  refused _ := by
    refine .inr ⟨_, rfl, ?_⟩
    rcases hreason with rfl | rfl
    · exact .inl rfl
    · exact .inr rfl

theorem Refines.sound_submit (h : Refines core₀ s core) (now : ℤ) (runtime : RuntimeContext) :
    CallSound core₀ s (submit s now runtime) := by
  unfold submit
  split
  · exact h.sound_failClosed (by simp) (.inl rfl) _ _
  · exact h.sound_failClosed (by simp) (.inr rfl) _ _
  · exact h.sound_of_session_eq rfl
  · rename_i hvalid
    have hflag := submitted_eq_false_of_validateSubmit hvalid
    -- Arming and submitting are two commands of the core; either may be refused.
    rcases driveSilent_cases h.bound (arm_silent now) with ⟨hfailed, -⟩ | ⟨harmed, e, hrec, hadv⟩
    · dsimp only
      rw [if_pos hfailed]
      exact h.sound_of_session_eq rfl
    have hready : (step core (.arm now)).status ≠ .submitted := by
      have hstatus : (step core (.arm now)).status = .ready := status_arm hrec.accepted
      rw [hstatus]
      decide
    have harmedRefines := h.advance hrec hadv hready
    dsimp only
    rw [harmed]
    rw [if_neg (by decide)]
    rcases driveAndEmit_cases harmedRefines.bound (.submit now) none with
      ⟨hfailed, -, -⟩ | ⟨hdone, e', hrec', hadv'⟩
    · -- the half-advanced session is thrown away
      rw [if_pos hfailed]
      exact h.sound_of_session_eq rfl
    · rw [hdone, if_neg (by decide), toResult, if_pos rfl]
      refine ⟨⟨_, harmedRefines.submission ?_ hrec' hadv'⟩, nofun⟩
      rw [hadv.submitted]
      exact hflag

theorem Refines.openIfFilled (h : Refines core₀ s core) (now : ℤ) :
    ∃ core', Refines core₀ (openIfFilled s now) core' := by
  unfold ExecutionAdapter.openIfFilled
  rw [h.bound]
  dsimp only
  split
  -- A refused OPEN is dropped without a word, as in the source.
  · rcases driveSilent_cases h.bound (open_silent now) with ⟨hfailed, -⟩ | ⟨hdone, e, hrec, hadv⟩
    · rw [hfailed]
      exact ⟨core, h⟩
    · rw [hdone]
      refine ⟨_, h.advance hrec hadv ?_⟩
      have hstatus : (step core (.open now)).status = .opened := status_open hrec.accepted
      rw [hstatus]
      decide
  · exact ⟨core, h⟩

theorem Refines.sound_fill (h : Refines core₀ s core) (now : ℤ) (orderId : String)
    (price quantity : JsNumber) : CallSound core₀ s (fill s now orderId price quantity) := by
  unfold fill
  split
  · exact h.sound_of_session_eq rfl
  · dsimp only
    split
    · exact h.sound_of_session_eq rfl
    · obtain ⟨core', hdriven⟩ := h.driveAndEmit (c := .fill now orderId price quantity)
        (by simp) (some (some orderId))
      rw [toResult, if_pos rfl]
      exact ⟨hdriven.openIfFilled now, nofun⟩

/-- After the cancellation that is part of a shutdown the execution is terminal. -/
theorem Refines.cancelIfLive (h : Refines core₀ s core) (now : ℤ) (reason : Option String) :
    ∃ core', Refines core₀ (cancelIfLive s now reason).1 core' ∧ isTerminal core'.status := by
  unfold ExecutionAdapter.cancelIfLive
  rw [h.bound]
  dsimp only
  split
  · rename_i hlive
    rw [h.trail.terminal] at hlive
    rcases driveAndEmit_cases h.bound (.cancel now (some (reason.getD "adapter shutdown")))
        (some none) with ⟨-, -, hrefused⟩ | ⟨hdone, e, hrec, hadv⟩
    · -- CANCEL is legal from every live status
      exfalso
      have hcan := (canTransition_of_live _ hlive).1
      rw [reduceExecution, if_neg (by rw [hlive]; simp), if_neg (by rw [hcan]; decide)] at hrefused
      cases hrefused
    · rw [hdone]
      have hstatus := status_cancel hrec.accepted
      change (step core _).status = .cancelled at hstatus
      refine ⟨_, h.advance hrec hadv ?_, ?_⟩
      · rw [hstatus]
        decide
      · rw [hstatus]
        decide
  · rename_i hlive
    refine ⟨core, h, ?_⟩
    rw [← h.trail.terminal]
    exact Bool.eq_true_of_not_eq_false hlive

theorem Refines.sound_shutdown (h : Refines core₀ s core) (now : ℤ) (reason : Option String) :
    CallSound core₀ s (shutdown s now reason) := by
  unfold shutdown
  split
  · exact h.sound_of_session_eq rfl
  · obtain ⟨core', href, hterminal⟩ := h.cancelIfLive now reason
    dsimp only
    rw [toResult, if_pos rfl]
    exact ⟨⟨core', ⟨⟨href.bound, href.reached, href.trail, href.events, href.seq, href.numbered⟩,
      href.flag, href.once, fun _ => hterminal⟩⟩, nofun⟩

theorem Refines.sound (h : Refines core₀ s core) (call : AdapterCommand) :
    CallSound core₀ s (paperCall s call) := by
  -- One case for each operation; `replace` is refused by every paper session.
  cases call with
  | submit now runtime => exact h.sound_submit now runtime
  | acknowledge now =>
      show CallSound core₀ s (acknowledge s now)
      unfold acknowledge
      split
      · exact h.sound_of_session_eq rfl
      · exact h.sound_toResult (by simp) _
  | fill now orderId price quantity => exact h.sound_fill now orderId price quantity
  | cancel now orderId reason =>
      show CallSound core₀ s (cancel s now orderId reason)
      unfold cancel
      split
      · exact h.sound_of_session_eq rfl
      · exact h.sound_toResult (by simp) _
  | cancelAll now reason =>
      show CallSound core₀ s (cancelAll s now reason)
      unfold cancelAll
      split
      · exact h.sound_of_session_eq rfl
      · exact h.sound_toResult (by simp) _
  | replace now orderId reason => exact h.sound_of_session_eq rfl
  | shutdown now reason => exact h.sound_shutdown now reason

end Calls

/-- A session that is shut down is changed by no call. -/
theorem shutdown_unchanged {s : AdapterSession} (h : s.status = .shutdown)
    (call : AdapterCommand) : (paperCall s call).session = s := by
  -- Every validation looks for the shutdown first.
  cases call with
  | submit now runtime =>
      show (submit s now runtime).session = s
      rw [submit, validateSubmit, validateBound_shutdown h]
      rfl
  | acknowledge now =>
      show (acknowledge s now).session = s
      rw [acknowledge, validateAcknowledge, validateBound_shutdown h]
      rfl
  | fill now orderId price quantity =>
      show (fill s now orderId price quantity).session = s
      rw [fill, validateFill, validateBound_shutdown h]
      rfl
  | cancel now orderId reason =>
      show (cancel s now orderId reason).session = s
      rw [cancel, validateCancel, validateBound_shutdown h]
      rfl
  | cancelAll now reason =>
      show (cancelAll s now reason).session = s
      rw [cancelAll, validateCancelAll, validateBound_shutdown h]
      rfl
  | replace now orderId reason => rfl
  | shutdown now reason =>
      show (shutdown s now reason).session = s
      rw [shutdown, if_pos h]
      rfl

/-! ## Every run -/

def paperStep (s : AdapterSession) (call : AdapterCommand) : AdapterSession :=
  (paperCall s call).session

/-- An execution that has been planned and nothing else. -/
def plannedCore (intent : ExecutionIntent) (plan : ExecutionPlan) (now : ℤ) : ExecutionState :=
  step (initExecutionState intent (some plan)) (.plan now)

theorem refines_createSession (intent : ExecutionIntent) (plan : ExecutionPlan) (now : ℤ)
    (opts : CreateSessionOptions) :
    Refines (plannedCore intent plan now) (createSession .paper (plannedCore intent plan now) opts)
      (plannedCore intent plan now) where
  bound := rfl
  reached := ⟨[], rfl⟩
  trail := (trail_init intent (some plan)).step (.plan now)
  events := ⟨[], (List.append_nil _).symm, rfl⟩
  seq := rfl
  numbered := by
    intro k e hk
    cases hk
  flag := by
    -- Planning has not submitted anything yet.
    constructor
    · exact nofun
    · intro hmem
      change ExecutionStatus.submitted ∈ [.notCreated, .planned] at hmem
      exact absurd hmem (by decide)
  once := rfl
  closed := nofun

/-- For every session bound to a planned execution and every list of calls: the core of the session
is reached by commands of the reducer, its events are the image of the audit events added since, the
flag marks the one submission, a failed call leaves the session alone unless it is a stop, and a
session that is shut down is over a terminal execution and stays as it is. -/
theorem paper_refines_core (intent : ExecutionIntent) (plan : ExecutionPlan) (now : ℤ)
    (opts : CreateSessionOptions) (calls : List AdapterCommand) :
    let core₀ := plannedCore intent plan now
    let s := run paperStep (createSession .paper core₀ opts) calls
    (∃ core, s.core = some core ∧
      (∃ commands, core = run step core₀ commands) ∧
      (∃ added, core.audit.events = core₀.audit.events ++ added ∧
        s.events.map AdapterEvent.boundary = added.filterMap venueImage) ∧
      (s.submitted = true ↔ .submitted ∈ core.lifecycle.history) ∧
      (s.status = .shutdown → isTerminal core.status)) ∧
    s.seq = s.events.length ∧
    (∀ (k : ℕ) (e : AdapterEvent), s.events[k]? = some e → e.seq = k + 1) ∧
    s.events.countP (fun e => e.type = .submitted) ≤ 1 ∧
    ∀ call,
      ((paperCall s call).ok = false → (paperCall s call).session = s ∨
        ∃ err ∈ (paperCall s call).error,
          err.reason = .core .killSwitch ∨ err.reason = .core .runtimeUnhealthy) ∧
      (s.status = .shutdown → (paperCall s call).session = s) := by
  intro core₀ s
  have hstep : ∀ (s : AdapterSession) (call : AdapterCommand), (∃ core, Refines core₀ s core) →
      ∃ core, Refines core₀ (paperStep s call) core := by
    intro s call ⟨core, href⟩
    exact (href.sound call).refines
  -- Every session of the run refines some execution of the core; the conjuncts are its fields.
  obtain ⟨core, href⟩ : ∃ core, Refines core₀ s core :=
    run_keeps hstep ⟨core₀, refines_createSession intent plan now opts⟩ calls
  refine ⟨⟨core, href.bound, href.reached, href.events, href.flag, href.closed⟩, href.seq,
    href.numbered, ?_, fun call => ⟨(href.sound call).refused, fun h => shutdown_unchanged h call⟩⟩
  rw [href.once]
  split <;> decide

end NexusQuant.ExecutionAdapter
