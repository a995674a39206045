import NexusQuant.ExecutionAdapter.Refinement
import NexusQuant.ExecutionCore.CreateExecution

/-!
# The opt-in

`null.ts` refuses every call but a shutdown, and `factory.ts` selects it unless the paper adapter is asked
for and enabled.  With the guards at creation and at submission, an order goes out only if every switch
on the way is set for it; which of the calls decides about it can be read off the calls.
-/

namespace NexusQuant.ExecutionAdapter

open ExecutionCore Run

def nullUnavailable : String := "no execution venue is bound (null adapter)"

/-- The refusal every operation but the shutdown answers with. -/
def nullRefusal (session : AdapterSession) (operation : String) (now : ℤ) : AdapterResult :=
  fail session .adapterUnavailable (operation ++ " refused — " ++ nullUnavailable) now false

/-- Nothing is cancelled: the session is marked, whatever it is bound to. -/
def nullShutdown (session : AdapterSession) (now : ℤ) : AdapterResult :=
  ⟨true, { session with status := .shutdown, updatedAt := now, clock := now }, [], none⟩

/-- One call of the null adapter. -/
def nullCall (session : AdapterSession) : AdapterCommand → AdapterResult
  | .submit now _ => nullRefusal session "submit" now
  | .acknowledge now => nullRefusal session "acknowledge" now
  | .fill now _ _ _ => nullRefusal session "fill" now
  | .cancel now _ _ => nullRefusal session "cancel" now
  | .cancelAll now _ => nullRefusal session "cancelAll" now
  | .replace now _ _ => nullRefusal session "replace" now
  | .shutdown now _ => nullShutdown session now

structure Adapter where
  kind : AdapterKind
  call : AdapterSession → AdapterCommand → AdapterResult

def nullExecutionAdapter : Adapter := ⟨.null, nullCall⟩

def paperExecutionAdapter : Adapter := ⟨.paper, paperCall⟩

structure AdapterConfig where
  kind : Option AdapterKind := none
  enabled : Option Bool := none
  mode : Option ExecutionMode := none
  venue : Option ExecutionVenue := none

/-- A LIVE kind has no adapter of its own. -/
def createAdapter (config : AdapterConfig) : Adapter :=
  if config.kind = some .paper ∧ config.enabled = some true then paperExecutionAdapter
  else nullExecutionAdapter

/-- No call of the null adapter reaches the core. -/
theorem nullCall_core (session : AdapterSession) (call : AdapterCommand) :
    (nullCall session call).session.core = session.core := by
  cases call with
  | shutdown now reason => rfl
  | _ => rfl

/-- No call of the paper adapter changes a terminal execution. -/
theorem paperCall_core_of_terminal {session : AdapterSession} {core : ExecutionState}
    (hcore : session.core = some core) (hterminal : isTerminal core.status)
    (hlifecycle : core.lifecycle.terminal) (call : AdapterCommand) :
    (paperCall session call).session.core = some core := by
  -- Every gate looks at the status before it lets a command through.
  have hrefused : ∀ rest, ∃ reason, reason ≠ .core .killSwitch ∧ reason ≠ .core .runtimeUnhealthy ∧
      validateBound session rest = some reason := by
    intro rest
    by_cases hdown : session.status = .shutdown
    · exact ⟨_, by simp, by simp, validateBound_shutdown hdown rest⟩
    · exact ⟨.terminal, by simp, by simp, by simp [validateBound, shutdownReason, hdown, hcore, hterminal]⟩
  cases call with
  | submit now runtime =>
      obtain ⟨reason, hkill, hunhealthy, hreason⟩ := hrefused _
      show (submit session now runtime).session.core = some core
      unfold submit
      rw [show validateSubmit session runtime = some reason from hreason]
      split
      · rename_i heq
        exact absurd (Option.some.inj heq) hkill
      · rename_i heq
        exact absurd (Option.some.inj heq) hunhealthy
      · exact hcore
      · rename_i heq
        cases heq
  | acknowledge now =>
      obtain ⟨reason, -, -, hreason⟩ := hrefused _
      show (acknowledge session now).session.core = some core
      rw [acknowledge, show validateAcknowledge session = some reason from hreason]
      exact hcore
  | fill now orderId price quantity =>
      obtain ⟨reason, -, -, hreason⟩ := hrefused _
      show (fill session now orderId price quantity).session.core = some core
      rw [fill, show validateFill session orderId price quantity = some reason from hreason]
      exact hcore
  | cancel now orderId reason =>
      obtain ⟨why, -, -, hwhy⟩ := hrefused _
      show (cancel session now orderId reason).session.core = some core
      rw [cancel, show validateCancel session orderId = some why from hwhy]
      exact hcore
  | cancelAll now reason =>
      obtain ⟨why, -, -, hwhy⟩ := hrefused _
      show (cancelAll session now reason).session.core = some core
      rw [cancelAll, show validateCancelAll session = some why from hwhy]
      exact hcore
  | replace now orderId reason => exact hcore
  | shutdown now reason =>
      show (shutdown session now reason).session.core = some core
      unfold shutdown
      split
      · exact hcore
      · have hkept : cancelIfLive session now reason = (session, []) := by
          simp [cancelIfLive, hcore, hlifecycle]
        rw [hkept]
        exact hcore

/-! ## The deployment -/

def Adapter.step (adapter : Adapter) (s : AdapterSession) (call : AdapterCommand) : AdapterSession :=
  (adapter.call s call).session

/-- The session a created execution is bound to, with the adapter of the configuration. -/
def deploy (input : ExecutionInput) (config : AdapterConfig) (opts : CreateSessionOptions) :
    Option AdapterSession :=
  (createExecution input).state.map fun core => createSession (createAdapter config).kind core opts

/-- The execution after the calls, if one was created. -/
def coreAfter (input : ExecutionInput) (config : AdapterConfig) (opts : CreateSessionOptions)
    (calls : List AdapterCommand) : Option ExecutionState :=
  (deploy input config opts).bind fun session =>
    (run (createAdapter config).step session calls).core

/-- The calls that reach the core of an execution that has not been submitted. -/
def reachesCore (intent : ExecutionIntent) : AdapterCommand → Bool
  | .submit _ _ | .cancelAll _ _ | .shutdown _ _ => true
  | .cancel _ orderId _ => (buildOrders intent).any fun o => o.orderId = orderId
  | .acknowledge _ | .fill _ _ _ _ | .replace _ _ _ => false

/-- A submission that nothing operational blocks. -/
def AdapterCommand.isClearSubmit : AdapterCommand → Bool
  | .submit _ runtime => runtimeBlockReason runtime = none
  | _ => false

/-! ## Before the first call that reaches the core -/

theorem orderId_ne_empty {intent : ExecutionIntent} {o : ExecutionOrder}
    (ho : o ∈ buildOrders intent) : o.orderId ≠ "" := by
  have hid : ∀ name i, makeOrderId (makePlanId intent.intentId) name i ≠ "" := by
    intro name i h
    have hlength := congrArg String.length h
    simp [makeOrderId, String.length_append] at hlength
  simp only [buildOrders, List.mem_cons, List.mem_mapIdx] at ho
  rcases ho with rfl | rfl | ⟨i, hi, rfl⟩
  · exact hid "entry" 0
  · exact hid "stop" 1
  · exact hid "target" (i + 2)

/-- The plan of an intent has its identifiers and its clocks. -/
theorem planIntegrity_buildExecutionPlan (intent : ExecutionIntent) :
    planIntegrityReason (buildExecutionPlan intent) = none := by
  unfold planIntegrityReason
  rw [if_neg (by simp [isFiniteClock, JsNumber.isFinite])]
  rw [List.findSome?_eq_none_iff]
  intro o ho
  rw [if_neg (orderId_ne_empty ho)]
  simp [isFiniteClock, JsNumber.isFinite]

/-- The execution right after it was planned. -/
def plannedExecution (intent : ExecutionIntent) (now : ℤ) : ExecutionState :=
  step (start intent) (.plan now)

/-- The session of an execution that has been planned and nothing else. -/
structure Waiting (intent : ExecutionIntent) (now : ℤ) (s : AdapterSession) : Prop where
  core : s.core = some (plannedExecution intent now)
  submitted : s.submitted = false
  status : s.status ≠ .shutdown

/-- The session of an execution that ended before anything went out. -/
structure Stopped (s : AdapterSession) (core : ExecutionState) : Prop where
  bound : s.core = some core
  terminal : isTerminal core.status
  lifecycle : core.lifecycle.terminal
  unsent : Unsent core.books

section Planned

variable {intent : ExecutionIntent} {now : ℤ} {s : AdapterSession}

theorem unsent_step {core : ExecutionState} {c : ExecutionCommand} (h : Unsent core.books)
    (hstatus : (step core c).status ≠ .submitted) : Unsent (step core c).books := by
  rcases reduceExecution_cases core c with ⟨why, message, time, hreject⟩ | ⟨k, hcommit, haccepted⟩
  · rw [step, hreject]
    exact h
  · rw [step, hcommit] at hstatus ⊢
    exact haccepted.unsent h hstatus

theorem unsent_planned (intent : ExecutionIntent) (now : ℤ) :
    Unsent (plannedExecution intent now).books :=
  unsent_step (start_unsent intent) (by rw [start_planned]; decide)

theorem trail_planned (intent : ExecutionIntent) (now : ℤ) : Trail (plannedExecution intent now) :=
  (trail_init intent _).step (.plan now)

theorem Waiting.validateBound (h : Waiting intent now s)
    (rest : ExecutionState → Option AdapterFailureReason) :
    validateBound s rest = rest (plannedExecution intent now) := by
  have hlive : isTerminal (plannedExecution intent now).status = false := rfl
  simp [ExecutionAdapter.validateBound, shutdownReason, h.status, h.core, hlive]

/-- A call that does not reach the core leaves everything as it is. -/
theorem Waiting.keep (h : Waiting intent now s) {call : AdapterCommand}
    (hcall : reachesCore intent call = false) : (paperCall s call).session = s := by
  cases call with
  | submit time runtime => cases hcall
  | cancelAll time reason => cases hcall
  | shutdown time reason => cases hcall
  | replace time orderId reason => rfl
  | acknowledge time =>
      have hrefused : validateAcknowledge s = some .notSubmitted := by
        rw [validateAcknowledge, h.validateBound, h.submitted]
        rfl
      show (acknowledge s time).session = s
      rw [acknowledge, hrefused]
      rfl
  | fill time orderId price quantity =>
      have hrefused : validateFill s orderId price quantity = some .notSubmitted := by
        rw [validateFill, h.validateBound, h.submitted]
        rfl
      show (fill s time orderId price quantity).session = s
      rw [fill, hrefused]
      rfl
  | cancel time orderId reason =>
      have hunknown : unknownOrder (plannedExecution intent now) orderId := by
        have hnone : ∀ o ∈ buildOrders intent, o.orderId ≠ orderId := by
          simpa [reachesCore] using hcall
        have horders : (plannedExecution intent now).orders = buildOrders intent := rfl
        simpa [unknownOrder, horders] using .inr hnone
      have hrefused : validateCancel s orderId = some .unknownOrder := by
        rw [validateCancel, h.validateBound, if_pos hunknown]
      show (cancel s time orderId reason).session = s
      rw [cancel, hrefused]
      rfl

/-- A command that the planned execution accepts. -/
theorem Waiting.driveAndEmit (h : Waiting intent now s) {c : ExecutionCommand}
    (hok : (reduceExecution (plannedExecution intent now) c).ok = true) (tag : Option (Option String)) :
    (driveAndEmit s c tag).ok = true ∧
      (driveAndEmit s c tag).session.core = some (step (plannedExecution intent now) c) := by
  rcases driveAndEmit_cases h.core c tag with ⟨-, -, hrefused⟩ | ⟨hdone, e, -, hadv⟩
  · rw [hok] at hrefused
    cases hrefused
  · exact ⟨hdone, hadv.core⟩

theorem stopped_of_step {c : ExecutionCommand}
    (hcore : s.core = some (step (plannedExecution intent now) c))
    (hterminal : isTerminal (step (plannedExecution intent now) c).status) :
    Stopped s (step (plannedExecution intent now) c) where
  bound := hcore
  terminal := hterminal
  lifecycle := by
    rw [((trail_planned intent now).step c).terminal]
    exact hterminal
  unsent := by
    refine unsent_step (unsent_planned intent now) ?_
    intro hsubmitted
    rw [hsubmitted] at hterminal
    cases hterminal

theorem runtimeBlockReason_cases (runtime : RuntimeContext) :
    runtimeBlockReason runtime = none ∨ runtimeBlockReason runtime = some .killSwitch ∨
      runtimeBlockReason runtime = some .runtimeUnhealthy := by
  unfold runtimeBlockReason
  split
  · exact .inr (.inl rfl)
  · split
    · exact .inr (.inr rfl)
    · exact .inl rfl

/-- A call that reaches the core and is no clear submission ends the execution. -/
theorem Waiting.stopped (h : Waiting intent now s) {call : AdapterCommand}
    (hcall : reachesCore intent call) (hclear : call.isClearSubmit = false) :
    ∃ core, Stopped (paperCall s call).session core := by
  have hdriven : ∀ time reason tag,
      ∃ core, Stopped (toResult (ExecutionAdapter.driveAndEmit s (.cancel time reason) tag)).session
        core := by
    intro time reason tag
    obtain ⟨hdone, hcore⟩ := h.driveAndEmit (c := .cancel time reason) rfl tag
    rw [toResult, hdone, if_pos rfl]
    exact ⟨_, stopped_of_step hcore rfl⟩
  cases call with
  | acknowledge time => cases hcall
  | fill time orderId price quantity => cases hcall
  | replace time orderId reason => cases hcall
  | submit time runtime =>
      have hblocked : runtimeBlockReason runtime ≠ none := by
        simpa [AdapterCommand.isClearSubmit] using hclear
      have hvalid : ∀ reason, runtimeBlockReason runtime = some reason →
          validateSubmit s runtime = some (.core reason) := by
        intro reason hreason
        rw [validateSubmit, h.validateBound, h.submitted, hreason]
        rfl
      show ∃ core, Stopped (submit s time runtime).session core
      unfold submit
      rcases runtimeBlockReason_cases runtime with hreason | hreason | hreason
      · exact absurd hreason hblocked
      · rw [hvalid _ hreason]
        exact ⟨_, stopped_of_step (h.driveAndEmit (c := .kill time) rfl none).2 rfl⟩
      · rw [hvalid _ hreason]
        exact ⟨_, stopped_of_step (h.driveAndEmit (c := .runtimeUnhealthy time) rfl none).2 rfl⟩
  | cancel time orderId reason =>
      have hknown : ¬unknownOrder (plannedExecution intent now) orderId := by
        obtain ⟨o, ho, hid⟩ := List.any_eq_true.mp hcall
        have horders : (plannedExecution intent now).orders = buildOrders intent := rfl
        have hid : o.orderId = orderId := of_decide_eq_true hid
        have hempty := orderId_ne_empty ho
        rw [hid] at hempty
        simpa [unknownOrder, horders, hempty] using ⟨o, ho, hid⟩
      have hvalid : validateCancel s orderId = none := by
        rw [validateCancel, h.validateBound, if_neg hknown]
      show ∃ core, Stopped (cancel s time orderId reason).session core
      rw [cancel, hvalid]
      exact hdriven _ _ _
  | cancelAll time reason =>
      have hvalid : validateCancelAll s = none := h.validateBound _
      show ∃ core, Stopped (cancelAll s time reason).session core
      rw [cancelAll, hvalid]
      exact hdriven _ _ _
  | shutdown time reason =>
      have hlive : (plannedExecution intent now).lifecycle.terminal = false := rfl
      obtain ⟨hdone, hcore⟩ := h.driveAndEmit
        (c := .cancel time (some (reason.getD "adapter shutdown"))) rfl (some none)
      show ∃ core, Stopped (shutdown s time reason).session core
      rw [shutdown, if_neg h.status, cancelIfLive, h.core]
      dsimp only
      rw [if_pos hlive, hdone, if_pos rfl]
      exact ⟨_, stopped_of_step hcore rfl⟩

/-- ARM and SUBMIT, where they are due and the plan is submittable. -/
theorem arm_planned {core : ExecutionState} (hstatus : core.status = .planned)
    (hgate : submitBlock core = none) (time : ℤ) :
    (reduceExecution core (.arm time)).ok = true ∧ (step core (.arm time)).status = .ready ∧
      (step core (.arm time)).orders = terminateOrders core.orders .ready time ∧
      submitBlock (step core (.arm time)) = none := by
  have harm : ∃ k : Commit, reduceExecution core (.arm time) = commit core k ∧ k.status = .ready ∧
      k.orders = some (terminateOrders core.orders .ready time) := by
    unfold reduceExecution
    rw [if_neg (by simp [hstatus, isTerminal])]
    dsimp only
    rw [if_neg (by simp [hstatus, canTransition, execTransitions]), hgate]
    exact ⟨_, rfl, rfl, rfl⟩
  obtain ⟨k, hcommit, hready, horders⟩ := harm
  unfold step
  rw [hcommit]
  refine ⟨rfl, hready, ?_, hgate⟩
  show k.orders.getD core.orders = _
  rw [horders]
  rfl

theorem submit_ready {core : ExecutionState} (hstatus : core.status = .ready)
    (hgate : submitBlock core = none) (time : ℤ) :
    (reduceExecution core (.submit time)).ok = true ∧
      (step core (.submit time)).orders = terminateOrders core.orders .submitted time := by
  have hsubmit : ∃ k : Commit, reduceExecution core (.submit time) = commit core k ∧
      k.orders = some (terminateOrders core.orders .submitted time) := by
    unfold reduceExecution
    rw [if_neg (by simp [hstatus, isTerminal])]
    dsimp only
    rw [if_neg (by simp [hstatus, canTransition, execTransitions]), hgate]
    exact ⟨_, rfl, rfl⟩
  obtain ⟨k, hcommit, horders⟩ := hsubmit
  unfold step
  rw [hcommit]
  refine ⟨rfl, ?_⟩
  show k.orders.getD core.orders = _
  rw [horders]
  rfl

/-- A planned order goes out with the two sweeps of a submission. -/
theorem submitted_of_planned {o : ExecutionOrder} (ho : o.status = .planned) (time : ℤ) :
    (transitionOrder (transitionOrder o .ready time) .submitted time).status = .submitted := by
  simp [transitionOrder_status, ho, canTransitionOrder, orderTransitions]

/-- A clear submission of an intent that passed the gate goes out. -/
theorem Waiting.sent (h : Waiting intent now s) (hgate : checkSubmittable intent = none)
    {call : AdapterCommand} (hclear : call.isClearSubmit) :
    ∃ core, (paperCall s call).session.core = some core ∧ Touched core := by
  cases call with
  | submit time runtime =>
      have hruntime : runtimeBlockReason runtime = none := of_decide_eq_true hclear
      have hsubmittable : (buildExecutionPlan intent).submittable = true := decide_eq_true hgate
      have hvalid : validateSubmit s runtime = none := by
        have hplan : (plannedExecution intent now).plan = some (buildExecutionPlan intent) := rfl
        rw [validateSubmit, h.validateBound, h.submitted, hruntime, hplan]
        dsimp only
        rw [if_neg (by decide), if_neg (by rw [hsubmittable]; decide)]
        exact planIntegrity_buildExecutionPlan intent
      have hblock : submitBlock (plannedExecution intent now) = none := if_pos hsubmittable
      have hstatus : (plannedExecution intent now).status = .planned := start_planned intent now
      obtain ⟨harmed, hready, hswept, hblock'⟩ := arm_planned hstatus hblock time
      obtain ⟨hsubmitted, horders⟩ := submit_ready hready hblock' time
      -- Arming is silent and does not touch the session otherwise.
      have hsession : driveSilent s (.arm time) =
          ⟨true, s.advanced (step (plannedExecution intent now) (.arm time)) time, [], none⟩ := by
        unfold driveSilent advanceExecution
        rw [h.core]
        dsimp only
        rw [if_neg (by rw [harmed]; decide)]
        rfl
      have hbound : (s.advanced (step (plannedExecution intent now) (.arm time)) time).core =
          some (step (plannedExecution intent now) (.arm time)) := rfl
      refine ⟨step (step (plannedExecution intent now) (.arm time)) (.submit time), ?_, .inl ?_⟩
      · show (submit s time runtime).session.core = _
        unfold submit
        rw [hvalid, hsession]
        dsimp only
        rw [if_neg (by decide)]
        rcases driveAndEmit_cases hbound (.submit time) none with ⟨-, -, hrefused⟩ | ⟨hdone, e, -, hadv⟩
        · rw [hsubmitted] at hrefused
          cases hrefused
        · rw [if_neg (by rw [hdone]; decide), toResult, if_pos hdone]
          exact hadv.core
      · have hentry : planOrder intent "entry" 0 .entry .limit intent.entry (num intent.positionSize) ∈
            (plannedExecution intent now).orders := List.mem_cons_self
        refine ⟨transitionOrder (transitionOrder (planOrder intent "entry" 0 .entry .limit intent.entry
          (num intent.positionSize)) .ready time) .submitted time, ?_, .inl ?_⟩
        · rw [horders, hswept]
          exact List.mem_map_of_mem (List.mem_map_of_mem hentry)
        · exact submitted_of_planned rfl time
  | _ => cases hclear

end Planned

/-! ## The course of a session -/

/-- What the calls so far have made of a paper session: `first` is the first of them that reaches the core. -/
def Course (intent : ExecutionIntent) (now : ℤ) (s : AdapterSession) :
    Option AdapterCommand → Prop
  | none => Waiting intent now s
  | some first => first.isClearSubmit ∨ ∃ core, Stopped s core

theorem Stopped.paperCall {s : AdapterSession} {core : ExecutionState} (h : Stopped s core)
    (call : AdapterCommand) : Stopped (paperCall s call).session core :=
  { h with bound := paperCall_core_of_terminal h.bound h.terminal h.lifecycle call }

theorem Stopped.run {s : AdapterSession} {core : ExecutionState} (h : Stopped s core)
    (calls : List AdapterCommand) : Stopped (run paperExecutionAdapter.step s calls) core := by
  have hstep : ∀ (s : AdapterSession) (call : AdapterCommand), Stopped s core →
      Stopped (paperExecutionAdapter.step s call) core := fun _ call h => h.paperCall call
  exact run_keeps hstep h calls

theorem nullRun_core (s : AdapterSession) (calls : List AdapterCommand) :
    (run nullExecutionAdapter.step s calls).core = s.core := by
  have hstep : ∀ (s' : AdapterSession) (call : AdapterCommand), s'.core = s.core →
      (nullExecutionAdapter.step s' call).core = s.core :=
    fun s' call h => (nullCall_core s' call).trans h
  exact run_keeps hstep rfl calls

theorem Course.step {intent : ExecutionIntent} {now : ℤ} {s : AdapterSession}
    {done : List AdapterCommand} (h : Course intent now s (done.find? (reachesCore intent)))
    (call : AdapterCommand) :
    Course intent now (paperExecutionAdapter.step s call)
      ((done ++ [call]).find? (reachesCore intent)) := by
  rw [List.find?_append]
  cases hfirst : done.find? (reachesCore intent) with
  | some first =>
      rw [hfirst] at h
      rcases h with hclear | ⟨core, hstopped⟩
      · exact .inl hclear
      · exact .inr ⟨core, hstopped.paperCall call⟩
  | none =>
      rw [hfirst] at h
      have hwaiting : Waiting intent now s := h
      cases hreach : reachesCore intent call with
      | false =>
          have hnone : [call].find? (reachesCore intent) = none := by simp [hreach]
          have hkept : paperExecutionAdapter.step s call = s := hwaiting.keep hreach
          rw [hnone, hkept]
          exact hwaiting
      | true =>
          have hcall : [call].find? (reachesCore intent) = some call := by simp [hreach]
          rw [hcall]
          cases hclear : call.isClearSubmit with
          | true => exact .inl hclear
          | false => exact .inr (hwaiting.stopped hreach hclear)

/-! ## Every deployment -/

/-- The created session: waiting if nothing stopped it, else stopped. -/
theorem course_createSession (input : ExecutionInput) (decision : TradingDecision.Decision)
    (tradePlan : TradingPlan.TradePlan) (kind : AdapterKind) (opts : CreateSessionOptions) :
    let intent := intentOfInput input decision tradePlan
    let s := createSession kind (run step (start intent) (creationCommands input)) opts
    (creationStop input = none ∧ Waiting intent input.now s) ∨
      creationStop input ≠ none ∧ ∃ core, Stopped s core := by
  intro intent s
  cases hstop : creationStop input with
  | none =>
      have hcommands : creationCommands input = [.plan input.now] := by rw [creationCommands, hstop]; rfl
      refine .inl ⟨rfl, ?_, rfl, ?_⟩
      · show some (run step (start intent) (creationCommands input)) = _
        rw [hcommands]
        rfl
      · show healthForKind kind ≠ .shutdown
        cases kind <;> decide
  | some stop =>
      have hterminal := terminal_of_creationStop hstop intent
      have hcommands : creationCommands input = [.plan input.now, stop] := by
        rw [creationCommands, hstop]
        rfl
      refine .inr ⟨by simp, step (plannedExecution intent input.now) stop, stopped_of_step ?_ ?_⟩
      · show some (run step (start intent) (creationCommands input)) = _
        rw [hcommands]
        rfl
      · rw [hcommands] at hterminal
        exact hterminal

theorem createAdapter_cases (config : AdapterConfig) :
    config.kind = some .paper ∧ config.enabled = some true ∧
        createAdapter config = paperExecutionAdapter ∨
      ¬(config.kind = some .paper ∧ config.enabled = some true) ∧
        createAdapter config = nullExecutionAdapter := by
  unfold createAdapter
  split
  · rename_i h
    exact .inl ⟨h.1, h.2, rfl⟩
  · rename_i h
    exact .inr ⟨h, rfl⟩

theorem coreAfter_eq_some {input : ExecutionInput} {config : AdapterConfig}
    {opts : CreateSessionOptions} {calls : List AdapterCommand} {core : ExecutionState}
    (h : coreAfter input config opts calls = some core) :
    ∃ decision tradePlan, input.decision = some decision ∧ input.plan = some tradePlan ∧
      (run (createAdapter config).step (createSession (createAdapter config).kind
        (run step (start (intentOfInput input decision tradePlan)) (creationCommands input)) opts)
          calls).core = some core := by
  obtain ⟨session, hdeploy, hcore⟩ := Option.bind_eq_some_iff.mp h
  obtain ⟨created, hcreated, rfl⟩ := Option.map_eq_some_iff.mp hdeploy
  obtain ⟨decision, tradePlan, hdecision, hplan, rfl⟩ := exists_inputs_of_created hcreated
  exact ⟨decision, tradePlan, hdecision, hplan, hcore⟩

section Paper

variable {intent : ExecutionIntent} {now : ℤ} {s : AdapterSession}

theorem Waiting.course (h : Waiting intent now s) (calls : List AdapterCommand) :
    Course intent now (run paperExecutionAdapter.step s calls)
      (calls.find? (reachesCore intent)) := by
  have hstep : ∀ (done : List AdapterCommand) (call : AdapterCommand),
      Course intent now (run paperExecutionAdapter.step s done) (done.find? (reachesCore intent)) →
      Course intent now (paperExecutionAdapter.step (run paperExecutionAdapter.step s done) call)
        ((done ++ [call]).find? (reachesCore intent)) := fun _ call hdone => hdone.step call
  exact @run_history _ _ paperExecutionAdapter.step s
    (fun done s => Course intent now s (done.find? (reachesCore intent))) h hstep calls

/-- What a paper session has sent has passed the gate. -/
theorem gate_of_touched {opts : CreateSessionOptions} {calls : List AdapterCommand}
    {core : ExecutionState} (hcore : (run paperExecutionAdapter.step
      (createSession .paper (plannedExecution intent now) opts) calls).core = some core)
    (htouched : Touched core) : checkSubmittable intent = none := by
  have hstep : ∀ (s : AdapterSession) (call : AdapterCommand),
      (∃ core, Refines (plannedExecution intent now) s core) →
      ∃ core, Refines (plannedExecution intent now) (paperExecutionAdapter.step s call) core := by
    intro s call ⟨core, href⟩
    exact (href.sound call).refines
  obtain ⟨core', href⟩ := run_keeps hstep
    ⟨_, refines_createSession intent (buildExecutionPlan intent) now opts⟩ calls
  obtain rfl := Option.some.inj (hcore.symm.trans href.bound)
  obtain ⟨commands, hreached⟩ := href.reached
  have hrun : core = run step (start intent) (.plan now :: commands) := hreached
  rw [hrun] at htouched
  exact (gated_of_touched (List.prefix_refl _) htouched).1

end Paper

/-- For every input, configuration and list of calls: something goes out at some point of the run if and
only if both inputs are there, neither the kill switch nor the runtime stopped the creation, the paper
adapter is asked for and enabled, the intent passes the submit gate, and the first call that reaches the
core is a submission that neither blocks. -/
theorem sends_iff_opted_in (input : ExecutionInput) (config : AdapterConfig)
    (opts : CreateSessionOptions) (calls : List AdapterCommand) :
    (∃ visited core, visited <+: calls ∧ coreAfter input config opts visited = some core ∧
      Touched core) ↔
    ∃ decision tradePlan, input.decision = some decision ∧ input.plan = some tradePlan ∧
      input.killEngaged = false ∧ input.runtimeHealthy = true ∧
      config.kind = some .paper ∧ config.enabled = some true ∧
      checkSubmittable (intentOfInput input decision tradePlan) = none ∧
      ∃ first, calls.find? (reachesCore (intentOfInput input decision tradePlan)) = some first ∧
        first.isClearSubmit := by
  constructor
  · rintro ⟨visited, core, ⟨rest, rfl⟩, hcore, htouched⟩
    obtain ⟨decision, tradePlan, hdecision, hplan, hcore⟩ := coreAfter_eq_some hcore
    have hstart := course_createSession input decision tradePlan (createAdapter config).kind opts
    dsimp only at hstart
    rcases createAdapter_cases config with ⟨hkind, henabled, hadapter⟩ | ⟨-, hadapter⟩
    · rw [hadapter] at hcore hstart
      rcases hstart with ⟨hstop, hwaiting⟩ | ⟨-, stopped, hstopped⟩
      · obtain ⟨hkill, hhealthy⟩ := creationStop_eq_none hstop
        have hcourse := hwaiting.course visited
        cases hfirst : visited.find? (reachesCore (intentOfInput input decision tradePlan)) with
        | none =>
            rw [hfirst] at hcourse
            -- No call has reached the core, so the plan is still unsent.
            have hplanned := Waiting.core hcourse
            rw [hcore] at hplanned
            cases hplanned
            exact absurd htouched (unsent_planned _ _).not_touched
        | some first =>
            rw [hfirst] at hcourse
            rcases hcourse with hclear | ⟨core', hstopped⟩
            · have hcommands : creationCommands input = [.plan input.now] := by
                rw [creationCommands, hstop]
                rfl
              rw [hcommands] at hcore
              refine ⟨decision, tradePlan, hdecision, hplan, hkill, hhealthy, hkind, henabled,
                gate_of_touched hcore htouched, first, ?_, hclear⟩
              rw [List.find?_append, hfirst]
              rfl
            · -- The first call that reached the core has ended the execution.
              rw [hstopped.bound] at hcore
              cases hcore
              exact absurd htouched hstopped.unsent.not_touched
      · -- what was stopped at its creation stays as it is
        have hkept := hstopped.run visited
        rw [hkept.bound] at hcore
        cases hcore
        exact absurd htouched hkept.unsent.not_touched
    · -- the null adapter leaves the execution as it was created
      rw [hadapter] at hcore hstart
      rw [nullRun_core] at hcore
      rcases hstart with ⟨-, hwaiting⟩ | ⟨-, stopped, hstopped⟩
      · rw [hwaiting.core] at hcore
        cases hcore
        exact absurd htouched (unsent_planned _ _).not_touched
      · rw [hstopped.bound] at hcore
        cases hcore
        exact absurd htouched hstopped.unsent.not_touched
  · rintro ⟨decision, tradePlan, hdecision, hplan, hkill, hhealthy, hkind, henabled, hgate, first, hfirst,
      hclear⟩
    obtain ⟨-, before, after, rfl, hbefore⟩ := List.find?_eq_some_iff_append.mp hfirst
    have hadapter : createAdapter config = paperExecutionAdapter := if_pos ⟨hkind, henabled⟩
    have hstop : creationStop input = none := by simp [creationStop, hkill, hhealthy]
    have hnone : before.find? (reachesCore (intentOfInput input decision tradePlan)) = none := by
      rw [List.find?_eq_none]
      intro call hcall
      simpa using hbefore call hcall
    -- Until the submission the session waits.
    obtain ⟨-, hwaiting⟩ | ⟨hstopped, -⟩ :=
      course_createSession input decision tradePlan .paper opts
    · have hcourse := hwaiting.course before
      rw [hnone] at hcourse
      obtain ⟨core, hcore, htouched⟩ := Waiting.sent hcourse hgate hclear
      refine ⟨before ++ [first], core, ⟨after, by simp⟩, ?_, htouched⟩
      rw [coreAfter, deploy, createExecution_of_some hdecision hplan, hadapter]
      show (run paperExecutionAdapter.step _ (before ++ [first])).core = some core
      rw [run_append]
      exact hcore
    · exact absurd hstop hstopped

end NexusQuant.ExecutionAdapter
