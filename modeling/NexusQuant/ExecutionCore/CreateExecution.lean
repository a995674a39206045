import NexusQuant.ExecutionCore.FailClosed

/-!
# Creating an execution

`execution.ts`: the one entry point from a served decision and trade plan to a live execution, with the
guards of the moment of creation.
-/

namespace NexusQuant.ExecutionCore

open Run

structure ExecutionInput where
  now : ℤ
  decision : Option TradingDecision.Decision
  plan : Option TradingPlan.TradePlan
  killEngaged : Bool
  runtimeHealthy : Bool
  mode : Option ExecutionMode := none
  venue : Option ExecutionVenue := none

structure CreateExecutionResult where
  ok : Bool
  state : Option ExecutionState
  failure : Option ExecutionFailure

def validateInput (input : ExecutionInput) : Option ExecutionFailureReason :=
  if input.decision.isNone then some .noDecision
  else if input.plan.isNone then some .noPlan
  else none

/-- The input that was refused, with its reason. -/
def cannotCreate (input : ExecutionInput) : CreateExecutionResult :=
  let reason := (validateInput input).getD .validationFailed
  ⟨false, none, some ⟨reason, "cannot create execution: " ++ reason.text, input.now, true⟩⟩

/-- The stop that is driven into the planned execution: the kill switch first, then the runtime. -/
def creationStop (input : ExecutionInput) : Option ExecutionCommand :=
  if input.killEngaged then some (.kill input.now)
  else if input.runtimeHealthy = false then some (.runtimeUnhealthy input.now)
  else none

def intentOfInput (input : ExecutionInput) (decision : TradingDecision.Decision)
    (plan : TradingPlan.TradePlan) : ExecutionIntent :=
  buildExecutionIntent decision plan
    ⟨input.now, some (input.mode.getD .simulation), some (input.venue.getD .unset)⟩

def createExecution (input : ExecutionInput) : CreateExecutionResult :=
  match validateInput input, input.decision, input.plan with
  | none, some decision, some tradePlan =>
      let intent := intentOfInput input decision tradePlan
      let initial := initExecutionState intent (some (buildExecutionPlan intent))
      let planned := reduceExecution initial (.plan input.now)
      let result :=
        match creationStop input with
        | some stop => reduceExecution planned.state stop
        | none => planned
      ⟨result.ok, some result.state, result.state.failure⟩
  | _, _, _ => cannotCreate input

/-! ## What is created -/

/-- The commands an execution has gone through when it is created. -/
def creationCommands (input : ExecutionInput) : List ExecutionCommand :=
  .plan input.now :: (creationStop input).toList

theorem createExecution_of_some {input : ExecutionInput} {decision : TradingDecision.Decision}
    {tradePlan : TradingPlan.TradePlan} (hdecision : input.decision = some decision)
    (hplan : input.plan = some tradePlan) :
    (createExecution input).state =
      some (run step (start (intentOfInput input decision tradePlan)) (creationCommands input)) := by
  have hvalid : validateInput input = none := by simp [validateInput, hdecision, hplan]
  unfold createExecution creationCommands
  rw [hvalid, hdecision, hplan]
  cases creationStop input with
  | none => rfl
  | some stop => rfl

/-- Without a decision or without a plan there is no execution. -/
theorem exists_inputs_of_created {input : ExecutionInput} {s : ExecutionState}
    (h : (createExecution input).state = some s) :
    ∃ decision tradePlan, input.decision = some decision ∧ input.plan = some tradePlan ∧
      s = run step (start (intentOfInput input decision tradePlan)) (creationCommands input) := by
  cases hdecision : input.decision with
  | none =>
      rw [createExecution, validateInput, hdecision] at h
      cases h
  | some decision =>
      cases hplan : input.plan with
      | none =>
          rw [createExecution, validateInput, hdecision, hplan] at h
          cases h
      | some tradePlan =>
          rw [createExecution_of_some hdecision hplan] at h
          exact ⟨decision, tradePlan, rfl, rfl, (Option.some.inj h).symm⟩

theorem start_planned (intent : ExecutionIntent) (now : ℤ) :
    (step (start intent) (.plan now)).status = .planned := rfl

/-- A stop at creation ends the execution. -/
theorem terminal_of_creationStop {input : ExecutionInput} {stop : ExecutionCommand}
    (h : creationStop input = some stop) (intent : ExecutionIntent) :
    isTerminal (run step (start intent) (creationCommands input)).status := by
  unfold creationCommands
  rw [h]
  unfold creationStop at h
  split at h
  · cases h
    rfl
  · split at h
    · cases h
      rfl
    · cases h

theorem creationStop_eq_none {input : ExecutionInput} (h : creationStop input = none) :
    input.killEngaged = false ∧ input.runtimeHealthy := by
  unfold creationStop at h
  split at h
  · cases h
  · rename_i hkill
    split at h
    · cases h
    · rename_i hhealthy
      exact ⟨Bool.eq_false_of_not_eq_true hkill, Bool.eq_true_of_not_eq_false hhealthy⟩

end NexusQuant.ExecutionCore
