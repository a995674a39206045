import NexusQuant.Control.VerifiedRecovery

/-!
# Trading only in a clean runtime

The permission, the protection rules, the soft degradation and the state machine are evaluated apart.
What an ALLOWED permission says about the other three is read off its nine checks: all of them but one
follow at once.  The state machine puts a verified recovery above soft degradation, so a tick that
leaves PROTECTED may be HEALTHY inside the warning band of a stream; on every other tick HEALTHY means
that nothing is degraded.
-/

namespace NexusQuant.Control

open Run

def planeStep (plane : ControlPlane) (tick : Tick) : ControlPlane := (evaluate plane tick).plane

/-- The tick leaves PROTECTED or RECOVERING on a verified recovery. -/
def LeavesVerified (plane : ControlPlane) (tick : Tick) : Prop :=
  isProtected plane.lastState ∧ (recover plane tick).2.1 = some true

instance (plane : ControlPlane) (tick : Tick) : Decidable (LeavesVerified plane tick) :=
  inferInstanceAs (Decidable (_ ∧ _))

/-! ## What the nine checks say -/

theorem ok_of_allowed {inputs : ControlInputs} {state : Option RuntimeState}
    (hallowed : (evaluateTradingPermission inputs state).permission = .allowed) :
    ∀ r ∈ (evaluateTradingPermission inputs state).reasons, r.ok := by
  -- ALLOWED means that the list of failed checks came out empty.
  have hnone : (evaluateTradingPermission inputs state).blockedBy.length = 0 := by
    by_contra hsome
    have hblocked : (evaluateTradingPermission inputs state).permission = .blocked := if_neg hsome
    rw [hblocked] at hallowed
    cases hallowed
  intro r hr
  have hkept := List.filter_eq_nil_iff.mp (List.length_eq_zero_iff.mp hnone) r hr
  simpa using hkept

/-- A stream that is fresh for the permission breaches no protection rule. -/
theorem freshnessBreached_of_streamFresh {o : FreshnessObservation}
    (hfresh : streamFresh o.lagSeconds o.staleSeconds) :
    freshnessBreached o.lagSeconds o.staleSeconds = false := by
  unfold streamFresh at hfresh
  unfold freshnessBreached
  cases hlag : o.lagSeconds with
  | none => rfl
  | some lag =>
      rw [hlag] at hfresh
      exact JsNumber.lt_eq_false_of_le hfresh

/-- What an ALLOWED permission requires of the inputs. -/
structure Permitted (inputs : ControlInputs) (state : RuntimeState) : Prop where
  database : inputs.database = .healthy
  redis : inputs.redis = .healthy
  quant : inputs.quant = .healthy
  features : freshnessBreached inputs.features.lagSeconds inputs.features.staleSeconds = false
  signals : freshnessBreached inputs.signals.lagSeconds inputs.signals.staleSeconds = false
  execution : freshnessBreached inputs.execution.lagSeconds inputs.execution.staleSeconds = false
  riskEngine : inputs.riskEngineActive = true
  killSwitch : inputs.killSwitch.engaged = false
  runtimeState : state = .healthy

theorem permitted_of_allowed {inputs : ControlInputs} {state : RuntimeState}
    (hallowed : (evaluateTradingPermission inputs (some state)).permission = .allowed) :
    Permitted inputs state := by
  have hok := ok_of_allowed hallowed
  simp only [evaluateTradingPermission, Option.map_some, Option.toList_some, List.cons_append,
    List.nil_append, List.forall_mem_cons, List.not_mem_nil, false_implies, implies_true,
    and_true] at hok
  obtain ⟨hdb, hredis, hquant, hfeat, hsig, hexec, hrisk, hkill, hstate⟩ := hok
  exact
    { database := of_decide_eq_true hdb
      redis := of_decide_eq_true hredis
      quant := of_decide_eq_true hquant
      features := freshnessBreached_of_streamFresh hfeat
      signals := freshnessBreached_of_streamFresh hsig
      execution := by simpa [executionCheck] using hexec
      riskEngine := hrisk
      killSwitch := by simpa [killSwitchCheck] using hkill
      runtimeState := of_decide_eq_true hstate }

theorem Permitted.rules_inactive {inputs : ControlInputs} {state : RuntimeState}
    (h : Permitted inputs state) : ∀ v ∈ evaluateProtectionRules inputs, v.active = false := by
  simp [evaluateProtectionRules, unavailableRule, staleRule, riskDisabledRule, infraDown,
    h.database, h.redis, h.quant, h.features, h.signals, h.execution, h.riskEngine]

theorem Permitted.activeProtections {inputs : ControlInputs} {state : RuntimeState}
    (h : Permitted inputs state) : activeProtections inputs = [] := by
  apply List.filter_eq_nil_iff.mpr
  intro v hv
  rw [h.rules_inactive v hv]
  exact Bool.false_ne_true

/-! ## How a tick becomes HEALTHY -/

/-- Outside a recovery, HEALTHY means that nothing is degraded. -/
theorem degraded_of_healthy {prev : RuntimeState} {input : SteadyStateInput}
    (hprev : isProtected prev = false) (hhealthy : (deriveRuntimeState prev input).state = .healthy) :
    input.degraded = false := by
  have hnot : ¬ (prev = .protected ∨ prev = .recovering) := by
    simpa [isProtected] using hprev
  unfold deriveRuntimeState at hhealthy
  rw [if_neg hnot] at hhealthy
  by_cases hdegraded : input.degraded
  · -- rows 4 and 5 of the table both answer DEGRADED
    simp only [hdegraded, if_true] at hhealthy
    split at hhealthy
    · cases hhealthy
    · split at hhealthy
      · cases hhealthy
      · split at hhealthy <;> cases hhealthy
  · exact Bool.not_eq_true _ ▸ hdegraded

/-- Inside a recovery, HEALTHY means that it was verified. -/
theorem verified_of_healthy {prev : RuntimeState} {input : SteadyStateInput}
    (hprev : isProtected prev) (hhealthy : (deriveRuntimeState prev input).state = .healthy) :
    input.recoveryOutcome = some true := by
  have hfrom : prev = .protected ∨ prev = .recovering := by
    simpa [isProtected] using hprev
  unfold deriveRuntimeState at hhealthy
  rw [if_pos hfrom] at hhealthy
  -- Rows 1 to 3 of the table, in their order; only the verified outcome of row 3 answers HEALTHY.
  split at hhealthy
  · cases hhealthy
  · split at hhealthy
    · cases hhealthy
    · split at hhealthy
      · assumption
      · cases hhealthy
      · cases hhealthy

theorem runRecovery_lastState (plane : ControlPlane) (tick : Tick) :
    (runRecovery plane tick).1.lastState = plane.lastState := by
  -- A verification reads and reports; the state is written later, when the tick settles.
  have hverify : ∀ affected,
      (runRecovery.verify plane tick affected).1.lastState = plane.lastState := by
    intro affected
    by_cases hempty : (recoveryTargets plane affected).length = 0
    · rw [runRecovery.verify, if_pos hempty]
    · rw [runRecovery.verify, if_neg hempty]
      rfl
  unfold runRecovery
  split
  · rfl
  · exact hverify []
  · exact hverify _

/-- The first half of an evaluation stays on the same side of protection. -/
theorem recover_isProtected (plane : ControlPlane) (tick : Tick) :
    isProtected (recover plane tick).1.lastState = isProtected plane.lastState := by
  unfold recover
  split
  · rename_i hleaving
    have hprev : isProtected plane.lastState := by
      unfold leaving at hleaving
      simp only [Bool.and_eq_true] at hleaving
      exact hleaving.1.1
    rw [runRecovery_lastState, enterRecovering_lastState hprev, hprev]
    rfl
  · rfl

theorem evaluate_allowed {plane : ControlPlane} {tick : Tick}
    (hallowed : (evaluate plane tick).permission.permission = .allowed) :
    Permitted tick.inputs (evaluate plane tick).state ∧
    (isDegraded tick.inputs = false ∨ LeavesVerified plane tick) := by
  have hpermitted : Permitted tick.inputs (evaluate plane tick).state :=
    permitted_of_allowed hallowed
  have hhealthy := hpermitted.runtimeState
  refine ⟨hpermitted, ?_⟩
  rw [evaluate_eq] at hhealthy
  -- Inside a recovery row 3 decides before the soft degradation of row 5 is looked at.
  by_cases hprev : isProtected plane.lastState
  · right
    rw [← recover_isProtected plane tick] at hprev
    have hverified := verified_of_healthy hprev hhealthy
    rw [recover_isProtected] at hprev
    exact ⟨hprev, hverified⟩
  · left
    rw [← recover_isProtected plane tick] at hprev
    exact degraded_of_healthy (Bool.not_eq_true _ ▸ hprev) hhealthy

/-! ## Runs -/

/-- In every run, a tick that allows trading has the kill switch disengaged, no active rule, the
runtime HEALTHY and its infrastructure healthy; nothing is degraded, unless the tick leaves PROTECTED
or RECOVERING on a verified recovery. -/
theorem allowed_only_clean (start : ControlPlane) (visited : List Tick) (tick : Tick)
    (hallowed : (evaluate (run planeStep start visited) tick).permission.permission = .allowed) :
    tick.inputs.killSwitch.engaged = false ∧
    (∀ v ∈ evaluateProtectionRules tick.inputs, v.active = false) ∧
    (evaluate (run planeStep start visited) tick).state = .healthy ∧
    (isDegraded tick.inputs = false ∨ LeavesVerified (run planeStep start visited) tick) := by
  have h := evaluate_allowed hallowed
  exact ⟨h.1.killSwitch, h.1.rules_inactive, h.1.runtimeState, h.2⟩

/-- A tick with a lag of the feature stream, everything else nominal. -/
def laggingTick (lag : ℚ) : Tick :=
  let tick := sampleTick .healthy .healthy
  { tick with inputs := { tick.inputs with features := ⟨some (.fin lag), .fin 180, .fin 60⟩ } }

theorem allowed_only_clean_nominal :
    (evaluate (run planeStep (booted []) redisTicks) (laggingTick 1)).permission.permission =
      .allowed ∧
    isDegraded (laggingTick 1).inputs = false := by
  have hallowed : (evaluate (run planeStep (booted []) redisTicks)
      (laggingTick 1)).permission.permission = .allowed := by decide +kernel
  have hclean := allowed_only_clean (booted []) redisTicks (laggingTick 1) hallowed
  have hnot : ¬ LeavesVerified (run planeStep (booted []) redisTicks) (laggingTick 1) := by
    decide +kernel
  exact ⟨hallowed, hclean.2.2.2.resolve_right hnot⟩

/-- Redis fails and recovers while the features are 100 seconds old, inside the warning band that
starts at 60: the recovery is verified and trading is allowed on degraded inputs. -/
theorem allowed_in_warning_band :
    let plane := run planeStep (booted []) [sampleTick .failing .healthy]
    (evaluate plane (laggingTick 100)).permission.permission = .allowed ∧
      isDegraded (laggingTick 100).inputs = true := by
  decide +kernel

end NexusQuant.Control
