import NexusQuant.Execution.Allocation

/-!
# The risk gate of the execution layer

`services/workers/src/execution/risk.ts`: the hard limits, the kill switch and the verdict on one
proposal.  A limit is a number of a configuration; one that is not finite and positive blocks.
-/

namespace NexusQuant.Execution

structure RiskLimits where
  maxPositionNotional : JsNumber
  maxPortfolioExposure : JsNumber
  perStrategyMaxNotional : Dict JsNumber
  defaultPerStrategyMaxNotional : JsNumber
deriving DecidableEq, Repr

/-- `DEFAULT_RISK_LIMITS`. -/
def defaultRiskLimits : RiskLimits :=
  ⟨.fin 750000, .fin 2000000, [], .fin 1500000⟩

/-- The cap of one strategy. -/
def RiskLimits.strategyMax (limits : RiskLimits) (strategyId : String) : JsNumber :=
  (limits.perStrategyMaxNotional.get? strategyId).getD limits.defaultPerStrategyMaxNotional

inductive RiskBlockReason where
  | killSwitch | maxPositionSize | perStrategyLimit | maxPortfolioExposure | failClosed
deriving DecidableEq, Repr

def RiskBlockReason.text : RiskBlockReason → String
  | .killSwitch => "KILL_SWITCH"
  | .maxPositionSize => "MAX_POSITION_SIZE"
  | .perStrategyLimit => "PER_STRATEGY_LIMIT"
  | .maxPortfolioExposure => "MAX_PORTFOLIO_EXPOSURE"
  | .failClosed => "FAIL_CLOSED"

inductive RiskVerdict where
  | approved
  | blocked (reason : RiskBlockReason) (detail : String)
deriving DecidableEq, Repr

/-- The kill switch is engaged in these modes. -/
def isEngaged : RiskMode → Bool
  | .riskOff | .frozen => true
  | .normal | .elevated => false

def modeText : RiskMode → String
  | .normal => "NORMAL"
  | .elevated => "ELEVATED"
  | .riskOff => "RISK_OFF"
  | .frozen => "FROZEN"

def evaluateRisk [A : Arithmetic] (proposal : ProposedAllocation) (projection : ExposureProjection)
    (limits : RiskLimits) (killSwitch : RiskMode) : RiskVerdict :=
  if isEngaged killSwitch then
    .blocked .killSwitch ("risk mode " ++ modeText killSwitch ++ " — all execution halted")
  else
    let target := parseDecimal proposal.targetNotional
    let perStrategyMax := limits.strategyMax proposal.strategyId
    -- A limit that is NaN would block nothing, so the limits are checked before they are used.
    let limitsValid := [limits.maxPositionNotional, limits.maxPortfolioExposure,
      perStrategyMax].all fun x => x.isFinite && JsNumber.lt (.fin 0) x
    let projectionValid := A.finite projection.grossAfter && A.finite projection.strategyAfter
    if limitsValid = false ∨ projectionValid = false ∨ ¬target > 0 then
      .blocked .failClosed "missing or invalid risk inputs — blocking (fail-closed)"
    else if JsNumber.lt limits.maxPositionNotional (.fin target) then
      .blocked .maxPositionSize ("position " ++ proposal.targetNotional ++ " > max " ++
        numberText limits.maxPositionNotional)
    else if JsNumber.lt perStrategyMax (.fin projection.strategyAfter) then
      .blocked .perStrategyLimit ("strategy " ++ proposal.strategyId ++ " exposure " ++
        DecimalText.toFixed 2 projection.strategyAfter ++ " > limit " ++ numberText perStrategyMax)
    else if JsNumber.lt limits.maxPortfolioExposure (.fin projection.grossAfter) then
      .blocked .maxPortfolioExposure ("portfolio exposure " ++
        DecimalText.toFixed 2 projection.grossAfter ++ " > max " ++
        numberText limits.maxPortfolioExposure)
    else .approved

/-- What the gate has checked when it approves. -/
structure Approved [Arithmetic] (proposal : ProposedAllocation) (projection : ExposureProjection)
    (limits : RiskLimits) : Prop where
  positive : 0 < parseDecimal proposal.targetNotional
  position : JsNumber.le (.fin (parseDecimal proposal.targetNotional)) limits.maxPositionNotional
  strategy : JsNumber.le (.fin projection.strategyAfter) (limits.strategyMax proposal.strategyId)
  gross : JsNumber.le (.fin projection.grossAfter) limits.maxPortfolioExposure

theorem approved_of_evaluateRisk [Arithmetic] {proposal : ProposedAllocation}
    {projection : ExposureProjection} {limits : RiskLimits} {killSwitch : RiskMode}
    (h : evaluateRisk proposal projection limits killSwitch = .approved) :
    Approved proposal projection limits := by
  unfold evaluateRisk at h
  dsimp only at h
  split at h
  · cases h
  split at h
  · cases h
  rename_i hvalid
  split at h
  · cases h
  rename_i hposition
  split at h
  · cases h
  rename_i hstrategy
  split at h
  · cases h
  rename_i hgross
  -- The limits it compared with are finite, so a comparison that fails is one the other way.
  push Not at hvalid
  obtain ⟨hlimits, -, htarget⟩ := hvalid
  have hfinite : limits.maxPositionNotional.isFinite ∧ limits.maxPortfolioExposure.isFinite ∧
      (limits.strategyMax proposal.strategyId).isFinite := by
    simp only [List.all_cons, List.all_nil, Bool.and_true, ne_eq, Bool.not_eq_false,
      Bool.and_eq_true] at hlimits
    exact ⟨hlimits.1.1, hlimits.2.1.1, hlimits.2.2.1⟩
  exact ⟨htarget, JsNumber.le_of_lt_eq_false hfinite.1 rfl (by simpa using hposition),
    JsNumber.le_of_lt_eq_false hfinite.2.2 rfl (by simpa using hstrategy),
    JsNumber.le_of_lt_eq_false hfinite.2.1 rfl (by simpa using hgross)⟩

end NexusQuant.Execution
