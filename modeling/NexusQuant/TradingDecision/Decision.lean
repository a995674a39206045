import NexusQuant.TradingDecision.Types

/-!
# Trading decision: the engine

`buildTradingDecision` and the functions it assembles a decision from: levels
(`entry-stop-target.ts`), sizing (`sizing.ts`), scores (`scores.ts`), regime (`regime.ts`), holding
time (`holding-time.ts`) and the status derivations (`status.ts`).  Amounts are exact decimals,
rounded where the source calls `round`.
-/

namespace NexusQuant.TradingDecision

open Rounding

/-! ## Helpers (`util.ts`) -/

def clamp01 : JsNumber → ℚ
  | .fin q => if q < 0 then 0 else if 1 < q then 1 else q
  | _ => 0

def clampScore : JsNumber → ℚ
  | .fin q => if q < 0 then 0 else if 100 < q then 100 else q
  | _ => 0

def readFeature (features : String → Option JsNumber) (key : String) : Option ℚ := num (features key)

def measure (value : ℚ) (provenance : Provenance) : Measure := ⟨some (.fin value), provenance⟩

def unavailable : Measure := ⟨none, .unavailable⟩

@[simp] theorem mv_measure (value : ℚ) (p : Provenance) : mv (measure value p) = some value := rfl
@[simp] theorem mv_unavailable : mv unavailable = none := rfl

def ageSeconds (nowMs : JsNumber) (then? : Option Instant) : Option JsNumber :=
  match then? with
  | none => none
  | some i =>
      if i.time.isFinite then
        some (JsNumber.max (.fin 0) (mathRound ((nowMs - i.time) / .fin 1000)))
      else none

/-! ## Levels (`entry-stop-target.ts`) -/

structure Levels where
  entryPrice : Measure := unavailable
  stopLoss : Measure := unavailable
  takeProfit1 : Measure := unavailable
  takeProfit2 : Measure := unavailable
  takeProfit3 : Measure := unavailable
  riskRewardRatio : Measure := unavailable
  stopDistancePct : Measure := unavailable
deriving DecidableEq, Repr

def allUnavailable : Levels := {}

def computeLevels (direction : SignalDecision) (price : Option PriceObservation) (atr : Option ℚ)
    (cfg : DecisionConfig) : Levels :=
  if direction = .flat then allUnavailable
  else
    match price with
    | none => allUnavailable
    | some p =>
        let dp := cfg.priceDecimals
        let entry := p.price
        let entryMeasure := measure (roundTo dp entry) .real
        match atr with
        | none => { entryPrice := entryMeasure }
        | some a =>
            if a ≤ 0 then { entryPrice := entryMeasure }
            else
              let sign : ℚ := if direction = .long then 1 else -1
              let stop := entry - sign * cfg.atrStopMult * a
              let tp1 := entry + sign * cfg.atrTp1Mult * a
              let tp2 := entry + sign * cfg.atrTp2Mult * a
              let tp3 := entry + sign * cfg.atrTp3Mult * a
              let risk := |entry - stop|
              let reward1 := |tp1 - entry|
              let rr := if 0 < risk then reward1 / risk else 0
              let stopPct := if 0 < entry then risk / entry * 100 else 0
              { entryPrice := entryMeasure
                stopLoss := measure (roundTo dp stop) .derived
                takeProfit1 := measure (roundTo dp tp1) .derived
                takeProfit2 := measure (roundTo dp tp2) .derived
                takeProfit3 := measure (roundTo dp tp3) .derived
                riskRewardRatio := measure (roundTo 2 rr) .derived
                stopDistancePct := measure (roundTo 2 stopPct) .derived }

/-! ## Sizing (`sizing.ts`) -/

structure Sizing where
  positionSize : Measure := unavailable
  positionNotional : Measure := unavailable
  capitalRiskPercent : Measure := unavailable
deriving DecidableEq, Repr

def computeSizing (direction : SignalDecision) (entry stopLoss : Option ℚ) (risk : RiskContext) :
    Sizing :=
  if direction = .flat then {}
  else
    match entry, stopLoss with
    | some entry, some stopLoss =>
        let stopDistance := |entry - stopLoss|
        let equity := risk.assumedEquity
        let frac := risk.riskFraction
        if ¬ 0 < stopDistance ∨ ¬ 0 < equity ∨ ¬ 0 < frac then {}
        else
          let riskAmount := equity * frac
          let qty := riskAmount / stopDistance
          let notional := qty * entry
          { positionSize := measure (roundTo 8 qty) .derived
            positionNotional := measure (roundTo 2 notional) .derived
            capitalRiskPercent := measure (roundTo 2 (frac * 100)) .derived }
    | _, _ => {}

/-! ## Scores (`scores.ts`) -/

def trendScore (features : String → Option JsNumber) : Measure :=
  match readFeature features "ema_20", readFeature features "ema_200" with
  | some ema20, some ema200 =>
      if ema200 = 0 then unavailable
      else measure (roundTo 1 (clamp01 (.fin (|ema20 - ema200| / |ema200|)) * 100)) .derived
  | _, _ => unavailable

def momentumScore (features : String → Option JsNumber) : Measure :=
  match readFeature features "rsi_14" with
  | some rsi => measure (roundTo 1 (clamp01 (.fin (|rsi - 50| / 50)) * 100)) .derived
  | none => unavailable

def volatilityScore (features : String → Option JsNumber) (params : SignalParams) : Measure :=
  match readFeature features "realized_vol_30" with
  | some rv =>
      let ceiling :=
        if JsNumber.lt (.fin 0) params.maxRealizedVol then .fin 2 * params.maxRealizedVol
        else .fin (4 / 100)
      measure (roundTo 1 (clamp01 (.fin rv / ceiling) * 100)) .derived
  | none => unavailable

def liquidityScore (liq : Option LiquidityObservation) (cfg : DecisionConfig) : Measure :=
  match liq with
  | none => unavailable
  | some liq =>
      let spread := liq.spreadBps.toList.map fun s => clamp01 (.fin 1 - s / .fin cfg.refSpreadBps)
      let depth := liq.depthUsd.toList.map fun d => clamp01 (d / .fin cfg.refDepthUsd)
      let parts := spread ++ depth
      if parts = [] then unavailable
      else
        let avg := parts.sum / parts.length
        measure (roundTo 1 (clampScore (.fin (avg * 100)))) .derived

/-! ## Regime and holding time (`regime.ts`, `holding-time.ts`) -/

def deriveRegime (features : String → Option JsNumber) (params : SignalParams) : RegimeView :=
  match readFeature features "ema_20", readFeature features "ema_50",
      readFeature features "ema_200", readFeature features "realized_vol_30" with
  | some ema20, some ema50, some ema200, some rv =>
      let maxVol :=
        if JsNumber.lt (.fin 0) params.maxRealizedVol then params.maxRealizedVol else .fin (2 / 100)
      let regime :=
        if JsNumber.lt (.fin 2 * maxVol) (.fin rv) then .highVol
        else if ema20 > ema50 ∧ ema50 > ema200 then .trendingBull
        else if ema20 < ema50 ∧ ema50 < ema200 then .trendingBear
        else if JsNumber.lt (.fin rv) (.fin (1 / 4) * maxVol) then .lowVol
        else .rangeBound
      ⟨some regime, .derived⟩
  | _, _, _, _ => ⟨none, .unavailable⟩

/-- `BAR_SECONDS`. -/
def barSeconds : Timeframe → ℕ
  | .m1 => 60
  | .m5 => 300
  | .m15 => 900
  | .h1 => 3600
  | .h4 => 14400
  | .d1 => 86400

def estimateHoldingTime (timeframe : Timeframe) (cfg : DecisionConfig) : HoldingTimeView :=
  ⟨some (barSeconds timeframe * cfg.holdingHorizonBars), some cfg.holdingHorizonBars, .estimated⟩

/-! ## Statuses (`status.ts`) -/

def deriveControlStatus (control : ControlContext) : ControlStatus :=
  if control.killEngaged then .blocked
  else
    match control.permission with
    | none => .unknown
    | some .allowed => .allowed
    | some .blocked => .blocked

def blockedStates : List String := ["STOPPED", "FAILED", "PROTECTED"]

def deriveExecutionStatus (control : ControlContext) (controlStatus : ControlStatus) :
    ExecutionStatus :=
  match controlStatus with
  | .unknown => .unknown
  | .blocked => .blocked
  | .allowed =>
      match control.runtimeState with
      | none => .waiting
      | some state =>
          if state = "HEALTHY" then .ready
          else if state ∈ blockedStates then .blocked
          -- The listed waiting states and every unknown text wait alike.
          else .waiting

def riskModeText : RiskMode → String
  | .normal => "NORMAL"
  | .elevated => "ELEVATED"
  | .riskOff => "RISK_OFF"
  | .frozen => "FROZEN"

def evaluateStaticRisk (direction : SignalDecision) (notional : Option ℚ) (risk : RiskContext) :
    RiskStatusView :=
  match risk.systemRiskMode with
  | some .riskOff => ⟨.blocked, "system risk mode " ++ riskModeText .riskOff, true⟩
  | some .frozen => ⟨.blocked, "system risk mode " ++ riskModeText .frozen, true⟩
  | _ =>
      if direction = .flat then
        ⟨.notApplicable, "FLAT signal — no order to risk-check", true⟩
      else
        match notional with
        | none =>
            ⟨.unknown, "position notional unavailable — cannot evaluate caps", true⟩
        | some notional =>
            if risk.maxNotional < notional then
              ⟨.blocked, "notional $" ++ ratText (roundTo 2 notional) ++ " exceeds max $" ++
                ratText (roundTo 2 risk.maxNotional), true⟩
            else
              ⟨.approved,
                "static pre-trade checks pass (daily-loss/drawdown require a live account)", true⟩

def deriveOverallStatus (direction : SignalDecision) (controlStatus : ControlStatus)
    (riskStatus : RiskStatus) (executionStatus : ExecutionStatus) (entryAvailable : Bool) :
    OverallStatus :=
  if direction = .flat then .noTrade
  else if controlStatus = .blocked ∨ riskStatus = .blocked then .blocked
  else if executionStatus = .waiting ∨ executionStatus = .unknown then .waiting
  else if ¬ entryAvailable then .incomplete
  else .actionable

/-! ## Assembly (`decision.ts`) -/

def provenanceNotes (inputs : DecisionInputs) (liquidity : Measure) (marketRegime : RegimeView)
    (sizing : Sizing) (riskStatus : RiskStatusView) : List String :=
  (if inputs.signal.decision = .flat then
    ["FLAT signal — no directional entry/stop/targets/size"] else []) ++
  (if inputs.price.isNone then
    ["current mark unavailable — price-dependent fields not computed"] else []) ++
  (if liquidity.value.isNone then
    ["liquidity unavailable — no order-book/liquidity snapshot"] else []) ++
  (if marketRegime.provenance = .derived then
    ["market regime is DERIVED (no M8 classifier)"] else []) ++
  ["momentum is RSI-only (no MACD/ROC feature exists)"] ++
  (if sizing.positionSize.value.isSome then
    ["position size assumes equity $" ++ ratText (roundTo 2 inputs.risk.assumedEquity) ++
      " (no live account)"] else []) ++
  ["expected holding time is a timeframe-based estimate"] ++
  (if riskStatus.staticOnly then
    ["risk status is STATIC (daily-loss/drawdown need a live account)"] else []) ++
  ["execution status is the global control verdict (not per-order)"]

def buildTradingDecision (inputs : DecisionInputs) : Decision :=
  let cfg := inputs.config
  let signal := inputs.signal
  let atr := readFeature inputs.features "atr_14"
  let levels := computeLevels signal.decision inputs.price atr cfg
  let currentPrice :=
    match inputs.price with
    | none => unavailable
    | some p => measure (roundTo cfg.priceDecimals p.price) .real
  let liquidity := liquidityScore inputs.liquidity cfg
  let marketRegime := deriveRegime inputs.features signal.strategyParams
  let sizing :=
    computeSizing signal.decision (mv levels.entryPrice) (mv levels.stopLoss) inputs.risk
  let controlStatus := deriveControlStatus inputs.control
  let executionStatus := deriveExecutionStatus inputs.control controlStatus
  let riskStatus := evaluateStaticRisk signal.decision (mv sizing.positionNotional) inputs.risk
  -- An entry mark alone is not a tradeable level set: the stop must be there too.
  let levelsComplete := levels.stopLoss.value.isSome
  { signalId := signal.id
    symbol := signal.symbol
    timeframe := inputs.timeframe
    direction := signal.decision
    bias := signal.side
    confidence := signal.confidence
    createdAt := signal.createdAt
    signalAgeSeconds := (ageSeconds inputs.now (some signal.createdAt)).getD (.fin 0)
    featureAgeSeconds := ageSeconds inputs.now inputs.featureTs
    currentPrice := currentPrice
    entryPrice := levels.entryPrice
    stopLoss := levels.stopLoss
    takeProfit1 := levels.takeProfit1
    takeProfit2 := levels.takeProfit2
    takeProfit3 := levels.takeProfit3
    riskRewardRatio := levels.riskRewardRatio
    stopDistancePct := levels.stopDistancePct
    positionSize := sizing.positionSize
    positionNotional := sizing.positionNotional
    capitalRiskPercent := sizing.capitalRiskPercent
    assumedEquity := .fin (roundTo 2 inputs.risk.assumedEquity)
    expectedHoldingTime := estimateHoldingTime inputs.timeframe cfg
    trendStrength := trendScore inputs.features
    momentumScore := momentumScore inputs.features
    volatilityScore := volatilityScore inputs.features signal.strategyParams
    liquidityScore := liquidity
    marketRegime := marketRegime
    executionStatus := executionStatus
    riskStatus := riskStatus
    controlStatus := controlStatus
    overallStatus :=
      deriveOverallStatus signal.decision controlStatus riskStatus.status executionStatus
        levelsComplete
    featureHash := signal.featureHash
    datasetHash := signal.datasetHash
    strategyVersionId := signal.strategyVersionId
    provenanceNotes := provenanceNotes inputs liquidity marketRegime sizing riskStatus }

end NexusQuant.TradingDecision
