import NexusQuant.TradingDecision.Decision

/-!
# Trade plan

`packages/trading-plan/src`: the facts shared by the builders (`facts.ts`), the decision summary
(`summary.ts`) and the readiness score (`readiness.ts`).  The checklists, the invalidation triggers
and the display texts of a plan are read by no function modelled here and are left out.
-/

namespace NexusQuant.TradingPlan

open TradingDecision Rounding

structure ReadinessWeights where
  directional : ℚ := 10
  confidence : ℚ := 20
  riskReward : ℚ := 15
  control : ℚ := 10
  runtime : ℚ := 10
  risk : ℚ := 10
  dataQuality : ℚ := 10
  freshness : ℚ := 15
deriving DecidableEq, Repr

structure TradePlanConfig where
  signalStaleSeconds : ℚ := 180
  featureStaleSeconds : ℚ := 180
  minDqScore : ℚ := minDataQualityScore
  strongConfidence : ℚ := 3 / 4
  readyRR : ℚ := 2
  goodTrend : ℚ := 60
  goodMomentum : ℚ := 55
  maxVolScore : ℚ := 50
  goodLiquidity : ℚ := 50
  readinessWeights : ReadinessWeights := {}
  readyBand : ℚ := 75
  nearBand : ℚ := 55
  formingBand : ℚ := 35
deriving DecidableEq, Repr

structure TradePlanInputs where
  now : JsNumber
  decision : Decision
  dqScore : Option JsNumber
  runtimeState : Option String
  killEngaged : Bool
  config : TradePlanConfig := {}

inductive Action where
  | strongBuy | buy | watch | wait | noTrade | sell | strongSell
deriving DecidableEq, Repr

inductive ReadinessBand where
  | ready | near | forming | notReady
deriving DecidableEq, Repr

structure DecisionSummary where
  action : Action
  canTrade : Bool
  shouldTrade : Bool
  direction : SignalDecision
  confidence : ℚ
deriving DecidableEq, Repr

structure ReadinessComponent where
  key : String
  weight : ℚ
  earned : ℚ
deriving DecidableEq, Repr

structure TradeReadiness where
  score : JsNumber
  band : ReadinessBand
  components : List ReadinessComponent
deriving DecidableEq, Repr

structure TradePlan where
  signalId : String
  symbol : String
  timeframe : Timeframe
  direction : SignalDecision
  confidence : ℚ
  summary : DecisionSummary
  readiness : TradeReadiness
deriving DecidableEq, Repr

/-! ## Facts (`facts.ts`) -/

/-- A tri-state: met, unmet, or unknown. -/
abbrev Tri := Option Bool

structure PlanFacts where
  cfg : TradePlanConfig
  direction : SignalDecision
  directional : Bool
  isLong : Bool
  isShort : Bool
  confidence : ℚ
  controlAllowed : Tri
  runtimeHealthy : Tri
  riskApproved : Tri
  dqOk : Tri
  signalFresh : Tri
  featureFresh : Tri
  trendAligned : Tri
  momentumAligned : Tri
  volOk : Tri
  liqOk : Tri
  killEngaged : Bool
  hardBlocked : Bool
  stale : Bool
  noTrade : Bool
  actionable : Bool
  canTrade : Bool
  strong : Bool
  good : Bool
  entry : Option ℚ
  stop : Option ℚ
  tp1 : Option ℚ
  size : Option ℚ
  rr : Option ℚ
  stopDistancePct : Option ℚ
  capitalRiskPercent : Option ℚ
  holdSeconds : Option ℕ
  atr : Option ℚ
  atrPct : Option ℚ
  maxLoss : Option ℚ
  rewardPct : Option ℚ
deriving DecidableEq, Repr

def deriveFacts (inputs : TradePlanInputs) : PlanFacts :=
  let cfg := inputs.config
  let d := inputs.decision
  let directional := decide (d.direction ≠ .flat)
  let confidence := d.confidence.finite?.getD 0
  let entry := mv d.entryPrice
  let stop := mv d.stopLoss
  let tp1 := mv d.takeProfit1
  let size := mv d.positionSize
  let rr := mv d.riskRewardRatio
  let signalAgeSeconds := d.signalAgeSeconds.finite?
  let featureAgeSeconds := num d.featureAgeSeconds
  let signalFresh := signalAgeSeconds.map fun a => decide (a ≤ cfg.signalStaleSeconds)
  let featureFresh := featureAgeSeconds.map fun a => decide (a ≤ cfg.featureStaleSeconds)
  let distance : Option ℚ :=
    match entry, stop with
    | some e, some s => some |e - s|
    | _, _ => none
  let atr := distance.map fun x => roundTo 6 (x / defaultDecisionConfig.atrStopMult)
  let killEngaged := inputs.killEngaged
  let hardBlocked :=
    killEngaged || d.controlStatus == .blocked || d.riskStatus.status == .blocked ||
      d.overallStatus == .blocked
  let actionable := d.overallStatus == .actionable && !killEngaged
  let convinced := decide (cfg.strongConfidence ≤ confidence)
  let rewarded := rr.any fun r => decide (cfg.readyRR ≤ r)
  let strong := convinced && rewarded
  { cfg := cfg
    direction := d.direction
    directional := directional
    isLong := d.direction == .long
    isShort := d.direction == .short
    confidence := confidence
    controlAllowed :=
      match d.controlStatus with
      | .allowed => some true
      | .blocked => some false
      | .unknown => none
    runtimeHealthy := inputs.runtimeState.map fun s => s == "HEALTHY"
    riskApproved :=
      match d.riskStatus.status with
      | .approved => some true
      | .blocked => some false
      | _ => none
    dqOk := (num inputs.dqScore).map fun s => decide (cfg.minDqScore ≤ s)
    signalFresh := signalFresh
    featureFresh := featureFresh
    trendAligned := (mv d.trendStrength).map fun s => decide (cfg.goodTrend ≤ s)
    momentumAligned := (mv d.momentumScore).map fun s => decide (cfg.goodMomentum ≤ s)
    -- The volatility score is inverted: lower is better.
    volOk := (mv d.volatilityScore).map fun s => decide (s ≤ cfg.maxVolScore)
    liqOk := (mv d.liquidityScore).map fun s => decide (cfg.goodLiquidity ≤ s)
    killEngaged := killEngaged
    hardBlocked := hardBlocked
    stale := signalFresh == some false || featureFresh == some false
    noTrade := !directional || d.overallStatus == .noTrade
    actionable := actionable
    canTrade := actionable && !hardBlocked
    strong := strong
    good := !strong && (convinced || rewarded)
    entry := entry
    stop := stop
    tp1 := tp1
    size := size
    rr := rr
    stopDistancePct := mv d.stopDistancePct
    capitalRiskPercent := mv d.capitalRiskPercent
    holdSeconds := d.expectedHoldingTime.seconds
    atr := atr
    atrPct :=
      match atr, entry with
      | some a, some e => if 0 < e then some (roundTo 4 (a / e * 100)) else none
      | _, _ => none
    maxLoss :=
      match size, distance with
      | some s, some x => some (roundTo 2 (s * x))
      | _, _ => none
    rewardPct :=
      match tp1, entry with
      | some t, some e => if 0 < e then some (roundTo 4 (|t - e| / e * 100)) else none
      | _, _ => none }

/-! ## Summary (`summary.ts`) -/

def actionFor (f : PlanFacts) : Action :=
  if f.noTrade then .noTrade
  else if f.hardBlocked then .noTrade
  else if !f.actionable || f.stale then .wait
  else if f.isLong then (if f.strong then .strongBuy else if f.good then .buy else .watch)
  else if f.isShort then (if f.strong then .strongSell else if f.good then .sell else .watch)
  else .wait

def buildDecisionSummary (inputs : TradePlanInputs) : DecisionSummary :=
  let f := deriveFacts inputs
  let action := actionFor f
  { action := action
    canTrade := f.canTrade
    shouldTrade := action == .strongBuy || action == .buy || action == .strongSell || action == .sell
    direction := f.direction
    confidence := f.confidence }

/-! ## Readiness (`readiness.ts`) -/

def clamp (x lo hi : ℚ) : ℚ := if x < lo then lo else if hi < x then hi else x

/-- Full weight on a pass, nothing on a failure or an unknown. -/
def gate (t : Tri) (weight : ℚ) : ℚ := if t = some true then weight else 0

def bandFor (score : ℚ) (cfg : TradePlanConfig) : ReadinessBand :=
  if cfg.readyBand ≤ score then .ready
  else if cfg.nearBand ≤ score then .near
  else if cfg.formingBand ≤ score then .forming
  else .notReady

def buildTradeReadiness (inputs : TradePlanInputs) : TradeReadiness :=
  let f := deriveFacts inputs
  let w := f.cfg.readinessWeights
  let denom := f.cfg.readyRR - 1
  let rrFrac :=
    match f.rr with
    | none => 0
    | some rr => if denom ≤ 0 then 0 else clamp ((rr - 1) / denom) 0 1
  let dqFrac :=
    match num inputs.dqScore with
    | none => 0
    | some s => clamp (s / 100) 0 1
  let half := w.freshness / 2
  let components : List ReadinessComponent :=
    [⟨"directional", w.directional, if f.directional then w.directional else 0⟩,
     ⟨"confidence", w.confidence, roundTo 2 (w.confidence * clamp f.confidence 0 1)⟩,
     ⟨"riskReward", w.riskReward, roundTo 2 (w.riskReward * rrFrac)⟩,
     ⟨"control", w.control, gate f.controlAllowed w.control⟩,
     ⟨"runtime", w.runtime, gate f.runtimeHealthy w.runtime⟩,
     ⟨"risk", w.risk, gate f.riskApproved w.risk⟩,
     ⟨"dataQuality", w.dataQuality, roundTo 2 (w.dataQuality * dqFrac)⟩,
     ⟨"freshness", w.freshness, roundTo 2 (gate f.signalFresh half + gate f.featureFresh half)⟩]
  let rawScore := (components.map (·.earned)).sum
  let score := roundTo 1 (clamp rawScore 0 100)
  { score := .fin score
    band := bandFor score f.cfg
    components := components }

/-- `buildTradePlan`. -/
def buildTradePlan (inputs : TradePlanInputs) : TradePlan :=
  let d := inputs.decision
  { signalId := d.signalId
    symbol := d.symbol
    timeframe := d.timeframe
    direction := d.direction
    confidence := d.confidence.finite?.getD 0
    summary := buildDecisionSummary inputs
    readiness := buildTradeReadiness inputs }

end NexusQuant.TradingPlan
