import NexusQuant.Core

/-!
# Trading decision: contracts

`packages/trading-decision/src/types.ts`.  A `Measure` keeps its value and its provenance; the
`basis` text beside it is read by no function modelled here and is left out, as is the
explainability block of a decision.
-/

namespace NexusQuant.TradingDecision

inductive Provenance where
  | verbatim | real | derived | estimated | unavailable
deriving DecidableEq, Repr

structure Measure where
  value : Option JsNumber
  provenance : Provenance
deriving DecidableEq, Repr

structure SignalParams where
  rsiLongMin : JsNumber
  rsiShortMax : JsNumber
  maxRealizedVol : JsNumber
deriving DecidableEq, Repr

structure SignalProjection where
  id : String
  symbol : String
  side : SignalDecision
  decision : SignalDecision
  confidence : JsNumber
  featureHash : String
  datasetHash : String
  strategyVersionId : String
  strategyParams : SignalParams
  createdAt : Instant
deriving DecidableEq, Repr

/-- The current mark.  The callers only pass a finite price. -/
structure PriceObservation where
  price : ℚ
  ts : String
  source : String
deriving DecidableEq, Repr

structure LiquidityObservation where
  spreadBps : Option JsNumber
  depthUsd : Option JsNumber
  ts : String
deriving DecidableEq, Repr

structure RiskContext where
  assumedEquity : ℚ
  riskFraction : ℚ
  leverage : ℚ
  maxNotional : ℚ
  systemRiskMode : Option RiskMode
deriving DecidableEq, Repr

inductive Permission where
  | allowed | blocked
deriving DecidableEq, Repr

structure ControlContext where
  permission : Option Permission
  runtimeState : Option String
  killEngaged : Bool
  blockedReasons : List String
deriving DecidableEq, Repr

structure DecisionConfig where
  atrStopMult : ℚ := 3 / 2
  atrTp1Mult : ℚ := 3 / 2
  atrTp2Mult : ℚ := 3
  atrTp3Mult : ℚ := 9 / 2
  holdingHorizonBars : ℕ := 20
  refSpreadBps : ℚ := 10
  refDepthUsd : ℚ := 1000000
  priceDecimals : ℕ := 2
deriving DecidableEq, Repr

/-- `DEFAULT_DECISION_CONFIG`. -/
def defaultDecisionConfig : DecisionConfig := {}

structure DecisionInputs where
  now : JsNumber
  signal : SignalProjection
  features : String → Option JsNumber
  featureTs : Option Instant
  timeframe : Timeframe
  dqScore : JsNumber
  price : Option PriceObservation
  liquidity : Option LiquidityObservation
  risk : RiskContext
  control : ControlContext
  config : DecisionConfig := defaultDecisionConfig

inductive ExecutionStatus where
  | ready | waiting | blocked | unknown
deriving DecidableEq, Repr

inductive RiskStatus where
  | approved | blocked | notApplicable | unknown
deriving DecidableEq, Repr

inductive ControlStatus where
  | allowed | blocked | unknown
deriving DecidableEq, Repr

inductive OverallStatus where
  | actionable | waiting | blocked | noTrade | incomplete
deriving DecidableEq, Repr

structure RiskStatusView where
  status : RiskStatus
  reason : String
  staticOnly : Bool
deriving DecidableEq, Repr

structure RegimeView where
  regime : Option MarketRegime
  provenance : Provenance
deriving DecidableEq, Repr

structure HoldingTimeView where
  seconds : Option ℕ
  bars : Option ℕ
  provenance : Provenance
deriving DecidableEq, Repr

structure Decision where
  signalId : String
  symbol : String
  timeframe : Timeframe
  direction : SignalDecision
  bias : SignalDecision
  confidence : JsNumber
  createdAt : Instant
  signalAgeSeconds : JsNumber
  featureAgeSeconds : Option JsNumber
  currentPrice : Measure
  entryPrice : Measure
  stopLoss : Measure
  takeProfit1 : Measure
  takeProfit2 : Measure
  takeProfit3 : Measure
  riskRewardRatio : Measure
  stopDistancePct : Measure
  positionSize : Measure
  positionNotional : Measure
  capitalRiskPercent : Measure
  assumedEquity : JsNumber
  expectedHoldingTime : HoldingTimeView
  trendStrength : Measure
  momentumScore : Measure
  volatilityScore : Measure
  liquidityScore : Measure
  marketRegime : RegimeView
  executionStatus : ExecutionStatus
  riskStatus : RiskStatusView
  controlStatus : ControlStatus
  overallStatus : OverallStatus
  featureHash : String
  datasetHash : String
  strategyVersionId : String
  provenanceNotes : List String
deriving DecidableEq, Repr

/-- The finite value of a measure, or nothing (`mv` of the plan and execution packages). -/
def mv (m : Measure) : Option ℚ := num m.value

end NexusQuant.TradingDecision
