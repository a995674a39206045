import Mathlib.Data.List.Sort
import NexusQuant.TradingPlan.Plan

/-!
# Portfolio intelligence: contracts

`packages/portfolio-intelligence/src/types.ts` and `util.ts`.  A served plan has one more field than the
plan module models, the maximum loss of its risk checklist.
-/

namespace NexusQuant.PortfolioIntelligence

open TradingDecision (Decision Provenance)
open TradingPlan (Action ReadinessBand TradePlan)

structure PortfolioMeasure where
  value : Option ℚ
  provenance : Provenance
  basis : String
deriving DecidableEq, Repr

structure HeatWeights where
  capital : ℚ
  risk : ℚ
  concentration : ℚ
  directionalSkew : ℚ
  gating : ℚ
deriving DecidableEq, Repr

/-- `DEFAULT_HEAT_WEIGHTS`. -/
def defaultHeatWeights : HeatWeights := ⟨25, 30, 20, 15, 10⟩

structure PortfolioConfig where
  defaultEquity : ℚ
  maxPortfolioRiskPct : ℚ
  concentrationWarnPct : ℚ
  directionalSkewWarnPct : ℚ
  capitalWarnPct : ℚ
  signalStaleSeconds : ℚ
  featureStaleSeconds : ℚ
  minDqScore : ℚ
  heatWeights : HeatWeights
  heatExtremeBand : ℚ
  heatHotBand : ℚ
  heatWarmBand : ℚ
deriving DecidableEq, Repr

/-- `DEFAULT_PORTFOLIO_CONFIG`. -/
def defaultPortfolioConfig : PortfolioConfig where
  defaultEquity := 100000
  maxPortfolioRiskPct := 10
  concentrationWarnPct := 60
  directionalSkewWarnPct := 80
  capitalWarnPct := 90
  signalStaleSeconds := 180
  featureStaleSeconds := 180
  minDqScore := minDataQualityScore
  heatWeights := defaultHeatWeights
  heatExtremeBand := 85
  heatHotBand := 60
  heatWarmBand := 35

/-- The members that a caller overrides. -/
structure PartialConfig where
  defaultEquity : Option ℚ := none
  maxPortfolioRiskPct : Option ℚ := none
  concentrationWarnPct : Option ℚ := none
  directionalSkewWarnPct : Option ℚ := none
  capitalWarnPct : Option ℚ := none
  signalStaleSeconds : Option ℚ := none
  featureStaleSeconds : Option ℚ := none
  minDqScore : Option ℚ := none
  heatWeights : Option HeatWeights := none
  heatExtremeBand : Option ℚ := none
  heatHotBand : Option ℚ := none
  heatWarmBand : Option ℚ := none
deriving DecidableEq, Repr

/-! ## Inputs -/

structure ServedPlan extends TradePlan where
  /-- `risk.maximumLoss.value`. -/
  maximumLoss : Option JsNumber
deriving DecidableEq, Repr

structure PortfolioItem where
  decision : Decision
  plan : ServedPlan
  dqScore : Option JsNumber
deriving DecidableEq, Repr

inductive ControlPermission where
  | allowed | blocked
deriving DecidableEq, Repr

structure PortfolioInputs where
  now : JsNumber
  items : List PortfolioItem
  runtimeState : Option String
  controlPermission : Option ControlPermission
  killEngaged : Bool
  config : PartialConfig := {}
deriving DecidableEq, Repr

/-! ## Positions -/

inductive PositionState where
  | «open» | waiting | blocked | flat
deriving DecidableEq, Repr

structure PortfolioPosition where
  signalId : String
  symbol : String
  timeframe : Timeframe
  direction : SignalDecision
  state : PositionState
  action : Action
  confidence : ℚ
  notional : Option ℚ
  maxLoss : Option ℚ
  riskPct : Option ℚ
  riskReward : Option ℚ
  readiness : ℚ
  readinessBand : ReadinessBand
  regime : Option MarketRegime
  contributesExposure : Bool
deriving DecidableEq, Repr

/-! ## Outputs -/

structure ExposureGroup where
  key : String
  notional : ℚ
  sharePct : ℚ
  count : ℕ
  provenance : Provenance
deriving DecidableEq, Repr

structure ExposureBuckets where
  byState : List ExposureGroup
  byConfidence : List ExposureGroup
  byRisk : List ExposureGroup
deriving DecidableEq, Repr

structure PortfolioExposure where
  bySymbol : List ExposureGroup
  bySide : List ExposureGroup
  byRegime : List ExposureGroup
  buckets : ExposureBuckets
  grossExposure : ℚ
  netExposure : ℚ
  note : String
deriving DecidableEq, Repr

structure SymbolAllocation where
  symbol : String
  capitalPct : PortfolioMeasure
  riskPct : PortfolioMeasure
  exposurePct : PortfolioMeasure
deriving DecidableEq, Repr

structure AllocationRef where
  symbol : Option String
  value : Option ℚ
  provenance : Provenance
  basis : String
deriving DecidableEq, Repr

structure CapitalAllocation where
  capitalPct : PortfolioMeasure
  riskPct : PortfolioMeasure
  exposurePct : PortfolioMeasure
  perSymbol : List SymbolAllocation
  largestPosition : AllocationRef
  largestRisk : AllocationRef
  largestOpportunity : AllocationRef
  concentration : PortfolioMeasure
  note : String
deriving DecidableEq, Repr

inductive HeatBand where
  | cool | warm | hot | extreme
deriving DecidableEq, Repr

structure HeatComponent where
  key : String
  label : String
  weight : ℚ
  earned : ℚ
  basis : String
deriving DecidableEq, Repr

structure RiskHeat where
  heatScore : ℚ
  heatBand : HeatBand
  diversificationScore : ℚ
  concentrationScore : ℚ
  portfolioRisk : ℚ
  portfolioStability : ℚ
  components : List HeatComponent
  note : String
deriving DecidableEq, Repr

inductive WarningSeverity where
  | critical | high | medium | low
deriving DecidableEq, Repr

inductive WarningSource where
  | control | runtime | risk | exposure | capital | concentration | dataQuality | freshness | signal
deriving DecidableEq, Repr

structure PortfolioWarning where
  id : String
  severity : WarningSeverity
  reason : String
  source : WarningSource
  provenance : Provenance
  basis : String
deriving DecidableEq, Repr

structure PortfolioWarnings where
  warnings : List PortfolioWarning
  critical : ℕ
  high : ℕ
  medium : ℕ
  low : ℕ
  note : String
deriving DecidableEq, Repr

structure StatRef where
  symbol : Option String
  timeframe : Option Timeframe
  direction : Option SignalDecision
  value : Option ℚ
deriving DecidableEq, Repr

structure ConfidenceBucket where
  label : String
  count : ℕ
deriving DecidableEq, Repr

structure PortfolioDistribution where
  byAction : List (Action × ℕ)
  byReadinessBand : List (ReadinessBand × ℕ)
  byRegime : List ExposureGroup
  confidenceBuckets : List ConfidenceBucket
deriving DecidableEq, Repr

structure PortfolioStatistics where
  sampleSize : ℕ
  averageConfidence : Option ℚ
  medianConfidence : Option ℚ
  highestConfidence : Option ℚ
  lowestConfidence : Option ℚ
  averageRiskReward : Option ℚ
  averageReadiness : Option ℚ
  averageRisk : Option ℚ
  bestOpportunity : StatRef
  worstOpportunity : StatRef
  distribution : PortfolioDistribution
  note : String
deriving DecidableEq, Repr

/-! ## Helpers (`util.ts`) -/

def clamp (x lo hi : ℚ) : ℚ := if x < lo then lo else if hi < x then hi else x

def clamp01 (x : ℚ) : ℚ := clamp x 0 1

/-- The absent values contribute nothing. -/
def sumFinite (xs : List (Option ℚ)) : ℚ := (xs.map (·.getD 0)).sum

def avg (xs : List (Option ℚ)) : Option ℚ :=
  let vals := xs.filterMap id
  if vals = [] then none else some (vals.sum / vals.length)

def median (xs : List ℚ) : Option ℚ :=
  let vals := xs.insertionSort (· ≤ ·)
  let mid := vals.length / 2
  if vals = [] then none
  else if vals.length % 2 = 1 then vals[mid]?
  else some ((vals.getD (mid - 1) 0 + vals.getD mid 0) / 2)

def maxFinite (xs : List ℚ) : Option ℚ := xs.max?

def minFinite (xs : List ℚ) : Option ℚ := xs.min?

def safeDiv (n d : ℚ) : Option ℚ := if d = 0 then none else some (n / d)

/-- A number inside a text. -/
def shown (q : ℚ) : String := numberText (.fin q)

end NexusQuant.PortfolioIntelligence
