import NexusQuant.Lib.Comparator
import NexusQuant.Lib.Utf16
import NexusQuant.PortfolioIntelligence.Types

/-!
# The facts of a portfolio

`facts.ts`: the state of every candidate, and the counts and sums that all builders read.
-/

namespace NexusQuant.PortfolioIntelligence

open Rounding TradingDecision

structure PortfolioFacts where
  cfg : PortfolioConfig
  now : JsNumber
  killEngaged : Bool
  controlAllowed : TradingPlan.Tri
  runtimeHealthy : TradingPlan.Tri
  positions : List PortfolioPosition
  «open» : List PortfolioPosition
  directional : List PortfolioPosition
  openCount : ℕ
  waitingCount : ℕ
  blockedCount : ℕ
  flatCount : ℕ
  readyCount : ℕ
  totalCount : ℕ
  staleCount : ℕ
  lowDqCount : ℕ
  assumedEquity : ℚ
  longExposure : ℚ
  shortExposure : ℚ
  grossExposure : ℚ
  netExposure : ℚ
  capitalUsed : ℚ
  capitalAvailable : ℚ
  capitalPct : ℚ
  riskUsedAbs : ℚ
  riskBudgetAbs : ℚ
  riskRemainingAbs : ℚ
  riskUsedPct : ℚ
deriving DecidableEq, Repr

def resolveConfig (partialConfig : PartialConfig) : PortfolioConfig :=
  let d := defaultPortfolioConfig
  { defaultEquity := partialConfig.defaultEquity.getD d.defaultEquity
    maxPortfolioRiskPct := partialConfig.maxPortfolioRiskPct.getD d.maxPortfolioRiskPct
    concentrationWarnPct := partialConfig.concentrationWarnPct.getD d.concentrationWarnPct
    directionalSkewWarnPct := partialConfig.directionalSkewWarnPct.getD d.directionalSkewWarnPct
    capitalWarnPct := partialConfig.capitalWarnPct.getD d.capitalWarnPct
    signalStaleSeconds := partialConfig.signalStaleSeconds.getD d.signalStaleSeconds
    featureStaleSeconds := partialConfig.featureStaleSeconds.getD d.featureStaleSeconds
    minDqScore := partialConfig.minDqScore.getD d.minDqScore
    heatWeights := partialConfig.heatWeights.getD d.heatWeights
    heatExtremeBand := partialConfig.heatExtremeBand.getD d.heatExtremeBand
    heatHotBand := partialConfig.heatHotBand.getD d.heatHotBand
    heatWarmBand := partialConfig.heatWarmBand.getD d.heatWarmBand }

section Item

variable (item : PortfolioItem) (killEngaged : Bool) (cfg : PortfolioConfig)

/-- An unknown age is not stale. -/
def isStale : Bool :=
  (num (some item.decision.signalAgeSeconds)).any (cfg.signalStaleSeconds < ·) ||
    (num item.decision.featureAgeSeconds).any (cfg.featureStaleSeconds < ·)

def isHardBlocked : Bool :=
  killEngaged || item.decision.controlStatus == .blocked || item.decision.riskStatus.status == .blocked ||
    item.decision.overallStatus == .blocked

def classify : PositionState :=
  let d := item.decision
  if d.direction = .flat ∨ d.overallStatus = .noTrade then .flat
  else if isHardBlocked item killEngaged then .blocked
  else if item.plan.summary.canTrade && d.overallStatus == .actionable && !isStale item cfg then .open
  else .waiting

def toPosition : PortfolioPosition :=
  let d := item.decision
  let p := item.plan
  let state := classify item killEngaged cfg
  { signalId := d.signalId
    symbol := d.symbol
    timeframe := d.timeframe
    direction := d.direction
    state
    action := p.summary.action
    confidence := d.confidence.finite?.getD 0
    notional := mv d.positionNotional
    maxLoss := num p.maximumLoss
    riskPct := mv d.capitalRiskPercent
    riskReward := mv d.riskRewardRatio
    readiness := p.readiness.score.finite?.getD 0
    readinessBand := p.readiness.band
    regime := d.marketRegime.regime
    contributesExposure := state == .open }

end Item

/-- By symbol, then by signal. -/
def comparePositions : PortfolioPosition → PortfolioPosition → ℤ :=
  Comparator.lex [fun a b => Comparator.ofOrder (Utf16.encode a.symbol) (Utf16.encode b.symbol),
    fun a b => Comparator.ofOrder (Utf16.encode a.signalId) (Utf16.encode b.signalId)]

def hasDirection (d : SignalDecision) (p : PortfolioPosition) : Bool := p.direction == d

def inState (s : PositionState) (p : PortfolioPosition) : Bool := p.state == s

def derivePortfolioFacts (inputs : PortfolioInputs) : PortfolioFacts :=
  let cfg := resolveConfig inputs.config
  let killEngaged := inputs.killEngaged
  let positions := Comparator.sort comparePositions
    (inputs.items.map fun item => toPosition item killEngaged cfg)
  let opened := positions.filter (inState .open)
  let equities := (inputs.items.filterMap fun item => item.decision.assumedEquity.finite?).filter (0 < ·)
  let assumedEquity := equities.max?.getD cfg.defaultEquity
  let longExposure := roundTo 2 (sumFinite ((opened.filter (hasDirection .long)).map (·.notional)))
  let shortExposure := roundTo 2 (sumFinite ((opened.filter (hasDirection .short)).map (·.notional)))
  let grossExposure := roundTo 2 (longExposure + shortExposure)
  let riskUsedAbs := roundTo 2 (sumFinite (opened.map (·.maxLoss)))
  let riskBudgetAbs := roundTo 2 (assumedEquity * cfg.maxPortfolioRiskPct / 100)
  { cfg
    now := inputs.now
    killEngaged
    controlAllowed := inputs.controlPermission.map (· == .allowed)
    runtimeHealthy := inputs.runtimeState.map (· == "HEALTHY")
    positions
    «open» := opened
    directional := positions.filter fun p => !hasDirection .flat p
    openCount := opened.length
    waitingCount := (positions.filter (inState .waiting)).length
    blockedCount := (positions.filter (inState .blocked)).length
    flatCount := (positions.filter (inState .flat)).length
    readyCount := (opened.filter fun p => p.readinessBand == .ready).length
    totalCount := positions.length
    -- The two counts over the items, not over the positions.
    staleCount := (inputs.items.filter fun item =>
      item.decision.direction != .flat && isStale item cfg).length
    lowDqCount := (inputs.items.filter fun item => (num item.dqScore).any (· < cfg.minDqScore)).length
    assumedEquity
    longExposure
    shortExposure
    grossExposure
    netExposure := roundTo 2 (longExposure - shortExposure)
    capitalUsed := grossExposure
    capitalAvailable := roundTo 2 (max 0 (assumedEquity - grossExposure))
    capitalPct := if 0 < assumedEquity then roundTo 2 (grossExposure / assumedEquity * 100) else 0
    riskUsedAbs
    riskBudgetAbs
    riskRemainingAbs := roundTo 2 (max 0 (riskBudgetAbs - riskUsedAbs))
    riskUsedPct := if 0 < assumedEquity then roundTo 2 (riskUsedAbs / assumedEquity * 100) else 0 }

end NexusQuant.PortfolioIntelligence
