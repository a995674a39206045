import NexusQuant.Lib.Comparator
import NexusQuant.Lib.Utf16
import NexusQuant.TradingDecision.Decision

/-!
# The ranking of opportunities

`ranking.ts`: every decision is scored by a weighted blend of its components and sorted into one of five
buckets.
-/

namespace NexusQuant.TradingDecision

open Rounding

structure RankComponents where
  confidence : ℚ
  riskReward : ℚ
  liquidity : ℚ
  featureQuality : ℚ
  executionReady : ℚ
  riskApproved : ℚ
  controlApproved : ℚ
deriving DecidableEq, Repr

structure RankedDecision where
  symbol : String
  timeframe : Timeframe
  direction : SignalDecision
  rankScore : ℚ
  confidence : JsNumber
  riskReward : Option JsNumber
  liquidityScore : Option JsNumber
  executionStatus : ExecutionStatus
  riskStatus : RiskStatus
  controlStatus : ControlStatus
  overallStatus : OverallStatus
  components : RankComponents
deriving DecidableEq, Repr

structure OpportunityBoard where
  topLong : List RankedDecision
  topShort : List RankedDecision
  watchlist : List RankedDecision
  blocked : List RankedDecision
  waiting : List RankedDecision
  total : ℕ
  note : String
deriving DecidableEq, Repr

/-- A decision with the quality of the features it was admitted under. -/
structure RankItem where
  decision : Decision
  featureQuality : JsNumber
deriving DecidableEq, Repr

/-- `W`, the weights of the components. -/
def rankWeights : RankComponents := ⟨30 / 100, 20 / 100, 15 / 100, 10 / 100, 10 / 100, 75 / 1000, 75 / 1000⟩

/-- The quality of the features is filled in by `toRanked`. -/
def components (d : Decision) : RankComponents where
  confidence := clamp01 d.confidence
  riskReward := (d.riskRewardRatio.value.map fun rr => clamp01 (rr / .fin 3)).getD 0
  liquidity := (d.liquidityScore.value.map fun l => clamp01 (l / .fin 100)).getD 0
  featureQuality := 0
  executionReady := if d.executionStatus = .ready then 1 else 0
  riskApproved := if d.riskStatus.status = .approved then 1 else 0
  controlApproved := if d.controlStatus = .allowed then 1 else 0

def score (c : RankComponents) : ℚ :=
  let w := rankWeights
  roundTo 4 (w.confidence * c.confidence + w.riskReward * c.riskReward + w.liquidity * c.liquidity +
    w.featureQuality * c.featureQuality + w.executionReady * c.executionReady +
    w.riskApproved * c.riskApproved + w.controlApproved * c.controlApproved)

def toRanked (item : RankItem) : RankedDecision :=
  let d := item.decision
  let c := { components d with featureQuality := clamp01 item.featureQuality }
  { symbol := d.symbol
    timeframe := d.timeframe
    direction := d.direction
    rankScore := score c
    confidence := d.confidence
    riskReward := d.riskRewardRatio.value
    liquidityScore := d.liquidityScore.value
    executionStatus := d.executionStatus
    riskStatus := d.riskStatus.status
    controlStatus := d.controlStatus
    overallStatus := d.overallStatus
    components := c }

def timeframeText : Timeframe → String
  | .m1 => "M1"
  | .m5 => "M5"
  | .m15 => "M15"
  | .h1 => "H1"
  | .h4 => "H4"
  | .d1 => "D1"

/-- By score downwards, then by symbol, then by timeframe. -/
def byScore : RankedDecision → RankedDecision → ℚ :=
  Comparator.lex [fun a b => b.rankScore - a.rankScore,
    fun a b => Comparator.ofOrder (Utf16.encode a.symbol) (Utf16.encode b.symbol),
    fun a b => Comparator.ofOrder (Utf16.encode (timeframeText a.timeframe))
      (Utf16.encode (timeframeText b.timeframe))]

def isTop (r : RankedDecision) : Bool :=
  r.overallStatus == .actionable && (r.direction == .long || r.direction == .short)

def isTopLong (r : RankedDecision) : Bool := isTop r && r.direction == .long

def isTopShort (r : RankedDecision) : Bool := isTop r && r.direction == .short

def isBlocked (r : RankedDecision) : Bool := r.overallStatus == .blocked

def isWaiting (r : RankedDecision) : Bool := r.overallStatus == .waiting

def isWatched (r : RankedDecision) : Bool :=
  r.overallStatus != .blocked && r.overallStatus != .waiting && !isTop r

def rankOpportunities (items : List RankItem) : OpportunityBoard :=
  let ranked := items.map toRanked
  let blocked := Comparator.sort byScore (ranked.filter isBlocked)
  let waiting := Comparator.sort byScore (ranked.filter isWaiting)
  let topLong := Comparator.sort byScore (ranked.filter isTopLong)
  let topShort := Comparator.sort byScore (ranked.filter isTopShort)
  let watchlist := Comparator.sort byScore (ranked.filter isWatched)
  { topLong
    topShort
    watchlist
    blocked
    waiting
    total := ranked.length
    note := toString ranked.length ++ " decisions ranked — " ++ toString topLong.length ++ " long / " ++
      toString topShort.length ++ " short / " ++ toString watchlist.length ++ " watch / " ++
      toString blocked.length ++ " blocked / " ++ toString waiting.length ++ " waiting" }

end NexusQuant.TradingDecision
