import NexusQuant.PortfolioIntelligence.Exposure

/-!
# Statistics

`statistics.ts`: descriptive figures of the directional candidates.
-/

namespace NexusQuant.PortfolioIntelligence

open Rounding TradingDecision
open TradingPlan (Action ReadinessBand)

/-- `ALL_ACTIONS`. -/
def allActions : List Action := [.strongBuy, .buy, .watch, .wait, .noTrade, .sell, .strongSell]

/-- `ALL_BANDS`. -/
def allBands : List ReadinessBand := [.ready, .near, .forming, .notReady]

/-- Whether the best (or the worst) opportunity is looked for. -/
inductive PickDirection where
  | best | worst
deriving DecidableEq, Repr

def isBetter (dir : PickDirection) (p best : PortfolioPosition) : Bool :=
  let dr := p.readiness - best.readiness
  let dc := p.confidence - best.confidence
  let tie := dr = 0 && dc = 0 && Utf16.encode p.symbol < Utf16.encode best.symbol
  match dir with
  | .best => 0 < dr || (dr = 0 && 0 < dc) || tie
  | .worst => dr < 0 || (dr = 0 && dc < 0) || tie

def pickStep (dir : PickDirection) (best : Option PortfolioPosition) (p : PortfolioPosition) :
    Option PortfolioPosition :=
  match best with
  | none => some p
  | some b => if isBetter dir p b then some p else some b

def pickByReadiness (sample : List PortfolioPosition) (dir : PickDirection) : StatRef :=
  match sample.foldl (pickStep dir) none with
  | none => ⟨none, none, none, none⟩
  | some best =>
      ⟨some best.symbol, some best.timeframe, some best.direction, some (roundTo 1 best.readiness)⟩

def confidenceBuckets (sample : List PortfolioPosition) : List ConfidenceBucket :=
  let bucket (label : String) (lo hi : ℚ) : ConfidenceBucket :=
    ⟨label, (sample.filter fun p => lo ≤ p.confidence && p.confidence < hi).length⟩
  [bucket "0.00–0.25" 0 (1 / 4), bucket "0.25–0.50" (1 / 4) (1 / 2), bucket "0.50–0.75" (1 / 2) (3 / 4),
    bucket "0.75–1.00" (3 / 4) (10001 / 10000)]

/-- By count downwards, then by key. -/
def compareCounts : ExposureGroup → ExposureGroup → ℚ :=
  Comparator.lex [fun a b => (b.count : ℚ) - a.count,
    fun a b => Comparator.ofOrder (Utf16.encode a.key) (Utf16.encode b.key)]

def regimeGroups (sample : List PortfolioPosition) : List ExposureGroup :=
  let agg := Dict.collect (fun p => regimeText p.regime) emptyGroup addToGroup sample
  let total := sample.length
  Comparator.sort compareCounts (agg.map fun e =>
    { key := e.1
      notional := roundTo 2 e.2.notional
      sharePct := if 0 < total then roundTo 2 (e.2.count / total * 100) else 0
      count := e.2.count
      provenance := groupProvenance e.2 })

def buildPortfolioStatistics (inputs : PortfolioInputs) : PortfolioStatistics :=
  let facts := derivePortfolioFacts inputs
  let sample := facts.directional
  let confidences := sample.map (·.confidence)
  let averageConfidence := (avg (confidences.map some)).map (roundTo 4)
  { sampleSize := sample.length
    averageConfidence
    medianConfidence := (median confidences).map (roundTo 4)
    highestConfidence := (maxFinite confidences).map (roundTo 4)
    lowestConfidence := (minFinite confidences).map (roundTo 4)
    averageRiskReward := (avg (sample.map (·.riskReward))).map (roundTo 2)
    averageReadiness := (avg (sample.map fun p => some p.readiness)).map (roundTo 1)
    averageRisk := (avg (sample.map (·.riskPct))).map (roundTo 4)
    bestOpportunity := pickByReadiness sample .best
    worstOpportunity := pickByReadiness sample .worst
    distribution :=
      { byAction := allActions.map fun a => (a, (facts.positions.filter (·.action == a)).length)
        byReadinessBand := allBands.map fun b => (b, (sample.filter (·.readinessBand == b)).length)
        byRegime := regimeGroups sample
        confidenceBuckets := confidenceBuckets sample }
    note :=
      if sample = [] then "no directional candidates — statistics fail closed (null)"
      else toString sample.length ++ " directional candidate(s); avg confidence " ++
        (averageConfidence.map shown).getD "—" }

end NexusQuant.PortfolioIntelligence
