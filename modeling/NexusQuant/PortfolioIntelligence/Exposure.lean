import NexusQuant.Lib.Grouping
import NexusQuant.PortfolioIntelligence.Facts

/-!
# Exposure

`exposure.ts`: the open book by symbol, side, regime, confidence and risk, and all candidates by state.
-/

namespace NexusQuant.PortfolioIntelligence

open Rounding TradingDecision

/-- A group while it is collected. -/
structure GroupAgg where
  notional : ℚ
  count : ℕ
  missing : Bool
deriving DecidableEq, Repr

def emptyGroup : GroupAgg := ⟨0, 0, false⟩

/-- Only a position that contributes adds to the notional, nothing where its source is missing. -/
def addToGroup (g : GroupAgg) (p : PortfolioPosition) : GroupAgg :=
  { notional := if p.contributesExposure then g.notional + p.notional.getD 0 else g.notional
    count := g.count + 1
    missing := g.missing || (p.contributesExposure && p.notional.isNone) }

def groupProvenance (g : GroupAgg) : Provenance := if g.missing then .estimated else .derived

/-- By notional downwards, then by key. -/
def compareGroups : ExposureGroup → ExposureGroup → ℚ :=
  Comparator.lex [fun a b => b.notional - a.notional,
    fun a b => Comparator.ofOrder (Utf16.encode a.key) (Utf16.encode b.key)]

def group (positions : List PortfolioPosition) (keyFn : PortfolioPosition → String) :
    List ExposureGroup :=
  let agg := Dict.collect keyFn emptyGroup addToGroup positions
  let total := Dict.total GroupAgg.notional agg
  Comparator.sort compareGroups (agg.map fun e =>
    { key := e.1
      notional := roundTo 2 e.2.notional
      sharePct := if 0 < total then roundTo 2 (e.2.notional / total * 100) else 0
      count := e.2.count
      provenance := groupProvenance e.2 })

def confidenceBand (p : PortfolioPosition) : String :=
  if 3 / 4 ≤ p.confidence then "HIGH" else if 1 / 2 ≤ p.confidence then "MEDIUM" else "LOW"

def riskBand (p : PortfolioPosition) : String :=
  match p.riskPct with
  | none => "UNKNOWN"
  | some pct => if pct < 1 / 2 then "LOW" else if pct < 3 / 2 then "MODERATE" else "HIGH"

def stateText : PositionState → String
  | .open => "OPEN"
  | .waiting => "WAITING"
  | .blocked => "BLOCKED"
  | .flat => "FLAT"

def directionText : SignalDecision → String
  | .long => "LONG"
  | .short => "SHORT"
  | .flat => "FLAT"

def regimeText : Option MarketRegime → String
  | some .trendingBull => "TRENDING_BULL"
  | some .trendingBear => "TRENDING_BEAR"
  | some .rangeBound => "RANGE_BOUND"
  | some .highVol => "HIGH_VOL"
  | some .lowVol => "LOW_VOL"
  | some .panic => "PANIC"
  | some .euphoria => "EUPHORIA"
  | none => "UNKNOWN"

def buildPortfolioExposure (inputs : PortfolioInputs) : PortfolioExposure :=
  let facts := derivePortfolioFacts inputs
  { bySymbol := group facts.open (·.symbol)
    bySide := group facts.open fun p => directionText p.direction
    byRegime := group facts.open fun p => regimeText p.regime
    buckets :=
      { byState := group facts.positions fun p => stateText p.state
        byConfidence := group facts.open confidenceBand
        byRisk := group facts.open riskBand }
    grossExposure := facts.grossExposure
    netExposure := facts.netExposure
    note :=
      if facts.open = [] then
        "no open exposure — all groupings empty (only OPEN positions expose capital)"
      else "gross $" ++ shown facts.grossExposure ++ " across " ++ toString facts.open.length ++
        " open position(s); net $" ++ shown facts.netExposure }

end NexusQuant.PortfolioIntelligence
