import NexusQuant.Lib.DecimalText
import NexusQuant.PortfolioIntelligence.Heat

/-!
# Capital allocation

`allocation.ts`: the deployment of the equity by symbol, and the superlatives of the book.
-/

namespace NexusQuant.PortfolioIntelligence

open Rounding TradingDecision

/-- What is added up of a symbol. -/
structure SymAgg where
  gross : ℚ
  net : ℚ
  risk : ℚ
  grossHasSource : Bool
  riskHasSource : Bool
  bestReadiness : ℚ
  bestConfidence : ℚ
deriving DecidableEq, Repr

def emptySymAgg : SymAgg := ⟨0, 0, 0, false, false, -1, -1⟩

def addToSymbol (cur : SymAgg) (p : PortfolioPosition) : SymAgg :=
  let notional := p.notional.getD 0
  { gross := cur.gross + notional
    net := cur.net + if p.direction = .short then -notional else notional
    risk := cur.risk + p.maxLoss.getD 0
    grossHasSource := cur.grossHasSource || p.notional.isSome
    riskHasSource := cur.riskHasSource || p.maxLoss.isSome
    bestReadiness := if cur.bestReadiness < p.readiness then p.readiness else cur.bestReadiness
    bestConfidence := if cur.bestReadiness < p.readiness then p.confidence else cur.bestConfidence }

def aggregateBySymbol (facts : PortfolioFacts) : Dict SymAgg :=
  Dict.collect (·.symbol) emptySymAgg addToSymbol facts.open

def pct (amount equity : ℚ) : ℚ := if 0 < equity then roundTo 2 (amount / equity * 100) else 0

def naRef (basis : String) : AllocationRef := ⟨none, none, .unavailable, basis⟩

/-- A symbol replaces the largest so far when its own figure, unrounded, is above the one on display, or
equal to it under a smaller name. -/
def largerRef (source : SymAgg → Bool) (figure : SymAgg → ℚ) (basis : String) (largest : AllocationRef)
    (e : String × SymAgg) : AllocationRef :=
  let replaces :=
    match largest.value with
    | none => true
    | some value => decide (value < figure e.2) ||
        (decide (figure e.2 = value) &&
          largest.symbol.any fun symbol => Utf16.encode e.1 < Utf16.encode symbol)
  if source e.2 && replaces then
    ⟨some e.1, some (roundTo 2 (figure e.2)), .derived, e.1 ++ basis⟩
  else largest

def largestPosition (bySymbol : Dict SymAgg) : AllocationRef :=
  bySymbol.foldl (largerRef SymAgg.grossHasSource SymAgg.gross " gross notional")
    (naRef "no open position with a notional source")

def largestRisk (bySymbol : Dict SymAgg) : AllocationRef :=
  bySymbol.foldl (largerRef SymAgg.riskHasSource SymAgg.risk " Σ maxLoss")
    (naRef "no open position with a maxLoss source")

/-- The best opportunity so far, with its readiness and its confidence. -/
structure Opportunity where
  ref : AllocationRef
  bestReadiness : ℚ
  bestConfidence : ℚ
deriving DecidableEq, Repr

def betterOpportunity (o : Opportunity) (p : PortfolioPosition) : Opportunity :=
  if o.bestReadiness < p.readiness ∨
      (p.readiness = o.bestReadiness ∧ o.bestConfidence < p.confidence) ∨
      (p.readiness = o.bestReadiness ∧ p.confidence = o.bestConfidence ∧
        o.ref.symbol.any fun symbol => Utf16.encode p.symbol < Utf16.encode symbol) then
    { ref := ⟨some p.symbol, some (roundTo 1 p.readiness), .derived, p.symbol ++ " readiness " ++
        shown (roundTo 1 p.readiness) ++ " (confidence " ++ DecimalText.toFixed 4 p.confidence ++ ")"⟩
      bestReadiness := p.readiness
      bestConfidence := p.confidence }
  else o

def largestOpportunity (directional : List PortfolioPosition) : AllocationRef :=
  (directional.foldl betterOpportunity ⟨naRef "no directional candidates", -1, -1⟩).ref

/-- The allocation of one symbol. -/
def symbolAllocation (facts : PortfolioFacts) (e : String × SymAgg) : SymbolAllocation :=
  let equity := facts.assumedEquity
  { symbol := e.1
    capitalPct := ⟨some (pct e.2.gross equity), .derived,
      e.1 ++ " gross $" ++ shown (roundTo 2 e.2.gross) ++ " ÷ equity $" ++ shown equity⟩
    riskPct := ⟨some (pct e.2.risk equity), .derived,
      e.1 ++ " risk $" ++ shown (roundTo 2 e.2.risk) ++ " ÷ equity $" ++ shown equity⟩
    exposurePct := ⟨some (if 0 < facts.grossExposure then roundTo 2 (e.2.gross / facts.grossExposure * 100)
      else 0), .derived,
      e.1 ++ " gross $" ++ shown (roundTo 2 e.2.gross) ++ " ÷ gross $" ++ shown facts.grossExposure⟩ }

/-- By capital downwards, then by symbol. -/
def compareAllocations : SymbolAllocation → SymbolAllocation → ℚ :=
  Comparator.lex [fun x y => y.capitalPct.value.getD 0 - x.capitalPct.value.getD 0,
    fun x y => Comparator.ofOrder (Utf16.encode x.symbol) (Utf16.encode y.symbol)]

/-- How many open positions have a source. -/
def covered (source : PortfolioPosition → Option ℚ) (facts : PortfolioFacts) : ℕ :=
  (facts.open.filter fun p => (source p).isSome).length

def coverageProvenance (facts : PortfolioFacts) (covered : ℕ) : Provenance :=
  if 0 < facts.openCount ∧ covered < facts.openCount then .estimated else .derived

def buildCapitalAllocation (inputs : PortfolioInputs) : CapitalAllocation :=
  let facts := derivePortfolioFacts inputs
  let equity := facts.assumedEquity
  let notionalCovered := covered (·.notional) facts
  let riskCovered := covered (·.maxLoss) facts
  let coverage (name : String) (n : ℕ) :=
    " (" ++ name ++ " from " ++ toString n ++ "/" ++ toString facts.openCount ++ " open)"
  let notionalProv := coverageProvenance facts notionalCovered
  let bySymbol := aggregateBySymbol facts
  let perSymbol := Comparator.sort compareAllocations (bySymbol.map (symbolAllocation facts))
  let conc := concentrationScore facts
  { capitalPct := ⟨some (pct facts.grossExposure equity), notionalProv,
      "gross $" ++ shown facts.grossExposure ++ " ÷ equity $" ++ shown equity ++
        coverage "notional" notionalCovered⟩
    riskPct := ⟨some (pct facts.riskUsedAbs equity), coverageProvenance facts riskCovered,
      "risk $" ++ shown facts.riskUsedAbs ++ " ÷ equity $" ++ shown equity ++
        coverage "maxLoss" riskCovered⟩
    exposurePct := ⟨some (pct facts.netExposure equity), notionalProv,
      "net $" ++ shown facts.netExposure ++ " ÷ equity $" ++ shown equity ++
        coverage "notional" notionalCovered⟩
    perSymbol
    largestPosition := largestPosition bySymbol
    largestRisk := largestRisk bySymbol
    largestOpportunity := largestOpportunity facts.directional
    concentration := ⟨some conc, if 0 < facts.openCount then notionalProv else .unavailable,
      if 0 < facts.openCount then "HHI of gross-exposure shares (1 symbol→100, n equal→100/n)"
      else "no open exposure"⟩
    note :=
      if 0 < facts.openCount then
        "capital " ++ shown (pct facts.grossExposure equity) ++ "% deployed across " ++
          toString perSymbol.length ++ " symbol(s); concentration " ++ shown conc ++ "/100"
      else "no open exposure — allocation is empty (nothing deployed)" }

end NexusQuant.PortfolioIntelligence
