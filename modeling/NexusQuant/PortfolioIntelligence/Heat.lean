import NexusQuant.Lib.Grouping
import NexusQuant.PortfolioIntelligence.Facts

/-!
# Risk heat

`heat.ts`: five shares of a weight each, added up; one of them is the concentration of the open book.
-/

namespace NexusQuant.PortfolioIntelligence

open Rounding

/-- The notional of a position, added to that of its symbol. -/
def addNotional (sum : ℚ) (p : PortfolioPosition) : ℚ := sum + p.notional.getD 0

/-- The open notional of every symbol with a source. -/
def notionalBySymbol (facts : PortfolioFacts) : Dict ℚ :=
  Dict.collect (·.symbol) 0 addNotional (facts.open.filter fun p => p.notional.isSome)

/-- The sum of the squared shares of the rounded gross exposure, between nothing and a hundred. -/
def concentrationScore (facts : PortfolioFacts) : ℚ :=
  if facts.grossExposure ≤ 0 then 0
  else
    let hhi := Dict.total (fun notional => (notional / facts.grossExposure) ^ 2) (notionalBySymbol facts)
    roundTo 2 (clamp01 hhi * 100)

def bandFor (score : ℚ) (cfg : PortfolioConfig) : HeatBand :=
  if cfg.heatExtremeBand ≤ score then .extreme
  else if cfg.heatHotBand ≤ score then .hot
  else if cfg.heatWarmBand ≤ score then .warm
  else .cool

def bandText : HeatBand → String
  | .cool => "COOL"
  | .warm => "WARM"
  | .hot => "HOT"
  | .extreme => "EXTREME"

def heatComponents (facts : PortfolioFacts) : List HeatComponent :=
  let w := facts.cfg.heatWeights
  let capitalFrac := clamp01 (facts.capitalPct / 100)
  let riskFrac := if 0 < facts.riskBudgetAbs then clamp01 (facts.riskUsedAbs / facts.riskBudgetAbs) else 0
  let concentration := concentrationScore facts
  let skewFrac :=
    if 0 < facts.grossExposure then clamp01 (|facts.netExposure| / facts.grossExposure) else 0
  let denom := facts.directional.length
  let stressed := facts.blockedCount + facts.staleCount
  let gatingFrac := if 0 < denom then clamp01 (stressed / denom) else 0
  [{ key := "capital"
     label := "Capital deployed"
     weight := w.capital
     earned := roundTo 2 (w.capital * capitalFrac)
     basis := "capital " ++ shown facts.capitalPct ++ "% of equity" },
   { key := "risk"
     label := "Risk vs budget"
     weight := w.risk
     earned := roundTo 2 (w.risk * riskFrac)
     basis := "risk $" ++ shown facts.riskUsedAbs ++ " of $" ++ shown facts.riskBudgetAbs ++ " budget" },
   { key := "concentration"
     label := "Concentration"
     weight := w.concentration
     earned := roundTo 2 (w.concentration * clamp01 (concentration / 100))
     basis := "HHI concentration " ++ shown concentration ++ "/100" },
   { key := "directionalSkew"
     label := "Directional skew"
     weight := w.directionalSkew
     earned := roundTo 2 (w.directionalSkew * skewFrac)
     basis := "|net| $" ++ shown |facts.netExposure| ++ " ÷ gross $" ++ shown facts.grossExposure },
   { key := "gating"
     label := "Gating stress"
     weight := w.gating
     earned := roundTo 2 (w.gating * gatingFrac)
     basis := "blocked " ++ toString facts.blockedCount ++ ", stale " ++ toString facts.staleCount ++
       " of " ++ toString denom ++ " directional" }]

def buildRiskHeat (inputs : PortfolioInputs) : RiskHeat :=
  let facts := derivePortfolioFacts inputs
  let w := facts.cfg.heatWeights
  let components := heatComponents facts
  let concentration := concentrationScore facts
  let heatScore := roundTo 1 (clamp (components.map (·.earned)).sum 0 100)
  let heatBand := bandFor heatScore facts.cfg
  { heatScore
    heatBand
    diversificationScore := roundTo 2 (100 - concentration)
    concentrationScore := concentration
    portfolioRisk :=
      if 0 < facts.riskBudgetAbs then
        roundTo 2 (clamp ((safeDiv facts.riskUsedAbs facts.riskBudgetAbs).getD 0 * 100) 0 100)
      else 0
    portfolioStability := roundTo 1 (100 - heatScore)
    components
    note :=
      if facts.openCount = 0 then
        "no open exposure — heat is COOL by construction (nothing deployed)"
      else "heat " ++ shown heatScore ++ "/100 (" ++ bandText heatBand ++
        ") from documented weights (sum " ++
        shown (w.capital + w.risk + w.concentration + w.directionalSkew + w.gating) ++ ")" }

end NexusQuant.PortfolioIntelligence
