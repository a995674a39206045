import NexusQuant.PortfolioIntelligence.Heat

/-!
# Warnings

`warnings.ts`: the risks of a portfolio in a fixed order.
-/

namespace NexusQuant.PortfolioIntelligence

open Rounding

/-- The symbol with the greatest notional so far, and that notional. -/
def topStep (top : Option String × ℚ) (e : String × ℚ) : Option String × ℚ :=
  if top.2 < e.2 ∨ (e.2 = top.2 ∧ top.1.any fun symbol => Utf16.encode e.1 < Utf16.encode symbol) then
    (some e.1, e.2)
  else top

structure TopShare where
  symbol : Option String
  pct : ℚ
deriving DecidableEq, Repr

def topSymbolSharePct (facts : PortfolioFacts) : TopShare :=
  if facts.grossExposure ≤ 0 then ⟨none, 0⟩
  else
    let top := (notionalBySymbol facts).foldl topStep (none, -1)
    ⟨top.1, roundTo 2 (top.2 / facts.grossExposure * 100)⟩

def runtimeWarnings (facts : PortfolioFacts) (runtimeState : Option String) : List PortfolioWarning :=
  match facts.runtimeHealthy with
  | some false => [⟨"runtime-unhealthy", .high, "Runtime is not HEALTHY — trading gated", .runtime, .real,
      "runtimeState=" ++ runtimeState.getD "unknown"⟩]
  | none => [⟨"runtime-unknown", .low,
      "Runtime state unknown (control plane off / no data) — fail-closed", .runtime, .unavailable,
      "runtimeState=null"⟩]
  | some true => []

def capitalWarnings (facts : PortfolioFacts) : List PortfolioWarning :=
  if 0 < facts.openCount ∧ facts.capitalAvailable ≤ 0 then
    [⟨"no-capital", .high, "No capital remaining — book is fully deployed", .capital, .derived,
      "capitalUsed $" ++ shown facts.capitalUsed ++ " ≥ equity $" ++ shown facts.assumedEquity⟩]
  else if 0 < facts.openCount ∧ facts.cfg.capitalWarnPct ≤ facts.capitalPct then
    [⟨"low-capital", .medium, "Low capital remaining — most of the book is deployed", .capital, .derived,
      "capital " ++ shown facts.capitalPct ++ "% ≥ " ++ shown facts.cfg.capitalWarnPct ++ "% threshold"⟩]
  else []

def concentrationWarning (facts : PortfolioFacts) (top : TopShare) (symbol : String) :
    PortfolioWarning :=
  ⟨"over-concentrated", .medium, "Portfolio over-concentrated in " ++ symbol, .concentration, .derived,
    symbol ++ " " ++ shown top.pct ++ "% of gross ≥ " ++ shown facts.cfg.concentrationWarnPct ++
      "% (HHI " ++ shown (concentrationScore facts) ++ "/100)"⟩

/-- The symbol that the over-concentrated warning names, where it fires. -/
def overConcentrated (facts : PortfolioFacts) : Option String :=
  let top := topSymbolSharePct facts
  if facts.cfg.concentrationWarnPct ≤ top.pct then top.symbol else none

def concentrationWarnings (facts : PortfolioFacts) : List PortfolioWarning :=
  (overConcentrated facts).toList.map (concentrationWarning facts (topSymbolSharePct facts))

def skewWarnings (facts : PortfolioFacts) : List PortfolioWarning :=
  if 0 < facts.grossExposure then
    let longPct := roundTo 2 (facts.longExposure / facts.grossExposure * 100)
    let shortPct := roundTo 2 (facts.shortExposure / facts.grossExposure * 100)
    if facts.cfg.directionalSkewWarnPct ≤ longPct then
      [⟨"long-skew", .medium, "Too much long exposure — one-sided book", .exposure, .derived,
        "long " ++ shown longPct ++ "% of gross ≥ " ++ shown facts.cfg.directionalSkewWarnPct ++ "%"⟩]
    else if facts.cfg.directionalSkewWarnPct ≤ shortPct then
      [⟨"short-skew", .medium, "Too much short exposure — one-sided book", .exposure, .derived,
        "short " ++ shown shortPct ++ "% of gross ≥ " ++ shown facts.cfg.directionalSkewWarnPct ++ "%"⟩]
    else []
  else []

/-- A warning where its condition holds. -/
def warnIf (condition : Bool) (w : PortfolioWarning) : List PortfolioWarning :=
  if condition then [w] else []

def portfolioWarnings (facts : PortfolioFacts) (runtimeState : Option String) : List PortfolioWarning :=
  warnIf facts.killEngaged ⟨"kill-engaged", .critical, "Kill switch engaged — trading globally stopped",
    .control, .real, "killEngaged=true"⟩ ++
  warnIf (facts.controlAllowed == some false) ⟨"control-blocked", .critical,
    "Control plane is BLOCKING trading", .control, .real, "controlPermission=BLOCKED"⟩ ++
  runtimeWarnings facts runtimeState ++
  warnIf (facts.riskBudgetAbs < facts.riskUsedAbs && 0 < facts.riskBudgetAbs)
    ⟨"risk-over-budget", .critical, "Portfolio risk exceeds the risk budget", .risk, .derived,
      "risk $" ++ shown facts.riskUsedAbs ++ " > budget $" ++ shown facts.riskBudgetAbs ++ " (" ++
        shown facts.cfg.maxPortfolioRiskPct ++ "% of equity)"⟩ ++
  capitalWarnings facts ++
  concentrationWarnings facts ++
  skewWarnings facts ++
  warnIf (0 < facts.totalCount && facts.openCount == 0) ⟨"no-actionable", .low,
    "No actionable trades — nothing currently executable", .signal, .derived,
    "0 OPEN of " ++ toString facts.totalCount ++ " candidates"⟩ ++
  warnIf (0 < facts.staleCount) ⟨"stale-decisions", .medium,
    "Stale decisions present — past the freshness bound", .freshness, .derived,
    toString facts.staleCount ++ " directional signal(s) stale (> " ++
      shown facts.cfg.signalStaleSeconds ++ "s)"⟩ ++
  warnIf (0 < facts.lowDqCount) ⟨"low-dq", .medium, "Low data quality on one or more signals",
    .dataQuality, .real, toString facts.lowDqCount ++ " signal(s) below DQ floor " ++
      shown facts.cfg.minDqScore⟩

def buildPortfolioWarnings (inputs : PortfolioInputs) : PortfolioWarnings :=
  let out := portfolioWarnings (derivePortfolioFacts inputs) inputs.runtimeState
  let count (s : WarningSeverity) := (out.filter (·.severity == s)).length
  { warnings := out
    critical := count .critical
    high := count .high
    medium := count .medium
    low := count .low
    note :=
      if out = [] then "no portfolio warnings"
      else toString out.length ++ " warning(s): " ++ toString (count .critical) ++ " critical, " ++
        toString (count .high) ++ " high, " ++ toString (count .medium) ++ " medium, " ++
        toString (count .low) ++ " low" }

end NexusQuant.PortfolioIntelligence
