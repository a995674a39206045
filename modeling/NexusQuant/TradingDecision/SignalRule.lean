import NexusQuant.Lib.JsValue
import NexusQuant.TradingDecision.Decision

/-!
# The mirrored decision rule

`signal-rule.ts` of the trading-decision package: a copy by hand of the rule the signal engine runs,
over the helpers of this package, and the copy of `resolveSignalParams` in `util.ts`.
-/

namespace NexusQuant.TradingDecision

/-- `DEFAULT_SIGNAL_PARAMS`. -/
def defaultSignalParams : SignalParams := ⟨.fin 55, .fin 45, .fin (2 / 100)⟩

/-- The local `num` of `resolveSignalParams`. -/
def numOr (v : JsValue) (fallback : JsNumber) : JsNumber :=
  match v with
  | .num x => if x.isFinite then x else fallback
  | _ => fallback

/-- A member of `raw ?? {}`, which always has members. -/
def paramOf (raw : JsValue) (key : String) : JsValue :=
  match raw.orEmpty.member key with
  | .ok v => v
  | .error _ => .undefined

def resolveSignalParams (raw : JsValue) : SignalParams where
  rsiLongMin := numOr (paramOf raw "rsiLongMin") defaultSignalParams.rsiLongMin
  rsiShortMax := numOr (paramOf raw "rsiShortMax") defaultSignalParams.rsiShortMax
  maxRealizedVol := numOr (paramOf raw "maxRealizedVol") defaultSignalParams.maxRealizedVol

structure RuleResult where
  side : SignalDecision
  decision : SignalDecision
  confidence : ℚ
  volFiltered : Bool
  trendStrength : ℚ
  rsiConviction : ℚ
deriving DecidableEq, Repr

/-- The rule over the features it has read. -/
def ruleResult (ema20 ema50 ema200 rsi realizedVol : ℚ) (params : SignalParams) : RuleResult :=
  let bull := decide (ema50 < ema20) && decide (ema200 < ema50)
  let bear := decide (ema20 < ema50) && decide (ema50 < ema200)
  let directional : SignalDecision :=
    if bull && JsNumber.le params.rsiLongMin (.fin rsi) then .long
    else if bear && JsNumber.le (.fin rsi) params.rsiShortMax then .short
    else .flat
  let volFiltered := JsNumber.lt params.maxRealizedVol (.fin realizedVol)
  let decision : SignalDecision := if volFiltered then .flat else directional
  -- The clamp of this package sends what is not finite to zero.
  let trendStrength := clamp01 (.fin |ema20 - ema200| / .fin |ema200|)
  let rsiConviction := clamp01 (.fin |rsi - 50| / .fin 50)
  { side := if bull then .long else if bear then .short else .flat
    decision
    confidence :=
      if decision = .long ∨ decision = .short then
        clamp01 (.fin (1 / 2 * trendStrength + 1 / 2 * rsiConviction))
      else if volFiltered then
        clamp01 ((.fin realizedVol - params.maxRealizedVol) / params.maxRealizedVol)
      else 0
    volFiltered
    trendStrength
    rsiConviction }

/-- Nothing where a required feature is missing or not finite. -/
def applyRule (features : String → Option JsNumber) (params : SignalParams) : Option RuleResult :=
  match readFeature features "ema_20", readFeature features "ema_50",
    readFeature features "ema_200", readFeature features "rsi_14",
    readFeature features "realized_vol_30" with
  | some ema20, some ema50, some ema200, some rsi, some realizedVol =>
      some (ruleResult ema20 ema50 ema200 rsi realizedVol params)
  | _, _, _, _, _ => none

end NexusQuant.TradingDecision
