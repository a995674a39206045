import NexusQuant.Lib.DecimalText
import NexusQuant.Lib.Fallible
import NexusQuant.Lib.JsValue
import NexusQuant.TradingDecision.Types

/-!
# The sealed decision rule

`services/workers/src/signal/decision.ts`: the core-technical rule that the signal engine and the
replay engine both run.  The trend of the three averages gives the side, the strength index confirms
it, and the volatility filter overrides both.  The two interfaces `SignalParams` of the repository
have the same fields, so one structure stands for both.

A `JsNumber` has one zero.  The bound of the volatility is divided by, so where it is zero `negativeZero`
says which one it is; no column of the database holds the negative one.
-/

namespace NexusQuant.Signal

open Fallible
open TradingDecision (SignalParams)

/-- `DEFAULT_SIGNAL_PARAMS`. -/
def defaultSignalParams : SignalParams := ⟨.fin 55, .fin 45, .fin (2 / 100)⟩

/-- A finite number, else the fallback. -/
def numOr (raw : JsValue) (fallback : JsNumber) : JsNumber :=
  match raw with
  | .num x => if x.isFinite then x else fallback
  | _ => fallback

/-- An error is a `TypeError`: the parameters are no object. -/
def resolveSignalParams (parameters : JsValue) : Except String SignalParams := do
  let rsiLongMin ← parameters.member "rsiLongMin"
  let rsiShortMax ← parameters.member "rsiShortMax"
  let maxRealizedVol ← parameters.member "maxRealizedVol"
  .ok
    { rsiLongMin := numOr rsiLongMin defaultSignalParams.rsiLongMin
      rsiShortMax := numOr rsiShortMax defaultSignalParams.rsiShortMax
      maxRealizedVol := numOr maxRealizedVol defaultSignalParams.maxRealizedVol }

def clamp01 (x : JsNumber) : JsNumber :=
  if JsNumber.lt x (.fin 0) then .fin 0
  else if JsNumber.lt (.fin 1) x then .fin 1
  else x

/-- An entry that is not a number reads as a missing one. -/
abbrev Features := String → Option JsNumber

/-- A required feature; an error is the message of a `SignalInputError`. -/
def feature (features : Features) (key : String) : Except String ℚ :=
  match num (features key) with
  | some v => .ok v
  | none => .error ("feature " ++ key ++ " missing or non-finite (fail-closed)")

/-- The features of the rule. -/
structure RuleInputs where
  ema20 : ℚ
  ema50 : ℚ
  ema200 : ℚ
  rsi : ℚ
  realizedVol : ℚ
deriving DecidableEq, Repr

def readInputs (features : Features) : Except String RuleInputs := do
  let ema20 ← feature features "ema_20"
  let ema50 ← feature features "ema_50"
  let ema200 ← feature features "ema_200"
  let rsi ← feature features "rsi_14"
  let realizedVol ← feature features "realized_vol_30"
  .ok ⟨ema20, ema50, ema200, rsi, realizedVol⟩

structure SignalDecisionResult where
  side : SignalDecision
  decision : SignalDecision
  confidence : JsNumber
deriving DecidableEq, Repr

def bull (x : RuleInputs) : Bool := decide (x.ema50 < x.ema20) && decide (x.ema200 < x.ema50)

def bear (x : RuleInputs) : Bool := decide (x.ema20 < x.ema50) && decide (x.ema50 < x.ema200)

/-- The trend, where the strength index confirms it. -/
def directional (x : RuleInputs) (params : SignalParams) : SignalDecision :=
  if bull x && JsNumber.le params.rsiLongMin (.fin x.rsi) then .long
  else if bear x && JsNumber.le (.fin x.rsi) params.rsiShortMax then .short
  else .flat

def volFiltered (x : RuleInputs) (params : SignalParams) : Bool :=
  JsNumber.lt params.maxRealizedVol (.fin x.realizedVol)

/-- The excess over a bound, relative to it. -/
def excess (vol : ℚ) (bound : JsNumber) (negativeZero : Bool) : JsNumber :=
  let quotient := (.fin vol - bound) / bound
  if negativeZero && bound == .fin 0 then -quotient else quotient

/-- The side of the trend, before the filter. -/
def trendSide (x : RuleInputs) : SignalDecision :=
  if bull x then .long else if bear x then .short else .flat

/-- The rule over the features it has read. -/
def decideInputs (x : RuleInputs) (params : SignalParams) (negativeZero : Bool := false) :
    SignalDecisionResult :=
  let decision : SignalDecision := if volFiltered x params then .flat else directional x params
  -- An average at zero makes the quotient infinite, and not a number where both are zero.
  let trendStrength := clamp01 (.fin |x.ema20 - x.ema200| / .fin |x.ema200|)
  let rsiConviction := clamp01 (.fin |x.rsi - 50| / .fin 50)
  { side := trendSide x
    decision
    confidence :=
      if decision = .long ∨ decision = .short then
        clamp01 (.fin (1 / 2) * trendStrength + .fin (1 / 2) * rsiConviction)
      else if volFiltered x params then
        clamp01 (excess x.realizedVol params.maxRealizedVol negativeZero)
      else .fin 0 }

/-- An error is the message of a `SignalInputError`. -/
def decideSignal (features : Features) (params : SignalParams) (negativeZero : Bool := false) :
    Except String SignalDecisionResult :=
  (readInputs features).map fun x => decideInputs x params negativeZero

/-- Four decimals. -/
def quantizeConfidence (x : JsNumber) : String := DecimalText.jsToFixed 4 (clamp01 x)

/-! ## Reading -/

theorem feature_ok_iff {features : Features} {key : String} {v : ℚ} :
    feature features key = .ok v ↔ num (features key) = some v := by
  unfold feature
  cases num (features key) with
  | none => simp
  | some w => simp

theorem isFinite_numOr (raw : JsValue) {fallback : JsNumber} (h : fallback.isFinite) :
    (numOr raw fallback).isFinite := by
  unfold numOr
  split
  · split
    · rename_i hx
      exact hx
    · exact h
  · exact h

structure FiniteParams (params : SignalParams) : Prop where
  rsiLongMin : params.rsiLongMin.isFinite
  rsiShortMax : params.rsiShortMax.isFinite
  maxRealizedVol : params.maxRealizedVol.isFinite

/-- Whatever the parameters are resolved from, they are finite. -/
theorem finite_of_resolve {parameters : JsValue} {params : SignalParams}
    (h : resolveSignalParams parameters = .ok params) : FiniteParams params := by
  obtain ⟨rsiLongMin, -, h⟩ := bind_eq_ok.mp h
  obtain ⟨rsiShortMax, -, h⟩ := bind_eq_ok.mp h
  obtain ⟨maxRealizedVol, -, h⟩ := bind_eq_ok.mp h
  cases h
  exact ⟨isFinite_numOr _ rfl, isFinite_numOr _ rfl, isFinite_numOr _ rfl⟩

theorem numOr_num {x fallback : JsNumber} (h : x.isFinite) : numOr (.num x) fallback = x :=
  if_pos h

/-- The value has the three fields of `params`. -/
structure Holds (v : JsValue) (params : SignalParams) : Prop where
  rsiLongMin : v.member "rsiLongMin" = .ok (.num params.rsiLongMin)
  rsiShortMax : v.member "rsiShortMax" = .ok (.num params.rsiShortMax)
  maxRealizedVol : v.member "maxRealizedVol" = .ok (.num params.maxRealizedVol)

/-- What holds finite parameters resolves to them. -/
theorem Holds.resolve {v : JsValue} {params : SignalParams} (h : Holds v params)
    (hfinite : FiniteParams params) : resolveSignalParams v = .ok params := by
  unfold resolveSignalParams
  rw [h.rsiLongMin, h.rsiShortMax, h.maxRealizedVol]
  show Except.ok (⟨_, _, _⟩ : SignalParams) = _
  rw [numOr_num hfinite.rsiLongMin, numOr_num hfinite.rsiShortMax,
    numOr_num hfinite.maxRealizedVol]

/-! ## The direction -/

theorem bull_eq_false_of_bear {x : RuleInputs} (h : bear x) : bull x = false := by
  simp only [bear, bull, Bool.and_eq_true, decide_eq_true_eq, Bool.and_eq_false_iff,
    decide_eq_false_iff_not] at h ⊢
  exact .inl (not_lt.mpr h.1.le)

/-- The rule decides in the direction of the trend or not at all. -/
theorem side_of_decision {x : RuleInputs} {params : SignalParams}
    (h : (decideInputs x params).decision ≠ .flat) :
    (decideInputs x params).side = (decideInputs x params).decision := by
  simp only [decideInputs, trendSide, directional] at h ⊢
  by_cases hvol : volFiltered x params
  · simp [hvol] at h
  · by_cases hbull : bull x
    · by_cases hrsi : JsNumber.le params.rsiLongMin (.fin x.rsi)
      · simp [hvol, hbull, hrsi]
      · have hnot : bear x = false := by
          cases hb : bear x
          · rfl
          · rw [bull_eq_false_of_bear hb] at hbull
            cases hbull
        simp [hvol, hrsi, hnot] at h
    · by_cases hb : bear x
      · by_cases hrsi : JsNumber.le (.fin x.rsi) params.rsiShortMax
        · simp [hvol, hbull, hb, hrsi]
        · simp [hvol, hbull, hrsi] at h
      · simp [hvol, hbull, hb] at h

end NexusQuant.Signal
