import NexusQuant.Lib.JsNumber

/-!
# Vocabulary shared by the packages

The enumerations of `packages/core/src/types.ts` and the two helpers that the decision, plan and
execution packages each carry a copy of: `num` reads a finite number or nothing, and numbers are
printed into notes and messages by `numberText`.
-/

namespace NexusQuant

inductive SignalDecision where
  | long | short | flat
deriving DecidableEq, Repr

inductive Timeframe where
  | m1 | m5 | m15 | h1 | h4 | d1
deriving DecidableEq, Repr

inductive MarketRegime where
  | trendingBull | trendingBear | rangeBound | highVol | lowVol | panic | euphoria
deriving DecidableEq, Repr

inductive RiskMode where
  | normal | elevated | riskOff | frozen
deriving DecidableEq, Repr

/-- `MIN_DATA_QUALITY_SCORE`. -/
def minDataQualityScore : ℚ := 90

/-- A finite number, or nothing: missing, infinite and not-a-number all read as absent. -/
def num (x : Option JsNumber) : Option ℚ := x.bind JsNumber.finite?

/-- An instant as the packages carry it: the ISO text, and what `new Date(text).getTime()` reads
from it (not a number for a text that is no date). -/
structure Instant where
  text : String
  time : JsNumber
deriving DecidableEq, Repr

/-- `Math.round`: the nearest integer, a tie going up. -/
def mathRound : JsNumber → JsNumber
  | .fin q => .fin (round q)
  | x => x

/-- The fraction digits of `r / den`, at most `fuel` of them. -/
def fractionDigits (den : ℕ) : ℕ → ℕ → List Char
  | 0, _ => []
  | fuel + 1, r =>
      if r = 0 then []
      else Nat.digitChar (10 * r / den) :: fractionDigits den fuel (10 * r % den)

/-- The decimal expansion of a rational.  A double has a finite one, with no more digits than its
denominator has bits; the text of any other rational is cut there. -/
def ratText (q : ℚ) : String :=
  let whole := (if q < 0 then "-" else "") ++ toString (q.num.natAbs / q.den)
  match fractionDigits q.den (q.den.log2 + 1) (q.num.natAbs % q.den) with
  | [] => whole
  | digits => whole ++ "." ++ String.ofList digits

def numberText : JsNumber → String
  | .fin q => ratText q
  | .nan => "NaN"
  | .posInf => "Infinity"
  | .negInf => "-Infinity"

example : ratText (-5 / 4) = "-1.25" := by decide +kernel

end NexusQuant
