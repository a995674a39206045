import Mathlib.Data.List.Defs
import Mathlib.Algebra.BigOperators.Group.List.Defs
import NexusQuant.Lib.JsNumber

/-!
# The core technical features

`app/features/core_technical.py`: the checks of a batch of candles and the ten values computed from it,
up to their rounding to ten digits and the hash.  The numbers are exact; reading a decimal, the
logarithm, the square root and the quoting of a text in a message are the platform's.
-/

namespace NexusQuant.Quant

structure Platform where
  /-- `float(text)`, nothing for a text that is not numeric. -/
  float : String → Option JsNumber
  log : ℚ → ℚ
  sqrt : ℚ → ℚ
  /-- The text as a literal, as `!r` writes it. -/
  repr : String → String

/-- `MIN_CANDLES`. -/
def minCandles : ℕ := 201

inductive FeatureComputationError where
  | insufficientData (message : String)
  | invalidMarketData (message : String)
deriving DecidableEq, Repr

section Parsing

variable (p : Platform)

/-- The two readers differ in whether zero is accepted and in what they say. -/
def parseBounded (accepted : ℚ → Bool) (bound raw field : String) (index : ℕ) :
    Except FeatureComputationError ℚ :=
  let place := "candle[" ++ toString index ++ "]." ++ field
  match p.float raw with
  | none => .error (.invalidMarketData (place ++ " is not numeric: " ++ p.repr raw))
  | some value =>
      match value.finite? with
      | some q =>
          if accepted q then .ok q
          else .error (.invalidMarketData
            (place ++ " must be finite and " ++ bound ++ ", got " ++ p.repr raw))
      | none =>
          .error (.invalidMarketData
            (place ++ " must be finite and " ++ bound ++ ", got " ++ p.repr raw))

def parsePositive (raw field : String) (index : ℕ) : Except FeatureComputationError ℚ :=
  parseBounded p (0 < ·) "> 0" raw field index

def parseNonNegative (raw field : String) (index : ℕ) : Except FeatureComputationError ℚ :=
  parseBounded p (0 ≤ ·) ">= 0" raw field index

end Parsing

/-! ## Indicators -/

/-- `math.fsum(values[:period]) / period`. -/
def seed (values : List ℚ) (period : ℕ) : ℚ := (values.take period).sum / period

def ema (closes : List ℚ) (period : ℕ) : ℚ :=
  let k : ℚ := 2 / (period + 1)
  (closes.drop period).foldl (fun ema value => (value - ema) * k + ema) (seed closes period)

/-- `np.diff`. -/
def diff (values : List ℚ) : List ℚ := List.zipWith (· - ·) values.tail values

def gains (closes : List ℚ) : List ℚ := (diff closes).map fun d => if 0 < d then d else 0

def losses (closes : List ℚ) : List ℚ := (diff closes).map fun d => if d < 0 then -d else 0

/-- Wilder's smoothing of the next value. -/
def wilderStep (period : ℕ) (avg value : ℚ) : ℚ := (avg * (period - 1) + value) / period

def rsiWilder (closes : List ℚ) (period : ℕ) : ℚ :=
  let moves := (gains closes).zip (losses closes)
  let averages := (moves.drop period).foldl
    (fun avg move => (wilderStep period avg.1 move.1, wilderStep period avg.2 move.2))
    (seed (gains closes) period, seed (losses closes) period)
  if averages.1 = 0 ∧ averages.2 = 0 then 50
  else if averages.2 = 0 then 100
  else 100 - 100 / (1 + averages.1 / averages.2)

/-- The true ranges from the second bar on. -/
def trueRanges (highs lows closes : List ℚ) : List ℚ :=
  List.zipWith3 (fun h l prevClose => max (h - l) (max |h - prevClose| |l - prevClose|))
    highs.tail lows.tail closes.dropLast

def atrWilder (highs lows closes : List ℚ) (period : ℕ) : ℚ :=
  let tr := trueRanges highs lows closes
  (tr.drop period).foldl (wilderStep period) (seed tr period)

/-- `values[-n:]`. -/
def lastN (n : ℕ) (values : List ℚ) : List ℚ := values.drop (values.length - n)

/-- `np.max`, of no values zero. -/
def npMax (values : List ℚ) : ℚ := values.max?.getD 0

/-- `np.min`, of no values zero. -/
def npMin (values : List ℚ) : ℚ := values.min?.getD 0

def average (values : List ℚ) : ℚ := values.sum / values.length

/-- The deviation of a sample, with one degree of freedom less. -/
def sampleStd (p : Platform) (values : List ℚ) : ℚ :=
  p.sqrt ((values.map fun v => (v - average values) ^ 2).sum / (values.length - 1))

/-! ## The vector -/

/-- The numbers of a candle that are read. -/
structure Bar where
  high : ℚ
  low : ℚ
  close : ℚ
  volume : ℚ
deriving DecidableEq, Repr

/-- The values before they are rounded. -/
structure RawFeatures where
  ema20 : ℚ
  ema50 : ℚ
  ema200 : ℚ
  rsi14 : ℚ
  atr14 : ℚ
  realizedVol30 : ℚ
  volumeZscore100 : ℚ
  donchianUpper20 : ℚ
  donchianLower20 : ℚ
  donchianMid20 : ℚ
deriving DecidableEq, Repr

def rawFeatures (p : Platform) (closes highs lows volumes : List ℚ) : RawFeatures :=
  let logReturns := diff ((lastN 31 closes).map p.log)
  let volWindow := lastN 100 volumes
  let volStd := sampleStd p volWindow
  let donchianUpper := npMax (lastN 20 highs)
  let donchianLower := npMin (lastN 20 lows)
  { ema20 := ema closes 20
    ema50 := ema closes 50
    ema200 := ema closes 200
    rsi14 := rsiWilder closes 14
    atr14 := atrWilder highs lows closes 14
    realizedVol30 := sampleStd p logReturns
    volumeZscore100 :=
      if volStd = 0 then 0 else ((volWindow.getLast?).getD 0 - average volWindow) / volStd
    donchianUpper20 := donchianUpper
    donchianLower20 := donchianLower
    donchianMid20 := (donchianUpper + donchianLower) / 2 }

/-- A candle as it arrives. -/
structure CandleRow where
  high : String
  low : String
  close : String
  volume : String
  ts : Option String
deriving DecidableEq, Repr

/-- A field of every candle, the first that is refused giving the error. -/
def parseColumn (parse : String → ℕ → Except FeatureComputationError ℚ) (column : List String) :
    Except FeatureComputationError (List ℚ) :=
  (column.zipIdx).mapM fun cell => parse cell.1 cell.2

/-- All values being exact, none is refused for not being finite. -/
def computeCoreTechnical (p : Platform) (candles : List CandleRow) :
    Except FeatureComputationError RawFeatures := do
  if candles.length < minCandles then
    throw (.insufficientData ("core-technical v1 requires >= " ++ toString minCandles ++
      " candles, got " ++ toString candles.length))
  if (candles.getLast?.bind (·.ts)) = none then
    throw (.invalidMarketData
      "last candle carries no ts — the deterministic as-of timestamp is required (fail-closed)")
  let closes ← parseColumn (fun raw => parsePositive p raw "close") (candles.map (·.close))
  let highs ← parseColumn (fun raw => parsePositive p raw "high") (candles.map (·.high))
  let lows ← parseColumn (fun raw => parsePositive p raw "low") (candles.map (·.low))
  let volumes ← parseColumn (fun raw => parseNonNegative p raw "volume") (candles.map (·.volume))
  return rawFeatures p closes highs lows volumes

example : rsiWilder [10, 11, 10, 12] 2 = 250 / 3 := by decide +kernel

end NexusQuant.Quant
