import NexusQuant.Ingestion.Gaps
import NexusQuant.Lib.Binary64
import NexusQuant.Lib.Calendar
import NexusQuant.Lib.JsonValue

/-!
# The data quality gate

`dq/checks.ts`, `dq/score.ts`, `dq/stage-b-client.ts` and `dq/index.ts`: four checks of the batch, the
checks that a statistical service answers with, one score over all of them, and one report.  The
request, its answer and the database are inputs; so is the hash of the batch.  A percentage and a sum
of deductions are rounded as the doubles they are.
-/

namespace NexusQuant.Ingestion

/-! ## Checks (`checks.ts`) -/

def timeframeText : Timeframe → String
  | .m1 => "M1"
  | .m5 => "M5"
  | .m15 => "M15"
  | .h1 => "H1"
  | .h4 => "H4"
  | .d1 => "D1"

structure StructuralCheck where
  check : String
  passed : Bool
  deduction : ℚ
  detail : String
  /-- The tag of the failure taxonomy, nothing where it is absent or no text. -/
  category : Option String := none
deriving DecidableEq, Repr

structure CheckWeights where
  schemaConformance : ℚ
  duplicates : ℚ
  timestampMonotonic : ℚ
  gaps : ℚ

/-- `CHECK_WEIGHTS`. -/
def checkWeights : CheckWeights := ⟨40, 20, 15, 25⟩

/-- `SAMPLE_CAP`. -/
def sampleCap : ℕ := 5

def sampleList (samples : List String) : String :=
  if samples = [] then ""
  else " samples=[" ++ ", ".intercalate (samples.take sampleCap) ++ "]"

def isFiniteDecimalString (value : String) : Bool :=
  DecimalText.trim value.toList != [] && (Binary64.toNumber value).isFinite

/-- What is wrong with the numbers of a row, all of them being finite. -/
def rangeReasons (o : Ohlcv JsNumber) : List String :=
  let zero := JsNumber.fin 0
  (if JsNumber.lt o.open zero || JsNumber.lt o.high zero || JsNumber.lt o.low zero ||
      JsNumber.lt o.close zero then ["negative_price"] else []) ++
  (if JsNumber.lt o.high o.low then ["high_lt_low"] else []) ++
  (if JsNumber.lt o.open o.low || JsNumber.lt o.high o.open then ["open_outside_range"] else []) ++
  (if JsNumber.lt o.close o.low || JsNumber.lt o.high o.close then ["close_outside_range"] else []) ++
  (if JsNumber.lt o.volume zero then ["negative_volume"] else [])

/-- The texts of a candle. -/
def NormalizedCandle.ohlcv (c : NormalizedCandle) : Ohlcv String :=
  ⟨c.open, c.high, c.low, c.close, c.volume⟩

def rowReasons (c : NormalizedCandle) : List String :=
  let fields := [("open", c.open), ("high", c.high), ("low", c.low), ("close", c.close),
    ("volume", c.volume)]
  let unparseable := (fields.filter fun f => !isFiniteDecimalString f.2).map (·.1 ++ "_not_finite")
  if unparseable = [] then rangeReasons (c.ohlcv.map Binary64.toNumber) else unparseable

/-- How often each reason occurs, in the order of their first occurrence. -/
def countReasons (reasons : List String) : Dict ℕ :=
  reasons.foldl (fun counts r => Dict.set counts r ((Dict.get? counts r).getD 0 + 1)) []

def checkSchemaConformance (candles : List NormalizedCandle) : StructuralCheck :=
  let bad := candles.filter fun c => rowReasons c ≠ []
  let summary := (countReasons (bad.flatMap rowReasons)).map fun e => e.1 ++ ":" ++ toString e.2
  let samples := (bad.take sampleCap).map fun c => Calendar.isoText c.ts
  { check := "schema_conformance"
    passed := bad.isEmpty
    deduction := if bad.isEmpty then 0 else checkWeights.schemaConformance
    detail :=
      if bad.isEmpty then "all " ++ toString candles.length ++ " rows conform"
      else toString bad.length ++ "/" ++ toString candles.length ++ " rows violate schema (" ++
        ", ".intercalate summary ++ ");" ++ sampleList samples }

def candleKeyText (c : NormalizedCandle) : String :=
  c.exchange.text ++ "|" ++ c.symbol ++ "|" ++ timeframeText c.timeframe ++ "|" ++ toString c.ts

/-- The rows whose key has been seen before, in order. -/
def duplicateRows : List String → List NormalizedCandle → List NormalizedCandle
  | _, [] => []
  | seen, c :: candles =>
      let rest := duplicateRows (candleKeyText c :: seen) candles
      if candleKeyText c ∈ seen then c :: rest else rest

def checkDuplicates (candles : List NormalizedCandle) : StructuralCheck :=
  let rows := duplicateRows [] candles
  { check := "duplicates"
    passed := rows.isEmpty
    deduction := if rows.isEmpty then 0 else checkWeights.duplicates
    detail :=
      if rows.isEmpty then "no duplicate keys in " ++ toString candles.length ++ " rows"
      else toString rows.length ++ " duplicate row(s) by (exchange,symbol,timeframe,ts);" ++
        sampleList ((rows.take sampleCap).map fun c => Calendar.isoText c.ts) }

/-- The instants that come before the one in front of them, and those off the grid; a row that is both
is one sample. -/
def disordered (gridMs : ℤ) : Option ℤ → List ℤ → List (ℤ × Bool × Bool)
  | _, [] => []
  | prev, ms :: rest =>
      let unsorted := prev.any (ms < ·)
      let offGrid := ms % gridMs ≠ 0
      let bad := disordered gridMs (some ms) rest
      if unsorted || offGrid then (ms, unsorted, decide offGrid) :: bad else bad

def checkTimestampMonotonic (candles : List NormalizedCandle) (timeframe : Timeframe) :
    StructuralCheck :=
  let bad := disordered (timeframeMs timeframe) none (candles.map (·.ts))
  let unsorted := bad.countP fun b => b.2.1
  let offGrid := bad.countP fun b => b.2.2
  let passed := unsorted = 0 ∧ offGrid = 0
  { check := "timestamp_monotonic"
    passed
    deduction := if passed then 0 else checkWeights.timestampMonotonic
    detail :=
      if passed then "all " ++ toString candles.length ++ " timestamps sorted and grid-aligned (" ++
        timeframeText timeframe ++ ")"
      else "unsorted:" ++ toString unsorted ++ ", off_grid:" ++ toString offGrid ++ " of " ++
        toString candles.length ++ " rows;" ++
        sampleList ((bad.take sampleCap).map fun b => Calendar.isoText b.1) }

/-- `(missing / expected) * 100`; no quotient of two counts of slots comes near the smallest double. -/
def missingPct (missing expected : ℚ) : ℚ :=
  Binary64.significant (Binary64.significant (missing / expected) * 100)

/-- `min(25, ceil(missingPct * 2.5))`. -/
def gapDeduction (missing expected : ℚ) : ℚ :=
  if missing = 0 then 0
  else min checkWeights.gaps ⌈Binary64.significant (missingPct missing expected * (5 / 2))⌉

def gapText (g : CandleGap) : String :=
  Calendar.isoText g.fromMs ++ ".." ++ Calendar.isoText g.toMs ++ "(" ++ toString g.missingBars ++ ")"

def checkGaps (candles : List NormalizedCandle) (timeframe : Timeframe) (fromMs toMs : ℤ) :
    StructuralCheck :=
  let expected := expectedBars (timeframeMs timeframe) fromMs toMs
  if expected = 0 then ⟨"gaps", true, 0, "window [from,to) contains no expected bars", none⟩
  else
    let gaps := detectCandleGaps (candles.map (·.ts)) timeframe fromMs toMs
    let missing := (gaps.map CandleGap.missingBars).sum
    { check := "gaps"
      passed := missing = 0
      deduction := gapDeduction missing expected
      detail :=
        if missing = 0 then "0 missing of " ++ toString expected ++ " expected bars"
        else toString missing ++ " missing of " ++ toString expected ++ " expected bars (" ++
          DecimalText.toFixed 2 (missingPct missing expected) ++ "%) in " ++ toString gaps.length ++
          " gap(s); samples=[" ++ ", ".intercalate ((gaps.take sampleCap).map gapText) ++ "]" }

def checkCandleBatch (candles : List NormalizedCandle) (timeframe : Timeframe) (fromMs toMs : ℤ) :
    List StructuralCheck :=
  [checkSchemaConformance candles, checkDuplicates candles,
    checkTimestampMonotonic candles timeframe, checkGaps candles timeframe fromMs toMs]

/-! ## Score (`score.ts`) -/

/-- What a check is charged. -/
def StructuralCheck.charge (c : StructuralCheck) : ℚ := if c.passed then 0 else c.deduction

/-- The charges added to a total one after another, in doubles. -/
def deductFrom (total : JsNumber) (checks : List StructuralCheck) : JsNumber :=
  checks.foldl (fun acc c => Binary64.add acc (.fin c.charge)) total

def totalDeduction (checks : List StructuralCheck) : JsNumber := deductFrom (.fin 0) checks

inductive ReportStatus where
  | passed | failed
deriving DecidableEq, Repr

structure Verdict where
  score : JsNumber
  status : ReportStatus
deriving DecidableEq, Repr

def scoreChecks (checks : List StructuralCheck) : Verdict :=
  let score := JsNumber.max (.fin 0) (Binary64.sub (.fin 100) (totalDeduction checks))
  ⟨score, if JsNumber.le (.fin minDataQualityScore) score then .passed else .failed⟩

/-! ## The statistical service (`stage-b-client.ts`) -/

/-- `STAGE_B_UNAVAILABLE_DEDUCTION`. -/
def stageBUnavailableDeduction : ℚ := 15

structure StageBAuthError where
  status : ℕ
  message : String
deriving DecidableEq, Repr

def stageBAuthError (status : ℕ) : StageBAuthError :=
  ⟨status, "statistical checks rejected with HTTP " ++ toString status ++
    " (auth) — quant service shared-secret misconfigured; failing fast"⟩

def stageBUnavailable (reason : String) : StructuralCheck :=
  { check := "stage_b_unavailable"
    passed := false
    deduction := stageBUnavailableDeduction
    detail := "statistical checks unavailable (fail-closed): " ++ reason
    category := some "INFRA" }

/-- `isStructuralCheck`, and the value as the check it is. -/
def structuralCheck? (value : JsValue) : Option StructuralCheck :=
  match value.field "check", value.field "passed", value.field "deduction", value.field "detail" with
  | .str check, .bool passed, .num (.fin deduction), .str detail =>
      let category :=
        match value.field "category" with
        | .str category => some category
        | _ => none
      some { check, passed, deduction, detail, category }
  | _, _, _, _ => none

/-- A bare array, or an envelope with one. -/
def payloadItems? (payload : JsValue) : Option (List JsValue) :=
  match payload with
  | .arr items => some items
  | _ =>
      match payload.field "checks" with
      | .arr items => some items
      | _ => none

def parseStageBResponse (payload : JsValue) : Option (List StructuralCheck) :=
  (payloadItems? payload).bind (·.mapM structuralCheck?)

/-- What became of the request: it failed with a message, or it was answered with a status and a body,
which the reading of JSON may refuse. -/
inductive StageBReply where
  | failed (message : String)
  | response (status : ℕ) (body : Except String JsValue)

def fetchStageBChecks (quantBaseUrl : Option String) (reply : StageBReply) :
    Except StageBAuthError (List StructuralCheck) :=
  if quantBaseUrl = none ∨ quantBaseUrl = some "" then
    .ok [stageBUnavailable "quantBaseUrl not configured"]
  else match reply with
    | .failed message => .ok [stageBUnavailable message]
    | .response status body =>
        if status = 401 ∨ status = 403 then .error (stageBAuthError status)
        else if status < 200 ∨ 300 ≤ status then
          .ok [stageBUnavailable ("HTTP " ++ toString status)]
        else match body with
          | .error message => .ok [stageBUnavailable message]
          | .ok payload =>
              .ok ((parseStageBResponse payload).getD
                [stageBUnavailable "malformed response payload"])

/-! ## The report (`index.ts`) -/

structure QualityScope where
  exchange : Exchange
  symbol : String
  timeframe : Timeframe
  fromMs : ℤ
  toMs : ℤ
deriving DecidableEq, Repr

/-- The row that is written. -/
structure DataQualityReport where
  scope : QualityScope
  score : JsNumber
  status : ReportStatus
  checks : List StructuralCheck
  datasetHash : String
deriving DecidableEq, Repr

structure ValidationReport where
  id : String
  score : JsNumber
  status : ReportStatus
  datasetHash : String
  /-- The detail of an outage of the service. -/
  stageBHealth : Option String
deriving DecidableEq, Repr

inductive ValidationError where
  | stageBAuth (error : StageBAuthError)
  | persistence (message : String)
deriving DecidableEq, Repr

/-- What the gate runs against: the service, the database and the hash. -/
structure QualityDeps where
  quantBaseUrl : Option String
  reply : StageBReply
  create : DataQualityReport → Except String String
  computeDatasetHash : List NormalizedCandle → String

def stageAChecks (scope : QualityScope) (candles : List NormalizedCandle) : List StructuralCheck :=
  checkCandleBatch candles scope.timeframe scope.fromMs scope.toMs

def validateAndReport (deps : QualityDeps) (scope : QualityScope) (candles : List NormalizedCandle) :
    Except ValidationError ValidationReport := do
  let stageA := stageAChecks scope candles
  let stageB ← (fetchStageBChecks deps.quantBaseUrl deps.reply).mapError .stageBAuth
  let checks := stageA ++ stageB
  let verdict := scoreChecks checks
  let datasetHash := deps.computeDatasetHash candles
  let infra := stageB.find? fun c => c.check = "stage_b_unavailable" ∧ c.category = some "INFRA"
  let id ← (deps.create ⟨scope, verdict.score, verdict.status, checks, datasetHash⟩).mapError
    .persistence
  return ⟨id, verdict.score, verdict.status, datasetHash, infra.map (·.detail)⟩

end NexusQuant.Ingestion
