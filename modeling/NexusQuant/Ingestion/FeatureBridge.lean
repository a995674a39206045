import NexusQuant.Ingestion.DataQuality
import NexusQuant.Lib.JsonText

/-!
# The feature bridge

`features/client.ts` and `features/bridge.ts`: a window of candles that passed the gate is sent to the
quant service, and the vector it answers with becomes the snapshot of its instant.  The hash and the
features are handed on as they came.  The request, its answer, the reading of a date and the message of a
syntax error are inputs.
-/

namespace NexusQuant.Ingestion

/-! ## The client (`client.ts`) -/

structure FeatureScope where
  exchange : Exchange
  symbol : String
  timeframe : Timeframe
  ts : Option ℤ
deriving DecidableEq, Repr

structure FeatureComputeInput where
  dqReportId : String
  dqScore : JsNumber
  scope : FeatureScope
  featureSet : String
  version : ℤ
  /-- `marketData`; of a candle its instant and its five values are sent. -/
  candles : List (ℤ × Ohlcv String)
deriving DecidableEq, Repr

structure FeatureComputeResult where
  featureSet : String
  version : JsNumber
  asOfTs : String
  featureHash : String
  features : JsValue
  inputCandleCount : JsNumber
  dqReportId : Option String
  raw : String

inductive FeatureError where
  /-- `FeatureComputeAuthError`. -/
  | auth (status : ℕ) (message : String)
  /-- `FeatureComputeError`. -/
  | compute (message : String) (status : Option ℕ) (code : String)
  /-- `FeatureBridgeError`. -/
  | bridge (message code : String)
  | threw (message : String)
deriving DecidableEq, Repr

/-- What became of the request; the text of an answer may fail to arrive. -/
inductive ComputeReply where
  | failed (message : String)
  | response (status : ℕ) (body : Except String String)

structure FeatureClient where
  quantBaseUrl : String
  /-- The message of the `SyntaxError` that `JSON.parse` throws. -/
  syntaxError : String → String
  /-- The time value of `new Date(text)`, nothing for an invalid date. -/
  parseDate : String → Option ℤ

def isRecord : JsValue → Bool
  | .obj _ => true
  | _ => false

def malformedResponse (message : String) : FeatureError :=
  .compute message (some 200) "MALFORMED_RESPONSE"

def decode (client : FeatureClient) (raw : String) : Except FeatureError FeatureComputeResult :=
  match JsonText.parse raw with
  | none => .error (malformedResponse ("malformed response body: " ++ client.syntaxError raw))
  | some body =>
      if !isRecord body then .error (malformedResponse "response is not an object")
      else match body.field "featureHash" with
        | .str featureHash =>
            if featureHash = "" then .error (malformedResponse "missing/invalid featureHash")
            else if !isRecord (body.field "features") then
              .error (malformedResponse "missing/invalid features")
            else match body.field "feature_set", body.field "version" with
              | .str featureSet, .num version =>
                  match body.field "as_of_ts" with
                  | .str asOfTs =>
                      .ok
                        { featureSet
                          version
                          asOfTs
                          featureHash
                          features := body.field "features"
                          inputCandleCount :=
                            match body.field "input_candle_count" with
                            | .num count => count
                            | _ => .fin 0
                          dqReportId :=
                            match body.field "dq_report_id" with
                            | .str id => some id
                            | _ => none
                          raw }
                  | _ => .error (malformedResponse "missing/invalid as_of_ts")
              | _, _ => .error (malformedResponse "missing/invalid feature_set/version")
        | _ => .error (malformedResponse "missing/invalid featureHash")

def computeFeatures (client : FeatureClient) (reply : ComputeReply) :
    Except FeatureError FeatureComputeResult :=
  if client.quantBaseUrl = "" then
    .error (.compute "quantBaseUrl not configured" none "NOT_CONFIGURED")
  else match reply with
    | .failed message =>
        .error (.compute ("features/compute request failed: " ++ message) none "UNREACHABLE")
    | .response status body =>
        if status = 401 ∨ status = 403 then
          .error (.auth status ("features/compute rejected with HTTP " ++ toString status ++
            " (auth) — quant service shared-secret misconfigured; failing fast"))
        else if status < 200 ∨ 300 ≤ status then
          -- The body is best effort here.
          let detail := body.toOption.getD ""
          .error (.compute ("features/compute returned HTTP " ++ toString status ++
            (if detail = "" then "" else ": " ++ detail)) (some status) "NON_OK")
        else (body.mapError .threw).bind (decode client)

/-! ## The bridge (`bridge.ts`) -/

/-- What a caller hands over, the defaults of the feature set filled in. -/
structure FeatureBridgeInput where
  scope : FeatureScope
  candles : List NormalizedCandle
  dqReportId : String
  dqScore : JsNumber
  featureSet : String
  version : ℤ
deriving DecidableEq, Repr

def featureContractMismatch (message : String) : FeatureError :=
  .bridge message "FEATURE_CONTRACT_MISMATCH"

/-- The admission of the bridge; that the venue and the timeframe are known is in their types. -/
def admitFeatures (input : FeatureBridgeInput) : Except FeatureError Unit :=
  if JsNumber.lt input.dqScore (.fin minDataQualityScore) then
    .error (.bridge ("dq_score " ++ numberText input.dqScore ++ " < " ++
      numberText (.fin minDataQualityScore) ++ " — refusing to compute features (fail-closed)")
      "DQ_BELOW_MINIMUM")
  else if input.candles = [] then
    .error (.bridge "no candles to compute features from" "INSUFFICIENT_DATA")
  else .ok ()

def FeatureBridgeInput.request (input : FeatureBridgeInput) : FeatureComputeInput where
  dqReportId := input.dqReportId
  dqScore := input.dqScore
  scope := input.scope
  featureSet := input.featureSet
  version := input.version
  candles := input.candles.map fun c => (c.ts, c.ohlcv)

/-- The vector is the one that was asked for. -/
def checkContract (input : FeatureBridgeInput) (result : FeatureComputeResult) :
    Except FeatureError Unit :=
  if result.featureSet ≠ input.featureSet ∨ result.version ≠ .fin input.version then
    .error (featureContractMismatch ("requested " ++ input.featureSet ++ " v" ++
      toString input.version ++ ", got " ++ result.featureSet ++ " v" ++ numberText result.version))
  else .ok ()

/-- The answer to the request, checked. -/
def receiveFeatures (client : FeatureClient) (input : FeatureBridgeInput) (reply : ComputeReply) :
    Except FeatureError FeatureComputeResult := do
  let result ← computeFeatures client reply
  checkContract input result
  return result

/-- The columns of a snapshot beside its id. -/
structure SnapshotColumns where
  exchange : Exchange
  symbol : String
  timeframe : Timeframe
  ts : ℤ
  featureSetId : String
  features : JsValue
  featureHash : String
  dqReportId : String

/-- The columns an upsert creates, where the instant is a date. -/
def snapshotColumns (client : FeatureClient) (input : FeatureBridgeInput)
    (result : FeatureComputeResult) (featureSetId : String) : Option SnapshotColumns :=
  (client.parseDate result.asOfTs).map fun ts =>
    { exchange := input.scope.exchange
      symbol := input.scope.symbol
      timeframe := input.scope.timeframe
      ts
      featureSetId
      features := result.features
      featureHash := result.featureHash
      dqReportId := input.dqReportId }

/-- What the upsert updates. -/
def SnapshotColumns.update (old new : SnapshotColumns) : SnapshotColumns :=
  { old with features := new.features, featureHash := new.featureHash, dqReportId := new.dqReportId }

/-- `exchange_symbol_timeframe_ts_featureSetId`. -/
def SnapshotColumns.key (c : SnapshotColumns) : Exchange × String × Timeframe × ℤ × String :=
  (c.exchange, c.symbol, c.timeframe, c.ts, c.featureSetId)

/-- The candles a caller of the bridge hands over, of those that were validated. -/
def featureWindowOf (size : ℕ) (candles : List NormalizedCandle) : List NormalizedCandle :=
  candles.drop (candles.length - size)

/-- `onCandlesValidated` and the end of `materializeFeaturesFromDb`: the bridge is crossed with a report
that passed, on the last candles of its window. -/
def bridgeInput? (featureSet : String) (version : ℤ) (size : ℕ) (scope : QualityScope)
    (candles : List NormalizedCandle) (report : ValidationReport) : Option FeatureBridgeInput :=
  if report.status ≠ .passed then none
  else
    (featureWindowOf size candles).getLast?.map fun last =>
      { scope := ⟨scope.exchange, scope.symbol, scope.timeframe, some last.ts⟩
        candles := featureWindowOf size candles
        dqReportId := report.id
        dqScore := report.score
        featureSet
        version }

end NexusQuant.Ingestion
