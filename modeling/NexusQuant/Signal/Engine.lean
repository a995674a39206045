import NexusQuant.Signal.Rule

/-!
# The signal engine

`types.ts` and `engine.ts` of the signal service: the projections of the persisted artifacts, and
the generation of a signal from a snapshot, a quality report and a strategy version.  A parameter
record of the database is any JSON value; on `null` the reading of a parameter throws, which is the
error of `generateSignal`.
-/

namespace NexusQuant.Signal

open TradingDecision (SignalParams)

structure SignalFeatureSnapshot where
  id : String
  symbol : String
  featureHash : String
  features : Features

inductive DQStatus where
  | passed | failed
deriving DecidableEq, Repr

def DQStatus.text : DQStatus → String
  | .passed => "PASSED"
  | .failed => "FAILED"

structure SignalDataQualityReport where
  id : String
  score : JsNumber
  status : DQStatus
  datasetHash : String
deriving DecidableEq, Repr

structure SignalStrategyVersion where
  id : String
  parameters : JsValue

structure GeneratedSignal where
  symbol : String
  side : SignalDecision
  decision : SignalDecision
  confidence : String
  strategyVersionId : String
  strategyParams : SignalParams
  featureSnapshotId : String
  dqReportId : String
  datasetHash : String
  featureHash : String
deriving DecidableEq, Repr

inductive SignalGenerationResult where
  | generated (signal : GeneratedSignal)
  | refused (reason : String)
deriving DecidableEq, Repr

structure PersistedSignal where
  id : String
  symbol : String
  side : SignalDecision
  decision : SignalDecision
  confidence : String
  strategyVersionId : String
  strategyParams : JsValue
  featureSnapshotId : String
  dqReportId : String
  datasetHash : String
  featureHash : String

/-- The artifacts a signal is generated from, and replayed against. -/
structure SignalEngineInput where
  featureSnapshot : SignalFeatureSnapshot
  dqReport : SignalDataQualityReport
  strategyVersion : SignalStrategyVersion

/-- The admission floor refuses the report. -/
def belowFloor (report : SignalDataQualityReport) : Bool :=
  report.status != .passed || JsNumber.lt report.score (.fin minDataQualityScore)

/-- The message of a refusal, up to its last word. -/
def floorText (report : SignalDataQualityReport) : String :=
  "DQ score " ++ numberText report.score ++ " (" ++ report.status.text ++ ") < " ++
    numberText (.fin minDataQualityScore) ++ " — "

def signalOf (input : SignalEngineInput) (params : SignalParams) (result : SignalDecisionResult) :
    GeneratedSignal where
  symbol := input.featureSnapshot.symbol
  side := result.side
  decision := result.decision
  confidence := quantizeConfidence result.confidence
  strategyVersionId := input.strategyVersion.id
  strategyParams := params
  featureSnapshotId := input.featureSnapshot.id
  dqReportId := input.dqReport.id
  -- The hashes are copied, never recomputed.
  datasetHash := input.dqReport.datasetHash
  featureHash := input.featureSnapshot.featureHash

def generateSignal (input : SignalEngineInput) (negativeZero : Bool := false) :
    Except String SignalGenerationResult :=
  if belowFloor input.dqReport then .ok (.refused (floorText input.dqReport ++ "signal refused"))
  else
    (resolveSignalParams input.strategyVersion.parameters).map fun params =>
      match decideSignal input.featureSnapshot.features params negativeZero with
      | .error message => .refused message
      | .ok result => .generated (signalOf input params result)

/-- What a generated signal comes from. -/
theorem generateSignal_iff {input : SignalEngineInput} {signal : GeneratedSignal} {negativeZero : Bool} :
    generateSignal input negativeZero = .ok (.generated signal) ↔
      belowFloor input.dqReport = false ∧ ∃ params result,
        resolveSignalParams input.strategyVersion.parameters = .ok params ∧
        decideSignal input.featureSnapshot.features params negativeZero = .ok result ∧
        signal = signalOf input params result := by
  unfold generateSignal
  constructor
  · intro h
    split at h
    · cases h
    · rename_i hfloor
      obtain ⟨params, hparams, hmatch⟩ := Fallible.map_eq_ok.mp h
      split at hmatch
      · cases hmatch
      · rename_i result hresult
        cases hmatch
        exact ⟨by simpa using hfloor, params, result, hparams, hresult, rfl⟩
  · rintro ⟨hfloor, params, result, hparams, hresult, rfl⟩
    rw [hfloor, hparams]
    show Except.ok (match decideSignal input.featureSnapshot.features params negativeZero with
      | .error message => SignalGenerationResult.refused message
      | .ok result => .generated (signalOf input params result)) = _
    rw [hresult]

end NexusQuant.Signal
