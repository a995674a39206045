import Mathlib.Data.List.Sort
import NexusQuant.Lib.Json
import NexusQuant.Pipeline.Validate
import NexusQuant.Signal.Replay

/-!
# The pipeline tick

`pipeline/orchestrator.ts`: one tick reads the active strategy version and the latest snapshot of
every symbol, fingerprints what it is about to consume, and takes each snapshot through generation,
the contract, the lineage check and the decision.  The execution stage that may follow a tick has a
model of its own and is left out here, as are the log lines.
-/

namespace NexusQuant.Pipeline

open Fallible
open Signal

structure FeatureSetDefinition where
  id : String
  name : String
  version : ℤ
deriving DecidableEq, Repr

structure Database where
  featureSets : List FeatureSetDefinition
  strategyVersions : List StrategyVersionRow
  featureSnapshots : List FeatureSnapshotRow

/-- What a pipeline is wired with: the digest, the order the database has on identifiers, and the
strategies. -/
structure PipelineDeps where
  sha256 : Bytes → String
  idLe : String → String → Bool
  registry : StrategyRegistry

/-- One tick: its correlation id, and the bus; a subscriber that throws ends the tick. -/
structure TickContext where
  tickId : Option String
  publish : DecisionEvent → Option String

inductive TickError where
  | data (e : PipelineDataError)
  | threw (message : String)
deriving DecidableEq, Repr

/-! ## What a tick reads -/

section Read

variable (deps : PipelineDeps) (db : Database)

/-- `orderBy: [{ createdAt: "desc" }, { id: "desc" }]`. -/
def versionBefore (a b : StrategyVersionRow) : Prop :=
  b.createdAt < a.createdAt ∨ (a.createdAt = b.createdAt ∧ deps.idLe b.id a.id)

instance : DecidableRel (versionBefore deps) := fun a b => by
  unfold versionBefore; infer_instance

/-- `orderBy: [{ ts: "desc" }, { id: "desc" }]`. -/
def snapshotBefore (a b : FeatureSnapshotRow) : Prop :=
  JsNumber.lt b.ts.time a.ts.time ∨ (a.ts.time = b.ts.time ∧ deps.idLe b.id a.id)

instance : DecidableRel (snapshotBefore deps) := fun a b => by
  unfold snapshotBefore; infer_instance

structure PersistedLineage where
  featureSetId : String
  strategyVersion : SignalStrategyVersion

def resolvePersistedLineage : Except PipelineDataError PersistedLineage :=
  match db.featureSets.find? (fun d => d.name = "core-technical" ∧ d.version = 1) with
  | none =>
      .error ⟨"no FeatureSetDefinition core-technical v1 — the feature catalog has not been seeded " ++
        "(fail-fast, nothing fabricated)", "MISSING_FEATURE_SET"⟩
  | some definition =>
      match ((db.strategyVersions.filter fun v => v.active).insertionSort
          (versionBefore deps)).head? with
      | none =>
          .error ⟨"no ACTIVE StrategyVersion — register and approve a strategy before running the " ++
            "pipeline (fail-fast, nothing fabricated)", "MISSING_ACTIVE_STRATEGY"⟩
      | some version =>
          (assertValidStrategyVersionRow version).map fun _ =>
            ⟨definition.id, version.id, version.parameters⟩

/-- `SNAPSHOT_SCAN_LIMIT`. -/
def snapshotScanLimit : ℕ := 200

def scannedRows (featureSetId : String) : List FeatureSnapshotRow :=
  ((db.featureSnapshots.filter fun r => r.featureSetId = featureSetId ∧ r.exchange ≠ "DEMO")
    |>.insertionSort (snapshotBefore deps)).take snapshotScanLimit

/-- The first row of every symbol. -/
def latestPerSymbol (rows : List FeatureSnapshotRow) : Dict FeatureSnapshotRow :=
  rows.foldl (fun latest r =>
    if latest.get? r.symbol = none then latest.set r.symbol r else latest) []

/-- The rows of a tick, in the order of their symbols. -/
def consideredRows (featureSetId : String) : List FeatureSnapshotRow :=
  ((latestPerSymbol (scannedRows deps db featureSetId)).map Prod.snd).insertionSort
    fun a b => Utf16.encode a.symbol ≤ Utf16.encode b.symbol

end Read

/-! ## The fingerprint -/

def snapshotJson (row : FeatureSnapshotRow) : Json :=
  .obj [("id", .str row.id), ("symbol", .str row.symbol), ("ts", .str row.ts.text),
    ("featureHash", .str row.featureHash), ("dqReportId", .str row.dqReport.id),
    ("datasetHash", .str row.dqReport.datasetHash)]

def inputJson (featureSetId strategyVersionId : String) (rows : List FeatureSnapshotRow) : Json :=
  .obj [("featureSetId", .str featureSetId), ("strategyVersionId", .str strategyVersionId),
    ("snapshots", .arr (rows.map snapshotJson))]

def computeInputHash (deps : PipelineDeps) (featureSetId strategyVersionId : String)
    (rows : List FeatureSnapshotRow) : String :=
  deps.sha256 (Json.print (inputJson featureSetId strategyVersionId rows))

/-! ## One snapshot -/

/-- The numeric entries of a feature column. -/
def featuresOf (column : JsValue) : Features := fun key =>
  match column.member key with
  | .ok (.num x) => some x
  | _ => none

def engineInput (sv : SignalStrategyVersion) (row : FeatureSnapshotRow) : SignalEngineInput where
  featureSnapshot := ⟨row.id, row.symbol, row.featureHash, featuresOf row.features⟩
  dqReport := row.dqReport
  strategyVersion := sv

/-- The candidate of the lineage check: the generated signal as it would be persisted. -/
def candidateOf (signal : GeneratedSignal) : PersistedSignal where
  id := "pre-persist"
  symbol := signal.symbol
  side := signal.side
  decision := signal.decision
  confidence := signal.confidence
  strategyVersionId := signal.strategyVersionId
  strategyParams := .obj [("rsiLongMin", .num signal.strategyParams.rsiLongMin),
    ("rsiShortMax", .num signal.strategyParams.rsiShortMax),
    ("maxRealizedVol", .num signal.strategyParams.maxRealizedVol)]
  featureSnapshotId := signal.featureSnapshotId
  dqReportId := signal.dqReportId
  datasetHash := signal.datasetHash
  featureHash := signal.featureHash

inductive Outcome where
  | refused (reason : String)
  | malformed (detail : String)
  | lineageInvalid (detail : String)
  | decided (event : DecisionEvent)
deriving DecidableEq, Repr

section Snapshot

variable (registry : StrategyRegistry) (t : TickContext) (sv : SignalStrategyVersion)

def outcomeOf (row : FeatureSnapshotRow) : Except String Outcome :=
  (generateSignal (engineInput sv row)).bind fun
    | .refused reason => .ok (.refused reason)
    | .generated signal =>
        match malformedSignalReason signal (engineInput sv row) with
        | some detail => .ok (.malformed detail)
        | none =>
            (verifySignalLineage (candidateOf signal) (engineInput sv row)).map fun lineage =>
              if lineage.lineageValid then
                .decided (deriveDecisionEvent signal (registry.resolve signal.strategyVersionId)
                  t.tickId)
              else .lineageInvalid lineage.detail

/-- The counters of the loop, and the events that were published. -/
structure TickProgress where
  generated : ℕ
  refused : ℕ
  lineageRejected : ℕ
  malformedRejected : ℕ
  decisions : List DecisionEvent
deriving DecidableEq, Repr

def TickProgress.tally (p : TickProgress) : Outcome → TickProgress
  | .refused _ => { p with refused := p.refused + 1 }
  | .malformed _ => { p with malformedRejected := p.malformedRejected + 1 }
  | .lineageInvalid _ => { p with lineageRejected := p.lineageRejected + 1 }
  | .decided event =>
      { p with generated := p.generated + 1, decisions := p.decisions ++ [event] }

/-- The outcome of a snapshot, published where it is a decision. -/
def publishOutcome (p : TickProgress) (outcome : Outcome) : Except TickError TickProgress :=
  match outcome with
  | .decided event =>
      match t.publish event with
      | some e => .error (.threw e)
      | none => .ok (p.tally outcome)
  | _ => .ok (p.tally outcome)

def runSnapshots (p : TickProgress) : List FeatureSnapshotRow → Except TickError TickProgress
  | [] => .ok p
  | row :: rest =>
      ((outcomeOf registry t sv row).mapError .threw).bind fun outcome =>
        (publishOutcome t p outcome).bind fun p => runSnapshots p rest

end Snapshot

/-! ## The tick -/

structure PipelineTickResult where
  snapshotsConsidered : ℕ
  progress : TickProgress
  inputHash : String
deriving DecidableEq, Repr

def runSignalPipelineTick (deps : PipelineDeps) (db : Database) (t : TickContext) :
    Except TickError PipelineTickResult :=
  ((resolvePersistedLineage deps db).mapError .data).bind fun lineage =>
    let ordered := consideredRows deps db lineage.featureSetId
    if ordered = [] then
      .error (.data ⟨"no admissible FeatureSnapshot exists for the core-technical v1 feature set — " ++
        "run ingestion before the pipeline (fail-fast, nothing fabricated)",
        "MISSING_FEATURE_SNAPSHOTS"⟩)
    else
      -- Every row is admitted before the input is fingerprinted and anything is generated.
      ((ordered.forM assertValidSnapshotRow).mapError .data).bind fun _ =>
        (runSnapshots deps.registry t lineage.strategyVersion ⟨0, 0, 0, 0, []⟩ ordered).map
          fun progress =>
            { snapshotsConsidered := ordered.length
              progress
              inputHash := computeInputHash deps lineage.featureSetId lineage.strategyVersion.id
                ordered }

end NexusQuant.Pipeline
