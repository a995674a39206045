import NexusQuant.Ingestion.FeatureBridge
import NexusQuant.Lib.Run
import NexusQuant.Lib.Slots
import NexusQuant.Pipeline.Fingerprint
import NexusQuant.Pipeline.SignalStore

/-!
# The evidence chain

One database, and everything that writes its reports, snapshots and signals: the ingestion daemons validate
windows of candles and cross the bridge with those that pass, the pipeline ticks read and persist, and
governance changes the strategy versions as it likes.  Every statement is a step of its own and may fail, or
be committed without an answer; what is under way may be abandoned at any point.  `validated`, `served` and
`handed` keep what was validated, what the quant service was asked and answered, and the decisions that a
tick handed to its execution stage.  The announcements on the event bus change no row and are left out.
-/

namespace NexusQuant.Pipeline

open Ingestion Run Signal

/-! ## The database -/

structure StoredSnapshot where
  id : String
  columns : SnapshotColumns

def StoredSnapshot.key (s : StoredSnapshot) : Exchange × String × Timeframe × ℤ × String :=
  s.columns.key

/-- The row an upsert leaves of one that is there. -/
def StoredSnapshot.update (new : SnapshotColumns) (old : StoredSnapshot) : StoredSnapshot :=
  ⟨old.id, old.columns.update new⟩

theorem keeps_snapshotUpdate (new : SnapshotColumns) :
    UpsertTable.Keeps StoredSnapshot.id StoredSnapshot.key (StoredSnapshot.update new) :=
  ⟨fun _ => rfl, fun _ => rfl⟩

abbrev FeatureSnapshots := UpsertTable StoredSnapshot.id StoredSnapshot.key

structure EvidenceStore where
  reports : LiveMap String DataQualityReport
  snapshots : FeatureSnapshots
  versions : List StrategyVersionRow
  signals : EngineSignals

def dqStatus : ReportStatus → DQStatus
  | .passed => .passed
  | .failed => .failed

/-- `include: { dqReport: true }`. -/
def joinedRow (snapshot : StoredSnapshot) (report : DataQualityReport) : FeatureSnapshotRow where
  id := snapshot.id
  featureSetId := snapshot.columns.featureSetId
  exchange := snapshot.columns.exchange.text
  symbol := snapshot.columns.symbol
  ts := ⟨Calendar.isoText snapshot.columns.ts, .fin snapshot.columns.ts⟩
  featureHash := snapshot.columns.featureHash
  features := snapshot.columns.features
  dqReport := ⟨snapshot.columns.dqReportId, report.score, dqStatus report.status,
    report.datasetHash⟩

def EvidenceStore.joined (store : EvidenceStore) (snapshot : StoredSnapshot) :
    Option FeatureSnapshotRow :=
  (store.reports.get? snapshot.columns.dqReportId).map (joinedRow snapshot)

structure ChainConfig where
  computeDatasetHash : List NormalizedCandle → String
  client : FeatureClient
  pipeline : PipelineDeps
  /-- The catalog, which is seeded and not written after that. -/
  featureSets : List FeatureSetDefinition

/-- What a tick can read. -/
def EvidenceStore.database (cfg : ChainConfig) (store : EvidenceStore) : Database :=
  ⟨cfg.featureSets, store.versions, store.snapshots.rows.filterMap store.joined⟩

/-! ## What is under way -/

/-- A window that goes through the gate, and the id its report gets. -/
structure Validation where
  id : String
  quantBaseUrl : Option String
  reply : StageBReply
  scope : QualityScope
  candles : List NormalizedCandle

/-- The report of the window. -/
def Validation.row (cfg : ChainConfig) (v : Validation) : Except StageBAuthError DataQualityReport :=
  (fetchStageBChecks v.quantBaseUrl v.reply).map fun stageB =>
    let checks := stageAChecks v.scope v.candles ++ stageB
    ⟨v.scope, (scoreChecks checks).score, (scoreChecks checks).status, checks,
      cfg.computeDatasetHash v.candles⟩

/-- What the gate returns once the report is filed. -/
def Validation.report (cfg : ChainConfig) (v : Validation) : Except ValidationError ValidationReport :=
  validateAndReport ⟨v.quantBaseUrl, v.reply, fun _ => .ok v.id, cfg.computeDatasetHash⟩ v.scope
    v.candles

/-- A request to the quant service, and what came of it. -/
structure Served where
  request : FeatureComputeInput
  reply : ComputeReply

inductive BridgeStage where
  | computing (input : FeatureBridgeInput)
  | persisting (columns : SnapshotColumns)

inductive TickStage where
  | resolving (tickId : Option String)
  | reading (tickId : Option String) (lineage : PersistedLineage)
  | publishing (tickId : Option String) (lineage : PersistedLineage)
      (waiting : List FeatureSnapshotRow) (progress : TickProgress)

structure ChainState where
  store : EvidenceStore
  bridges : List BridgeStage
  ticks : List TickStage
  validated : List Validation
  served : List Served
  handed : List (List DecisionEvent)

/-- Empty tables, and no process yet. -/
def ChainState.initial (versions : List StrategyVersionRow) : ChainState :=
  ⟨⟨.empty, .empty, versions, .empty⟩, [], [], [], [], []⟩

/-- What becomes of a statement. -/
inductive StatementReply where
  | done | lost | failed
deriving DecidableEq, Repr

inductive ChainEvent where
  /-- A window goes through the gate, and with its last `size` candles to the bridge. -/
  | validate (v : Validation) (featureSet : String) (version : ℤ) (size : ℕ) (write : StatementReply)
  | compute (i : ℕ) (reply : ComputeReply)
  | upsertSnapshot (i : ℕ) (id : String) (write : StatementReply)
  | abandonBridge (i : ℕ)
  | govern (versions : List StrategyVersionRow)
  | beginTick (tickId : Option String)
  /-- What a tick awaits happens; if that is the upsert of a signal, a new row gets the id. -/
  | tick (i : ℕ) (id : String) (reply : UpsertReply)
  | abandonTick (i : ℕ)

/-! ## The steps -/

namespace ChainState

variable (cfg : ChainConfig) (s : ChainState)

def fileReport (v : Validation) (row : DataQualityReport) : ChainState :=
  { s with
    store := { s.store with reports := s.store.reports.set v.id row }
    validated := s.validated ++ [v] }

/-- The bridge is crossed up to its request. -/
def cross (input : Option FeatureBridgeInput) : ChainState :=
  match input with
  | none => s
  | some input =>
      match admitFeatures input with
      | .error _ => s
      | .ok () => { s with bridges := s.bridges ++ [.computing input] }

def validate (v : Validation) (featureSet : String) (version : ℤ) (size : ℕ)
    (write : StatementReply) : ChainState :=
  match v.row cfg, s.store.reports.get? v.id with
  | .ok row, none =>
      match write with
      | .failed => s
      | .lost => s.fileReport v row
      | .done =>
          match v.report cfg with
          | .error _ => s.fileReport v row
          | .ok report =>
              (s.fileReport v row).cross (bridgeInput? featureSet version size v.scope v.candles report)
  | _, _ => s

/-- The definition of the vector that came back. -/
def featureSetOf (result : FeatureComputeResult) : Option FeatureSetDefinition :=
  cfg.featureSets.find? fun d => d.name = result.featureSet ∧ .fin d.version = result.version

/-- The columns to be upserted, if the answer is as it should be. -/
def columnsOf (input : FeatureBridgeInput) (reply : ComputeReply) : Option SnapshotColumns :=
  match receiveFeatures cfg.client input reply with
  | .error _ => none
  | .ok result =>
      (featureSetOf cfg result).bind fun d => snapshotColumns cfg.client input result d.id

def compute (i : ℕ) (reply : ComputeReply) : ChainState :=
  match s.bridges[i]? with
  | some (.computing input) =>
      { s with
        served := s.served ++ [⟨input.request, reply⟩]
        bridges :=
          match columnsOf cfg input reply with
          | none => s.bridges.eraseIdx i
          | some columns => s.bridges.set i (.persisting columns) }
  | _ => s

def upsertSnapshot (i : ℕ) (id : String) (write : StatementReply) : ChainState :=
  match s.bridges[i]? with
  | some (.persisting columns) =>
      let ended := { s with bridges := s.bridges.eraseIdx i }
      match write, s.store.snapshots.upsert ⟨id, columns⟩ (StoredSnapshot.update columns)
        (keeps_snapshotUpdate columns) with
      | .failed, _ | _, none => ended
      | _, some snapshots => { ended with store := { s.store with snapshots } }
  | _ => s

def endTick (i : ℕ) : ChainState := { s with ticks := s.ticks.eraseIdx i }

def enterStage (i : ℕ) (stage : TickStage) : ChainState := { s with ticks := s.ticks.set i stage }

/-- The rows a tick goes through, all admitted. -/
def admittedRows (featureSetId : String) : Option (List FeatureSnapshotRow) :=
  let ordered := consideredRows cfg.pipeline (s.store.database cfg) featureSetId
  if ordered = [] then none
  else
    match ordered.forM assertValidSnapshotRow with
    | .error _ => none
    | .ok _ => some ordered

/-- `for (const snap of ordered)`, one round. -/
def publishRow (i : ℕ) (tickId : Option String) (lineage : PersistedLineage)
    (row : FeatureSnapshotRow) (rest : List FeatureSnapshotRow) (p : TickProgress) (id : String)
    (reply : UpsertReply) : ChainState :=
  match outcomeOf cfg.pipeline.registry ⟨tickId, fun _ => none⟩ lineage.strategyVersion row with
  | .error _ => s.endTick i
  | .ok outcome =>
      match outcome with
      | .decided event =>
          let persisted := persistEngineSignal s.store.signals id event.signal reply
          let s := { s with store := { s.store with signals := persisted.2 } }
          match persisted.1 with
          | .error _ => s.endTick i
          | .ok _ => s.enterStage i (.publishing tickId lineage rest (p.tally outcome))
      | _ => s.enterStage i (.publishing tickId lineage rest (p.tally outcome))

def stepTick (i : ℕ) (id : String) (reply : UpsertReply) : TickStage → ChainState
  | .resolving tickId =>
      match resolvePersistedLineage cfg.pipeline (s.store.database cfg) with
      | .error _ => s.endTick i
      | .ok lineage => s.enterStage i (.reading tickId lineage)
  | .reading tickId lineage =>
      match s.admittedRows cfg lineage.featureSetId with
      | none => s.endTick i
      | some ordered => s.enterStage i (.publishing tickId lineage ordered ⟨0, 0, 0, 0, []⟩)
  | .publishing tickId lineage (row :: rest) p =>
      s.publishRow cfg i tickId lineage row rest p id reply
  | .publishing _ _ [] p => { s.endTick i with handed := s.handed ++ [p.decisions] }

def step : ChainEvent → ChainState
  | .validate v featureSet version size write => s.validate cfg v featureSet version size write
  | .compute i reply => s.compute cfg i reply
  | .upsertSnapshot i id write => s.upsertSnapshot i id write
  | .abandonBridge i => { s with bridges := s.bridges.eraseIdx i }
  | .govern versions => { s with store := { s.store with versions } }
  | .beginTick tickId => { s with ticks := s.ticks ++ [.resolving tickId] }
  | .tick i id reply =>
      match s.ticks[i]? with
      | none => s
      | some stage => s.stepTick cfg i id reply stage
  | .abandonTick i => s.endTick i

end ChainState

end NexusQuant.Pipeline
