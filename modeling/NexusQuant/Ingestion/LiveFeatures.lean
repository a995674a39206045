import NexusQuant.Ingestion.Candles
import NexusQuant.Ingestion.OpenInterest
import NexusQuant.Lib.Slots

/-!
# Feature recomputes of the live stream

`onCandle` and `recomputeFeatures` of `services/ingestion/src/pipeline/live.ts`, with
`ensureWarmupHistory`, `materializeFeaturesFromDb` and what `computeAndPersistFeatures` does to the
snapshots.  Every statement and every request that is awaited is a step, and handlers and recomputes
of all symbols run side by side; a request for a symbol whose recompute is running is dropped.

Data quality and the quant service are functions of the candles they are given, and nothing fails.
`lastUpsert` and `lastRead` keep, for every symbol, when its last candle upsert completed and what its
last candle read was.
-/

namespace NexusQuant.Ingestion

open Run

/-! ## The candle store -/

structure CandleScope where
  exchange : Exchange
  symbol : String
  timeframe : Timeframe
deriving DecidableEq, Repr

/-- The stored columns of a candle; its scope and open time are its key. -/
structure MarketCandle where
  assetType : AssetType
  values : Ohlcv String
  trades : Option JsNumber
deriving DecidableEq, Repr

abbrev CandleTable := LiveMap (CandleScope × ℤ) MarketCandle

def NormalizedCandle.scope (c : NormalizedCandle) : CandleScope := ⟨c.exchange, c.symbol, c.timeframe⟩

def NormalizedCandle.row (c : NormalizedCandle) : MarketCandle :=
  ⟨c.assetType, ⟨c.open, c.high, c.low, c.close, c.volume⟩, c.trades⟩

def MarketCandle.normalized (row : MarketCandle) (scope : CandleScope) (ts : ℤ) : NormalizedCandle :=
  ⟨scope.exchange, scope.symbol, row.assetType, scope.timeframe, ts, row.values.open, row.values.high,
    row.values.low, row.values.close, row.values.volume, row.trades⟩

/-- One transaction of `upsertCandles`. -/
def upsertBatch (table : CandleTable) (batch : List NormalizedCandle) : CandleTable :=
  batch.foldl (fun table c => table.set (c.scope, c.ts) c.row) table

/-- `marketCandle.count`. -/
def countCandles (table : CandleTable) (scope : CandleScope) : ℕ := (table.series scope).length

/-- The rows of the candle read in the order of their times, as candles. -/
def findCandles (table : CandleTable) (scope : CandleScope) (take : ℕ) : List NormalizedCandle :=
  (table.newest scope take).reverse.map fun c => c.value.normalized scope c.key.2

/-! ## The daemon -/

/-- `DEFAULT_FEATURE_WINDOW`. -/
def defaultFeatureWindow : ℕ := 300

/-- `MIN_FEATURE_CANDLES`. -/
def minFeatureCandles : ℕ := 201

/-- What `runLiveIngestion` is given, and the services it calls. -/
structure LiveIngestion (V : Type*) where
  exchange : Exchange
  /-- `connector.capabilities.candles`. -/
  candles : Bool
  perps : List (String × AssetType)
  liveTimeframe : Timeframe
  featureWindow : Option ℕ
  quantBaseUrl : Option String
  /-- Whether the report of `validateAndReport` is `PASSED`. -/
  passed : List NormalizedCandle → Bool
  computeFeatures : List NormalizedCandle → V

variable {V : Type*}

def LiveIngestion.scope (live : LiveIngestion V) (symbol : String) : CandleScope :=
  ⟨live.exchange, symbol, live.liveTimeframe⟩

def LiveIngestion.assetType (live : LiveIngestion V) (symbol : String) : Option AssetType :=
  (live.perps.find? fun p => p.1 = symbol).map Prod.snd

/-- What a candle read of the symbol finds. -/
def LiveIngestion.window (live : LiveIngestion V) (table : CandleTable) (symbol : String) :
    List NormalizedCandle :=
  findCandles table (live.scope symbol) (live.featureWindow.getD defaultFeatureWindow)

/-- A bar that the connector fetched; the connector names it after the request. -/
structure Bar where
  ts : ℤ
  values : Ohlcv String
  trades : Option JsNumber
deriving DecidableEq, Repr

def LiveIngestion.candleOf (live : LiveIngestion V) (symbol : String) (assetType : AssetType)
    (bar : Bar) : NormalizedCandle :=
  (MarketCandle.mk assetType bar.values bar.trades).normalized (live.scope symbol) bar.ts

inductive HandlerStage where
  /-- `upsertCandles`, with that many transactions committed. -/
  | upserting (done : ℕ)
  /-- The candle is announced. -/
  | publishing (upsertedAt : ℕ)
deriving DecidableEq, Repr

/-- A call of `onCandle`. -/
structure CandleHandler where
  candle : NormalizedCandle
  stage : HandlerStage
deriving DecidableEq, Repr

def CandleHandler.batches (h : CandleHandler) : List (List NormalizedCandle) :=
  chunk [h.candle] upsertChunkSize

/-- A candle read: when it started, and what it found. -/
structure CandleRead where
  startedAt : ℕ
  found : Option (List NormalizedCandle)
deriving DecidableEq, Repr

inductive RecomputeStage where
  /-- `ensureWarmupHistory` counts the candles, is told the count, fetches what is short, persists it
  and counts again. -/
  | counting (assetType : AssetType)
  | counted (assetType : AssetType) (count : ℕ)
  | fetching (assetType : AssetType)
  | warming (assetType : AssetType) (bars : List Bar) (done : ℕ)
  | recounting
  /-- `materializeFeaturesFromDb` reads the candles, is told what was found and validates it; its
  features are computed and persisted, and the snapshot is announced. -/
  | reading (startedAt : ℕ)
  | read (startedAt : ℕ) (found : List NormalizedCandle)
  | validating (startedAt : ℕ) (found : List NormalizedCandle)
  | computing (startedAt : ℕ) (found : List NormalizedCandle)
  | announcing (startedAt : ℕ) (found : List NormalizedCandle)
deriving DecidableEq, Repr

/-- A run of `recomputeFeatures` behind its busy flag. -/
structure Recompute where
  symbol : String
  stage : RecomputeStage
deriving DecidableEq, Repr

structure LiveState (V : Type*) where
  /-- The number of steps so far. -/
  now : ℕ
  candles : CandleTable
  /-- The snapshots of the exchange, the timeframe and the feature set of the daemon. -/
  snapshots : LiveMap (String × ℤ) V
  recomputing : List String
  handlers : List CandleHandler
  recomputes : List Recompute
  lastUpsert : LiveMap String ℕ
  lastRead : LiveMap String CandleRead

/-- The daemon after its bootstrap. -/
def LiveState.initial (candles : CandleTable) (snapshots : LiveMap (String × ℤ) V) : LiveState V :=
  ⟨0, candles, snapshots, [], [], [], .empty, .empty⟩

inductive LiveStep where
  | onCandle (candle : NormalizedCandle)
  /-- What the handler awaits happens. -/
  | handler (i : ℕ)
  /-- What the recompute awaits happens. -/
  | recompute (i : ℕ)
  /-- The connector answers a recompute. -/
  | fetched (i : ℕ) (bars : List Bar)
deriving DecidableEq, Repr

/-! ## The steps -/

namespace LiveState

variable (live : LiveIngestion V) (s : LiveState V)

def enter (i : ℕ) (symbol : String) (stage : RecomputeStage) : LiveState V :=
  { s with recomputes := s.recomputes.set i ⟨symbol, stage⟩ }

/-- The recompute settles and clears its busy flag. -/
def finish (i : ℕ) (symbol : String) : LiveState V :=
  { s with
    recomputes := s.recomputes.eraseIdx i
    recomputing := s.recomputing.filter (· ≠ symbol) }

/-- The candle read of the symbol is sent. -/
def sendRead (symbol : String) : LiveState V :=
  { s with lastRead := s.lastRead.set symbol ⟨s.now, none⟩ }

def begin (symbol : String) (stage : RecomputeStage) : LiveState V :=
  { s with
    recomputing := s.recomputing ++ [symbol]
    recomputes := s.recomputes ++ [⟨symbol, stage⟩] }

/-- `recomputeFeatures`, up to its first await. -/
def recomputeFeatures (symbol : String) : LiveState V :=
  if live.quantBaseUrl = none ∨ symbol ∈ s.recomputing then s
  else
    match live.assetType symbol with
    | some assetType => s.begin symbol (.counting assetType)
    | none => (s.sendRead symbol).begin symbol (.reading s.now)

def completeUpsert (symbol : String) : LiveState V :=
  { s with lastUpsert := s.lastUpsert.set symbol s.now }

def persist (batch : List NormalizedCandle) : LiveState V :=
  { s with candles := upsertBatch s.candles batch }

def stepHandler (i : ℕ) : LiveState V :=
  match s.handlers[i]? with
  | none => s
  | some ⟨candle, .upserting done⟩ =>
      match (CandleHandler.mk candle (.upserting done)).batches[done]? with
      | some batch => { s.persist batch with
          handlers := s.handlers.set i ⟨candle, .upserting (done + 1)⟩ }
      | none => { s.completeUpsert candle.symbol with
          handlers := s.handlers.set i ⟨candle, .publishing s.now⟩ }
  | some ⟨candle, .publishing _⟩ =>
      recomputeFeatures live { s with handlers := s.handlers.eraseIdx i } candle.symbol

def stepRecompute (i : ℕ) : LiveState V :=
  match s.recomputes[i]? with
  | none => s
  | some ⟨symbol, .counting assetType⟩ =>
      s.enter i symbol (.counted assetType (countCandles s.candles (live.scope symbol)))
  | some ⟨symbol, .counted assetType count⟩ =>
      if minFeatureCandles ≤ count ∨ live.candles = false then
        (s.sendRead symbol).enter i symbol (.reading s.now)
      else s.enter i symbol (.fetching assetType)
  | some ⟨_, .fetching _⟩ => s
  | some ⟨symbol, .warming assetType bars done⟩ =>
      match (chunk (bars.map (live.candleOf symbol assetType)) upsertChunkSize)[done]? with
      | some batch => (s.persist batch).enter i symbol (.warming assetType bars (done + 1))
      | none => (s.completeUpsert symbol).enter i symbol .recounting
  | some ⟨symbol, .recounting⟩ => (s.sendRead symbol).enter i symbol (.reading s.now)
  | some ⟨symbol, .reading startedAt⟩ =>
      let found := live.window s.candles symbol
      LiveState.enter { s with lastRead := s.lastRead.set symbol ⟨startedAt, some found⟩ } i symbol
        (.read startedAt found)
  | some ⟨symbol, .read startedAt found⟩ =>
      if found.length = 0 ∨ found.length < minFeatureCandles then s.finish i symbol
      else s.enter i symbol (.validating startedAt found)
  | some ⟨symbol, .validating startedAt found⟩ =>
      if live.passed found then s.enter i symbol (.computing startedAt found)
      else s.finish i symbol
  | some ⟨symbol, .computing startedAt found⟩ =>
      match found.getLast? with
      | none => s.finish i symbol
      | some last =>
          LiveState.enter
            { s with snapshots := s.snapshots.set (symbol, last.ts) (live.computeFeatures found) }
            i symbol (.announcing startedAt found)
  | some ⟨symbol, .announcing _ _⟩ => s.finish i symbol

def act : LiveStep → LiveState V
  | .onCandle candle => { s with handlers := s.handlers ++ [⟨candle, .upserting 0⟩] }
  | .handler i => s.stepHandler live i
  | .recompute i => s.stepRecompute live i
  | .fetched i bars =>
      match s.recomputes[i]? with
      | some ⟨symbol, .fetching assetType⟩ => s.enter i symbol (.warming assetType bars 0)
      | _ => s

def step (a : LiveStep) : LiveState V := { s.act live a with now := s.now + 1 }

end LiveState

end NexusQuant.Ingestion
