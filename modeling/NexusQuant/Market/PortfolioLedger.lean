import NexusQuant.Lib.Binary64
import NexusQuant.Market.State

/-!
# The portfolio and equity ledger

`portfolio-ledger.ts`: the account is persisted as a series of snapshots, each with the drawdown from the
running peak of the equity.  The peak lives in memory, and a restart recovers it from the series.

Equities are kept as the numbers that were written.  The double of one is taken where a drawdown is
computed: the greater of two doubles is the double of the greater number.
-/

namespace NexusQuant.Market

open DecimalText Execution Rounding

structure PortfolioLedgerConfig where
  name : String
  baseCurrency : String
  initialValue : ℚ
deriving DecidableEq, Repr

/-! ## The database -/

structure PortfolioRow where
  id : String
  name : String
  baseCurrency : String
  initialValue : ℚ
deriving DecidableEq, Repr

structure PortfolioSnapshot where
  portfolioId : String
  ts : ℤ
  equity : ℚ
  exposure : ℚ
  drawdown : ℚ
  positions : Dict Position
deriving DecidableEq, Repr

structure LedgerDatabase where
  portfolios : List PortfolioRow
  snapshots : List PortfolioSnapshot
deriving DecidableEq, Repr

/-- What a decimal column of so many places keeps of a text. -/
def decimalColumn (dp : ℕ) (text : String) : ℚ := roundTo dp (parseDecimal text)

def isSnapshotOf (portfolioId : String) (row : PortfolioSnapshot) : Bool := row.portfolioId == portfolioId

/-- The persisted equities of a portfolio. -/
def LedgerDatabase.equities (db : LedgerDatabase) (portfolioId : String) : List ℚ :=
  (db.snapshots.filter (isSnapshotOf portfolioId)).map (·.equity)

/-- The aggregate `_max.equity`, null without a row. -/
def LedgerDatabase.maxEquity (db : LedgerDatabase) (portfolioId : String) : Option JsNumber :=
  (db.equities portfolioId).max?.map .fin

/-- The portfolio and the timestamp are the unique key of a snapshot. -/
def LedgerDatabase.upsert (db : LedgerDatabase) (row : PortfolioSnapshot) : LedgerDatabase :=
  let hit (r : PortfolioSnapshot) : Bool := r.portfolioId == row.portfolioId && r.ts == row.ts
  if db.snapshots.any hit then
    { db with snapshots := db.snapshots.map fun r => if hit r then row else r }
  else
    { db with snapshots := db.snapshots ++ [row] }

/-! ## The ledger -/

/-- The text of a drawdown, which is clamped to the unit interval; what is no finite number counts as zero. -/
def quantizeDrawdown (n : JsNumber) : String :=
  let v : ℚ :=
    match n with
    | .fin q => if 0 < q then q else 0
    | _ => 0
  toFixed 4 (min v 1)

structure PortfolioLedger where
  config : PortfolioLedgerConfig
  portfolioId : Option String
  peakEquity : ℚ
deriving DecidableEq, Repr

/-- A process and its database. -/
structure LedgerWorld where
  ledger : PortfolioLedger
  db : LedgerDatabase
deriving DecidableEq, Repr

/-- `new PortfolioLedger(config)`. -/
def newPortfolioLedger (config : PortfolioLedgerConfig) : PortfolioLedger := ⟨config, none, 0⟩

/-- An aggregate that is missing or is no finite number counts as zero. -/
def recoveredPeak : Option JsNumber → ℚ
  | some (.fin q) => q
  | _ => 0

/-- `newId` is the identifier the database gives to a created portfolio. -/
def PortfolioLedger.init (newId : String) (ledger : PortfolioLedger) (db : LedgerDatabase) : LedgerWorld :=
  let existing := db.portfolios.find? (·.name == ledger.config.name)
  let created : PortfolioRow :=
    { id := newId
      name := ledger.config.name
      baseCurrency := ledger.config.baseCurrency
      initialValue := decimalColumn 2 (quantizePnl ledger.config.initialValue) }
  let portfolio := existing.getD created
  let db := if existing.isSome then db else { db with portfolios := db.portfolios ++ [created] }
  let peak := recoveredPeak (db.maxEquity portfolio.id)
  { ledger :=
      { ledger with
        portfolioId := some portfolio.id
        peakEquity := max peak ledger.config.initialValue }
    db }

/-- `(peakEquity - equity) / peakEquity`, in doubles. -/
def doubleDrawdown (peakEquity equity : ℚ) : ℚ :=
  let peak := Binary64.nearest peakEquity
  if 0 < peak then Binary64.nearest (Binary64.nearest (peak - Binary64.nearest equity) / peak) else 0

/-- A call of `record`, with the answer of the database to its write. -/
structure RecordCall where
  valuation : AccountValuation
  positions : Dict Position
  ts : ℤ
  reply : Except String Unit
deriving DecidableEq, Repr

/-- The peak advances before the write, so also when the write fails. -/
def PortfolioLedger.record (call : RecordCall) (world : LedgerWorld) : LedgerWorld × Except String Unit :=
  match world.ledger.portfolioId with
  | none => (world, .error "portfolio ledger not initialized — refusing to record (fail-closed)")
  | some portfolioId =>
      let equity := parseDecimal call.valuation.equity
      let peakEquity := max world.ledger.peakEquity equity
      let drawdown := doubleDrawdown peakEquity equity
      let ledger := { world.ledger with peakEquity }
      let row : PortfolioSnapshot :=
        { portfolioId
          ts := call.ts
          equity := decimalColumn 2 call.valuation.equity
          exposure := decimalColumn 2 call.valuation.grossExposure
          drawdown := decimalColumn 4 (quantizeDrawdown (.fin drawdown))
          positions := call.positions }
      match call.reply with
      | .ok _ => (⟨ledger, world.db.upsert row⟩, .ok ())
      | .error e => (⟨ledger, world.db⟩, .error e)

end NexusQuant.Market
