import NexusQuant.Ingestion.LiveFeatures
import NexusQuant.Ingestion.OptionInstrument
import NexusQuant.Lib.RetriedWrites

/-!
# Persistence of market data

`persistence/index.ts` and `persistence/ticks.ts`: every row is filed under the primary key of its table,
in chunks that are one transaction each.  Trade prints are immutable, so that one which is there is
skipped; every other row overwrites.  The open interest, whose rows are computed from the table, stands in
`OpenInterest`.
-/

namespace NexusQuant.Ingestion

open RetriedWrites Run

inductive LsRatioScope where
  | globalAccounts | topTraderAccounts | topTraderPositions
deriving DecidableEq, Repr

structure NormalizedLongShortRatio where
  exchange : Exchange
  symbol : String
  scope : LsRatioScope
  ts : ℤ
  ratio : String
  longPct : Option String
  shortPct : Option String
deriving DecidableEq, Repr

structure NormalizedOptionContract where
  exchange : Exchange
  underlying : String
  ts : ℤ
  expiry : ℤ
  strike : String
  optionType : OptionType
  iv : Option String
  delta : Option String
  gamma : Option String
  theta : Option String
  vega : Option String
  openInterest : Option String
  volume : Option String
  bid : Option String
  ask : Option String
  markPrice : Option String
deriving DecidableEq, Repr

structure NormalizedOptionChain where
  exchange : Exchange
  underlying : String
  ts : ℤ
  spot : String
  ivAtm30d : Option String
  skew25d : Option String
  putCallRatio : Option String
  totalGammaExposure : Option String
  /-- Expiries and the volatilities at the money. -/
  termStructure : Option (List (String × String))
  contracts : List NormalizedOptionContract
deriving DecidableEq, Repr

structure NormalizedLiquidity where
  exchange : Exchange
  symbol : String
  ts : ℤ
  bidDepthUsd : String
  askDepthUsd : String
  spreadBps : String
deriving DecidableEq, Repr

/-! ## Tables -/

/-- The primary keys; a strike is a decimal. -/
inductive MarketKey where
  | candle (scope : CandleScope) (ts : ℤ)
  | fundingRate (exchange : Exchange) (symbol : String) (ts : ℤ)
  | longShortRatio (exchange : Exchange) (symbol : String) (scope : LsRatioScope) (ts : ℤ)
  | optionsChain (exchange : Exchange) (underlying : String) (ts : ℤ)
  | optionContract (exchange : Exchange) (underlying : String) (ts expiry : ℤ) (strike : Option ℚ)
      (optionType : OptionType)
  | liquidity (exchange : Exchange) (symbol : String) (ts : ℤ)
  | orderbook (exchange : Exchange) (symbol : String) (ts : ℤ)
  | tick (exchange : Exchange) (symbol : String) (ts : ℤ) (tradeId : String)
deriving DecidableEq, Repr

/-- The columns beside the key. -/
inductive MarketRow where
  | candle (row : MarketCandle)
  | fundingRate (rate : String) (nextTs : Option ℤ)
  | longShortRatio (ratio : String) (longPct shortPct : Option String)
  | optionsChain (spot : String) (ivAtm30d skew25d putCallRatio totalGammaExposure : Option String)
      (termStructure : Option (List (String × String))) (contractCount : ℕ)
  | optionContract (iv delta gamma theta vega openInterest volume bid ask markPrice : Option String)
  | liquidity (bidDepthUsd askDepthUsd spreadBps : String)
  | orderbook (bestBid bestAsk bestBidSize bestAskSize : String) (markPrice spreadBps : Option String)
      (bids asks : Option (List (String × String)))
  | tick (price size : String) (side : TradeSide)
deriving DecidableEq, Repr

abbrev MarketStore := LiveMap MarketKey MarketRow

/-- `skipDuplicates`. -/
def MarketKey.isTick : MarketKey → Bool
  | .tick _ _ _ _ => true
  | _ => false

def NormalizedCandle.marketRow (c : NormalizedCandle) : MarketKey × MarketRow :=
  (.candle c.scope c.ts, .candle c.row)

def NormalizedFundingRate.marketRow (r : NormalizedFundingRate) : MarketKey × MarketRow :=
  (.fundingRate r.exchange r.symbol r.ts, .fundingRate r.rate r.nextTs)

def NormalizedLongShortRatio.marketRow (r : NormalizedLongShortRatio) : MarketKey × MarketRow :=
  (.longShortRatio r.exchange r.symbol r.scope r.ts, .longShortRatio r.ratio r.longPct r.shortPct)

def NormalizedOptionContract.marketRow (c : NormalizedOptionContract) : MarketKey × MarketRow :=
  (.optionContract c.exchange c.underlying c.ts c.expiry (DecimalText.number? c.strike) c.optionType,
    .optionContract c.iv c.delta c.gamma c.theta c.vega c.openInterest c.volume c.bid c.ask c.markPrice)

def NormalizedOptionChain.marketRow (c : NormalizedOptionChain) : MarketKey × MarketRow :=
  (.optionsChain c.exchange c.underlying c.ts,
    .optionsChain c.spot c.ivAtm30d c.skew25d c.putCallRatio c.totalGammaExposure c.termStructure
      c.contracts.length)

def NormalizedLiquidity.marketRow (r : NormalizedLiquidity) : MarketKey × MarketRow :=
  (.liquidity r.exchange r.symbol r.ts, .liquidity r.bidDepthUsd r.askDepthUsd r.spreadBps)

def NormalizedQuote.marketRow (q : NormalizedQuote) : MarketKey × MarketRow :=
  (.orderbook q.exchange q.symbol q.ts,
    .orderbook q.bestBid q.bestAsk q.bestBidSize q.bestAskSize q.markPrice q.spreadBps q.bids q.asks)

def NormalizedTick.marketRow (t : NormalizedTick) : MarketKey × MarketRow :=
  (.tick t.exchange t.symbol t.ts t.tradeId, .tick t.price t.size t.side)

/-! ## Calls -/

/-- `TICK_CHUNK_SIZE`. -/
def tickChunkSize : ℕ := 1000

/-- `ORDERBOOK_CHUNK_SIZE`. -/
def orderbookChunkSize : ℕ := 500

abbrev Batches := Call MarketKey MarketRow

def upsertCandles (candles : List NormalizedCandle) : Batches :=
  (chunk candles upsertChunkSize).map (·.map (·.marketRow))

def upsertFundingRates (rows : List NormalizedFundingRate) : Batches :=
  (chunk rows upsertChunkSize).map (·.map (·.marketRow))

def upsertLongShortRatios (rows : List NormalizedLongShortRatio) : Batches :=
  (chunk rows upsertChunkSize).map (·.map (·.marketRow))

/-- The aggregate is written first, on its own. -/
def upsertOptionChain (chain : NormalizedOptionChain) : Batches :=
  [chain.marketRow] :: (chunk chain.contracts upsertChunkSize).map (·.map (·.marketRow))

def upsertLiquidity (row : NormalizedLiquidity) : Batches := [[row.marketRow]]

def upsertOrderbookSnapshots (quotes : List NormalizedQuote) : Batches :=
  (chunk quotes orderbookChunkSize).map (·.map (·.marketRow))

def upsertTicks (ticks : List NormalizedTick) : Batches :=
  (chunk ticks tickChunkSize).map (·.map (·.marketRow))

inductive IngestCall where
  | candles (candles : List NormalizedCandle)
  | fundingRates (rows : List NormalizedFundingRate)
  | longShortRatios (rows : List NormalizedLongShortRatio)
  | optionChain (chain : NormalizedOptionChain)
  | liquidity (row : NormalizedLiquidity)
  | orderbookSnapshots (quotes : List NormalizedQuote)
  | ticks (ticks : List NormalizedTick)

def IngestCall.batches : IngestCall → Batches
  | .candles rows => upsertCandles rows
  | .fundingRates rows => upsertFundingRates rows
  | .longShortRatios rows => upsertLongShortRatios rows
  | .optionChain chain => upsertOptionChain chain
  | .liquidity row => upsertLiquidity row
  | .orderbookSnapshots quotes => upsertOrderbookSnapshots quotes
  | .ticks rows => upsertTicks rows

/-- The store while calls are made, fail and are made again. -/
abbrev ingest (calls : List IngestCall) (store : MarketStore) (events : List Event) :
    Writers MarketKey MarketRow :=
  run (step MarketKey.isTick (calls.map (·.batches))) (begin (calls.map (·.batches)) store) events

/-! ## What is stored -/

/-- The rows of a call. -/
def IngestCall.rows : IngestCall → List (MarketKey × MarketRow)
  | .candles rows => rows.map (·.marketRow)
  | .fundingRates rows => rows.map (·.marketRow)
  | .longShortRatios rows => rows.map (·.marketRow)
  | .optionChain chain => chain.marketRow :: chain.contracts.map (·.marketRow)
  | .liquidity row => [row.marketRow]
  | .orderbookSnapshots quotes => quotes.map (·.marketRow)
  | .ticks rows => rows.map (·.marketRow)

theorem flatten_map_chunk {α β : Type} (f : α → β) (items : List α) {size : ℕ} (hsize : 0 < size) :
    ((chunk items size).map (·.map f)).flatten = items.map f := by
  rw [← List.map_flatten, flatten_chunk items hsize]

theorem flatten_batches (call : IngestCall) : call.batches.flatten = call.rows := by
  have hupsert : 0 < upsertChunkSize := by decide
  have hticks : 0 < tickChunkSize := by decide
  have hbook : 0 < orderbookChunkSize := by decide
  cases call with
  | candles rows => exact flatten_map_chunk _ rows hupsert
  | fundingRates rows => exact flatten_map_chunk _ rows hupsert
  | longShortRatios rows => exact flatten_map_chunk _ rows hupsert
  | optionChain chain =>
      exact congrArg (chain.marketRow :: ·) (flatten_map_chunk _ chain.contracts hupsert)
  | liquidity row => rfl
  | orderbookSnapshots quotes => exact flatten_map_chunk _ quotes hbook
  | ticks rows => exact flatten_map_chunk _ rows hticks

theorem mem_rowsOf_batches {calls : List IngestCall} {row : MarketKey × MarketRow} :
    row ∈ rowsOf (calls.map (·.batches)) ↔ ∃ call ∈ calls, row ∈ call.rows := by
  unfold rowsOf
  simp [List.mem_flatten, ← flatten_batches]

/-- The calls say the same of a key. -/
def SameMarket (calls : List IngestCall) : Prop :=
  ∀ call ∈ calls, ∀ call' ∈ calls, ∀ row ∈ call.rows, ∀ row' ∈ call'.rows, row.1 = row'.1 → row.2 = row'.2

theorem agreeing_of_sameMarket {calls : List IngestCall} (h : SameMarket calls) :
    Agreeing (calls.map (·.batches)) := by
  intro key v v' hv hv'
  obtain ⟨call, hcall, hrow⟩ := mem_rowsOf_batches.mp hv
  obtain ⟨call', hcall', hrow'⟩ := mem_rowsOf_batches.mp hv'
  exact h call hcall call' hcall' _ hrow _ hrow' rfl

/-- However the calls are interleaved, fail between two chunks and are made again, once each of them has
come to its end every row of them is stored, a tick as it was stored first; every other key holds what it
held; and each new tick has been reported as inserted by exactly one of all the attempts. -/
theorem ingestion_stores_once {calls : List IngestCall} (hsame : SameMarket calls) (store : MarketStore)
    (events : List Event) (hended : ∀ i < calls.length, i ∈ (ingest calls store events).ended) :
    (∀ call ∈ calls, ∀ row ∈ call.rows, (ingest calls store events).table.get? row.1 =
      some (if row.1.isTick then (store.get? row.1).getD row.2 else row.2)) ∧
    (∀ key, (∀ call ∈ calls, ∀ row ∈ call.rows, row.1 ≠ key) →
      (ingest calls store events).table.get? key = store.get? key) ∧
    keptKeys MarketKey.isTick (ingest calls store events).table =
      keptKeys MarketKey.isTick store + (ingest calls store events).inserted := by
  have hagree := agreeing_of_sameMarket hsame
  have hall : ∀ i < (calls.map (·.batches)).length, i ∈ (ingest calls store events).ended := by
    rw [List.length_map]
    exact hended
  obtain ⟨houtcome, hcounted⟩ := run_outcome hagree events hall
  refine ⟨?_, ?_, hcounted⟩
  · intro call hcall row hrow
    have hmem : row ∈ rowsOf (calls.map (·.batches)) := mem_rowsOf_batches.mpr ⟨call, hcall, hrow⟩
    rw [houtcome, outcome]
    cases hlookup : (rowsOf (calls.map (·.batches))).lookup row.1 with
    | none => exact absurd hmem (not_mem_of_lookup hlookup row.2)
    | some v =>
        have hv : v = row.2 := hagree row.1 v row.2 (mem_of_lookup hlookup) hmem
        rw [hv]
  · intro key hnone
    rw [houtcome, outcome]
    cases hlookup : (rowsOf (calls.map (·.batches))).lookup key with
    | none => rfl
    | some v =>
        obtain ⟨call, hcall, hrow⟩ := mem_rowsOf_batches.mp (mem_of_lookup hlookup)
        exact absurd rfl (hnone call hcall _ hrow)

/-! ## A restart -/

def sampleTick (tradeId : String) : NormalizedTick := ⟨.deribit, "BTC-PERP", 1000, tradeId, "100", "2", .buy⟩

/-- A flush, and the same window again after a restart. -/
def sampleIngestCalls : List IngestCall :=
  [.ticks [sampleTick "a", sampleTick "b"], .ticks [sampleTick "b", sampleTick "c"]]

def sampleIngestEvents : List Event :=
  [.advance 0, .restart 0, .advance 1, .advance 0, .advance 1, .advance 0]

theorem sampleIngestCalls_same : SameMarket sampleIngestCalls := by
  unfold SameMarket
  decide

theorem ingestion_stores_once_sample :
    ((IngestCall.ticks [sampleTick "b", sampleTick "c"]).rows.map fun row =>
      (ingest sampleIngestCalls .empty sampleIngestEvents).table.get? row.1) =
    (IngestCall.ticks [sampleTick "b", sampleTick "c"]).rows.map fun row => some row.2 := by
  have hended : ∀ i < sampleIngestCalls.length,
      i ∈ (ingest sampleIngestCalls .empty sampleIngestEvents).ended := by decide
  apply List.map_congr_left
  intro row hrow
  have hstored := (ingestion_stores_once sampleIngestCalls_same .empty sampleIngestEvents hended).1
    _ (List.mem_cons_of_mem _ (List.mem_singleton_self _)) row hrow
  rw [hstored]
  simp [LiveMap.get?, LiveMap.empty]

end NexusQuant.Ingestion
