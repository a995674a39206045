import NexusQuant.Core
import NexusQuant.Market.Types

/-!
# The mark of a symbol

`market/db-quote-transport.ts`: the latest rows of the order book, the ticks and the candles, and
the first of them that is fresh and carries a positive price.  A decimal column is what `Number`
reads from it.
-/

namespace NexusQuant.Market

/-- A row of a market table: the columns every table has, and its own. -/
structure MarketRow (α : Type) where
  exchange : String
  symbol : String
  ts : Instant
  columns : α
deriving DecidableEq, Repr

structure BookColumns where
  bestBid : JsNumber
  bestAsk : JsNumber
  bestBidSize : JsNumber
  bestAskSize : JsNumber
  markPrice : Option JsNumber
  spreadBps : Option JsNumber
deriving DecidableEq, Repr

structure LiquidityColumns where
  bidDepthUsd : JsNumber
  askDepthUsd : JsNumber
  spreadBps : JsNumber
deriving DecidableEq, Repr

/-- A tick is read for its price, a candle for its close. -/
structure MarketTables where
  orderbookSnapshots : List (MarketRow BookColumns)
  marketTicks : List (MarketRow JsNumber)
  marketCandles : List (MarketRow JsNumber)
  liquiditySnapshots : List (MarketRow LiquidityColumns)
deriving DecidableEq, Repr

/-- `findFirst` under the venue filter and `orderBy: { ts: "desc" }`; rows of one instant come in the
order of the table. -/
def findFirst {α : Type} (rows : List (MarketRow α)) (symbol : String) : Option (MarketRow α) :=
  ((rows.filter fun r => r.symbol = symbol ∧ r.exchange ≠ "DEMO").insertionSort
    fun a b => JsNumber.le b.ts.time a.ts.time).head?

def fresh (ts : Instant) (now maxAgeMs : JsNumber) : Bool := JsNumber.le (now - ts.time) maxAgeMs

/-- `Number.isFinite(x) && x > 0`, and the number. -/
def positive? (x : JsNumber) : Option ℚ := x.finite?.filter fun q => 0 < q

theorem positive?_eq_some {x : JsNumber} {q : ℚ} : positive? x = some q ↔ x = .fin q ∧ 0 < q := by
  unfold positive?
  rw [Option.filter_eq_some_iff, decide_eq_true_eq]
  cases x with
  | fin p => simp
  | nan | posInf | negInf => simp [JsNumber.finite?]

/-! ## The sources of a mark -/

inductive MarkSource where
  | book | tick | candle
deriving DecidableEq, Repr

/-- A row as a source: its instant, and the number it would be a mark with. -/
structure Candidate where
  ts : Instant
  mark : JsNumber
deriving DecidableEq, Repr

def bookMark (book : BookColumns) : JsNumber :=
  match book.markPrice with
  | some mark => mark
  | none => (book.bestBid + book.bestAsk) / .fin 2

def MarketTables.candidate (tables : MarketTables) (symbol : String) :
    MarkSource → Option Candidate
  | .book => (findFirst tables.orderbookSnapshots symbol).map fun r => ⟨r.ts, bookMark r.columns⟩
  | .tick => (findFirst tables.marketTicks symbol).map fun r => ⟨r.ts, r.columns⟩
  | .candle => (findFirst tables.marketCandles symbol).map fun r => ⟨r.ts, r.columns⟩

section Mark

variable (maxAgeMs : JsNumber) (symbol : String) (now : JsNumber)

def admitCandidate (c : Candidate) : Option Quote :=
  if fresh c.ts now maxAgeMs then
    (positive? c.mark).map fun price => ⟨symbol, c.ts.text, quantizePrice price⟩
  else none

/-- The sources in their order; one that is not usable falls through to the next. -/
def markFor (tables : MarketTables) : Option Quote :=
  [MarkSource.book, .tick, .candle].findSome? fun source =>
    (tables.candidate symbol source).bind (admitCandidate maxAgeMs symbol now)

end Mark

end NexusQuant.Market
