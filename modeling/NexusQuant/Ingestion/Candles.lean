import Mathlib.Data.List.Sort
import NexusQuant.Ingestion.Types
import NexusQuant.Lib.JsValue
import NexusQuant.Lib.LiveMap
import NexusQuant.Lib.Paging

/-!
# Candle paging

`fetchCandles` of `connectors/binance.ts` and `connectors/deribit.ts`.  Both walk the same loop over
the pages of a window and differ in what they ask, in the payload they read and in its checks, so the
loop is one definition.  The venue is a function of the request.
-/

namespace NexusQuant.Ingestion

open Paging

/-! ## Shared by the connectors -/

/-- A connector's own error, or the `RangeError` of printing an invalid date. -/
inductive ConnectorError where
  | api (message endpoint : String)
  | range (message : String)
deriving DecidableEq, Repr

/-- `TIMEFRAME_MS`. -/
def timeframeMs : Timeframe → ℤ
  | .m1 => 60000
  | .m5 => 300000
  | .m15 => 900000
  | .h1 => 3600000
  | .h4 => 14400000
  | .d1 => 86400000

theorem timeframeMs_pos (tf : Timeframe) : 0 < timeframeMs tf := by
  cases tf <;> decide

structure Ohlcv (α : Type*) where
  «open» : α
  high : α
  low : α
  close : α
  volume : α
deriving DecidableEq, Repr

def Ohlcv.map {α β : Type*} (f : α → β) (o : Ohlcv α) : Ohlcv β :=
  ⟨f o.open, f o.high, f o.low, f o.close, f o.volume⟩

/-- All five values, or nothing. -/
def Ohlcv.all? {α : Type*} (o : Ohlcv (Option α)) : Option (Ohlcv α) := do
  return ⟨← o.open, ← o.high, ← o.low, ← o.close, ← o.volume⟩

/-- `toDecimalString` of a finite number: trailing zeros trimmed, no negative zero. -/
def toDecimalString (value : ℚ) (dp : ℕ) : String :=
  let fixed := DecimalText.toFixed dp value
  let out :=
    if '.' ∈ fixed.toList then
      let kept := fixed.toList.reverse.dropWhile (· = '0')
      String.ofList (if kept.head? = some '.' then kept.tail else kept).reverse
    else fixed
  if out = "-0" then "0" else out

example : toDecimalString (-5 / 4) 8 = "-1.25" := by decide +kernel

def candleOf (exchange : Exchange) (req : CandleBackfillRequest) (ts : ℤ) (o : Ohlcv String)
    (trades : Option JsNumber) : NormalizedCandle :=
  ⟨exchange, req.symbol, req.assetType, req.timeframe, ts, o.open, o.high, o.low, o.close, o.volume,
    trades⟩

/-- The window in milliseconds.  An invalid date is found when the message is printed. -/
def windowOf (req : CandleBackfillRequest) (endpoint : String) : Except ConnectorError (ℤ × ℤ) :=
  match req.fromDate.time, req.toDate.time with
  | some fromMs, some toMs =>
      if toMs < fromMs then
        .error (.api s!"invalid candle window: from={req.fromDate.iso} to={req.toDate.iso}" endpoint)
      else .ok (fromMs, toMs)
  | _, _ => .error (.range "Invalid time value")

/-- What a row says after its checks: its open time, and its candle unless converting it throws. -/
abbrev RowReader (Row : Type) :=
  Row → Except ConnectorError (ℤ × Except ConnectorError NormalizedCandle)

def readRow {Row : Type} (read : RowReader Row) (fromMs toMs : ℤ) (out : LiveMap ℤ NormalizedCandle)
    (row : Row) : Except ConnectorError (LiveMap ℤ NormalizedCandle) := do
  let (ts, candle) ← read row
  if ts < fromMs ∨ ts > toMs then return out
  return out.set ts (← candle)

/-- The loop over the pages, and the candles in the order of their open times. -/
def fetchPages {Row : Type} (page : ℤ → ℤ → Except ConnectorError (List Row)) (read : RowReader Row)
    (maxBars : ℕ) (tfMs fromMs toMs : ℤ) : Except ConnectorError (List NormalizedCandle) := do
  let windowMs := maxBars * tfMs
  let out ← (cursors fromMs toMs windowMs).foldlM (fun out cursor => do
    let rows ← page cursor (min (cursor + windowMs - tfMs) toMs)
    rows.foldlM (readRow read fromMs toMs) out) LiveMap.empty
  return out.values.insertionSort fun a b => a.ts ≤ b.ts

/-- The native name of a symbol. -/
def requireNative (natives : Dict String) (venue symbol endpoint : String) :
    Except ConnectorError String :=
  match natives.get? symbol with
  | some native => .ok native
  | none => .error (.api (s!"unsupported symbol for {venue}: {symbol} (supported: " ++
      ", ".intercalate natives.keys ++ ")") endpoint)

/-! ## Binance -/

namespace Binance

/-- `MAX_BARS_PER_REQUEST`. -/
def maxBarsPerRequest : ℕ := 1500

/-- `PERP_SYMBOLS`. -/
def perpSymbols : Dict String := [("BTC-PERP", "BTCUSDT"), ("ETH-PERP", "ETHUSDT")]

/-- `INTERVAL_MAP`. -/
def interval : Timeframe → String
  | .m1 => "1m"
  | .m5 => "5m"
  | .m15 => "15m"
  | .h1 => "1h"
  | .h4 => "4h"
  | .d1 => "1d"

structure KlineParams where
  symbol : String
  interval : String
  startTime : ℤ
  endTime : ℤ
  limit : ℕ
deriving DecidableEq, Repr

/-- The fields of a kline that are read; an open time that is no finite number is absent. -/
structure KlineRow where
  openTime : Option ℤ
  values : Ohlcv JsValue
  trades : JsValue

def finiteOrUndefined : JsValue → Option ℚ
  | .num x => x.finite?
  | .str s => DecimalText.number? s
  | _ => none

def tradesOf : JsValue → Option JsNumber
  | .num x => some x
  | _ => none

def read (req : CandleBackfillRequest) : RowReader KlineRow := fun row =>
  match row.openTime, (row.values.map finiteOrUndefined).all? with
  | some ts, some values =>
      .ok (ts, .ok (candleOf .binance req ts (values.map (toDecimalString · 8)) (tradesOf row.trades)))
  | _, _ => .error (.api "malformed kline row" "/fapi/v1/klines")

/-- `BinanceConnector.fetchCandles`. -/
def fetchCandles (rest : KlineParams → Except ConnectorError (List KlineRow))
    (req : CandleBackfillRequest) : Except ConnectorError (List NormalizedCandle) :=
  if req.assetType = .spot then .ok []
  else do
    let native ← requireNative perpSymbols "Binance" req.symbol "/fapi/v1/klines"
    let (fromMs, toMs) ← windowOf req "/fapi/v1/klines"
    fetchPages
      (fun start stop => rest ⟨native, interval req.timeframe, start, stop, maxBarsPerRequest⟩)
      (read req) maxBarsPerRequest (timeframeMs req.timeframe) fromMs toMs

end Binance

/-! ## Deribit -/

namespace Deribit

/-- `MAX_BARS_PER_REQUEST`. -/
def maxBarsPerRequest : ℕ := 5000

/-- `PERP_INSTRUMENTS`. -/
def perpInstruments : Dict String := [("BTC-PERP", "BTC-PERPETUAL"), ("ETH-PERP", "ETH-PERPETUAL")]

/-- `RESOLUTION_MAP`. -/
def resolution : Timeframe → String
  | .m1 => "1"
  | .m5 => "5"
  | .m15 => "15"
  | .h1 => "60"
  | .h4 => "240"
  | .d1 => "1D"

structure ChartParams where
  instrumentName : String
  resolution : String
  startTimestamp : ℤ
  endTimestamp : ℤ
deriving DecidableEq, Repr

structure ChartDataResult where
  status : String
  ticks : List ℤ
  values : Ohlcv (List JsNumber)
deriving DecidableEq, Repr

def endpoint : String := "/public/get_tradingview_chart_data"

/-- The values at one index of the arrays. -/
structure ChartRow where
  ts : ℤ
  values : Ohlcv (Option JsNumber)
deriving DecidableEq, Repr

def chartRows (result : ChartDataResult) : List ChartRow :=
  result.ticks.zipIdx.map fun tick => ⟨tick.1, result.values.map fun array => array[tick.2]?⟩

def toDecimalString (value : JsNumber) (dp : ℕ) : Except ConnectorError String :=
  match value with
  | .fin q => .ok (Ingestion.toDecimalString q dp)
  | value => .error (.api s!"non-finite numeric value: {numberText value}" "normalize")

def read (req : CandleBackfillRequest) : RowReader ChartRow := fun row =>
  match row.values.all? with
  | none => .error (.api "ragged chart data arrays" endpoint)
  | some values => .ok (row.ts, do
      let o : Ohlcv String := ⟨← toDecimalString values.open 8, ← toDecimalString values.high 8,
        ← toDecimalString values.low 8, ← toDecimalString values.close 8,
        ← toDecimalString values.volume 8⟩
      return candleOf .deribit req row.ts o none)

def page (result : ChartDataResult) : Except ConnectorError (List ChartRow) :=
  if result.status = "no_data" then .ok []
  else if result.status ≠ "ok" then
    .error (.api (s!"chart data status \"" ++ result.status ++ "\"") endpoint)
  else .ok (chartRows result)

/-- `DeribitConnector.fetchCandles`. -/
def fetchCandles (rest : ChartParams → Except ConnectorError ChartDataResult)
    (req : CandleBackfillRequest) : Except ConnectorError (List NormalizedCandle) :=
  if req.assetType = .spot then .ok []
  else do
    let instrument ← requireNative perpInstruments "Deribit" req.symbol endpoint
    let (fromMs, toMs) ← windowOf req endpoint
    fetchPages
      (fun start stop => do page (← rest ⟨instrument, resolution req.timeframe, start, stop⟩))
      (read req) maxBarsPerRequest (timeframeMs req.timeframe) fromMs toMs

end Deribit

end NexusQuant.Ingestion
