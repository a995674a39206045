import NexusQuant.Core
import NexusQuant.Lib.DecimalText

/-!
# Ingestion: contracts

The vocabulary of `services/ingestion/src/connectors/types.ts` that the connectors and the
persistence layer share.
-/

namespace NexusQuant.Ingestion

inductive Exchange where
  | binance | deribit | bybit | demo
deriving DecidableEq, Repr

def Exchange.text : Exchange → String
  | .binance => "BINANCE"
  | .deribit => "DERIBIT"
  | .bybit => "BYBIT"
  | .demo => "DEMO"

inductive AssetType where
  | spot | perp | option
deriving DecidableEq, Repr

/-- A `Date`: its time value, nothing for an invalid date, and what `toISOString` prints. -/
structure JsDate where
  time : Option ℤ
  iso : String
deriving DecidableEq, Repr

structure NormalizedCandle where
  exchange : Exchange
  symbol : String
  assetType : AssetType
  timeframe : Timeframe
  /-- The open time of the bar. -/
  ts : ℤ
  «open» : String
  high : String
  low : String
  close : String
  volume : String
  trades : Option JsNumber
deriving DecidableEq, Repr

inductive TradeSide where
  | buy | sell
deriving DecidableEq, Repr

structure NormalizedTick where
  exchange : Exchange
  symbol : String
  ts : ℤ
  tradeId : String
  price : String
  size : String
  side : TradeSide
deriving DecidableEq, Repr

structure NormalizedQuote where
  exchange : Exchange
  symbol : String
  ts : ℤ
  bestBid : String
  bestAsk : String
  bestBidSize : String
  bestAskSize : String
  markPrice : Option String
  spreadBps : Option String
  bids : Option (List (String × String))
  asks : Option (List (String × String))
deriving DecidableEq, Repr

structure NormalizedFundingRate where
  exchange : Exchange
  symbol : String
  ts : ℤ
  rate : String
  nextTs : Option ℤ
deriving DecidableEq, Repr

structure CandleBackfillRequest where
  symbol : String
  assetType : AssetType
  timeframe : Timeframe
  fromDate : JsDate
  toDate : JsDate
deriving DecidableEq, Repr

end NexusQuant.Ingestion
