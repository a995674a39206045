import NexusQuant.Execution.Portfolio

/-!
# Market layer: contracts

`services/workers/src/market/types.ts` and the precisions of `money.ts`: prices and quantities are
texts with eight decimals, amounts of capital texts with two.
-/

namespace NexusQuant.Market

open Execution

/-- `PRICE_DP`. -/
def priceDp : ℕ := 8

/-- `QTY_DP`. -/
def qtyDp : ℕ := 8

section Quantize

variable [A : Arithmetic]

def quantizePrice (n : ℚ) : String := quantize priceDp n

def quantizeQty (n : ℚ) : String := quantize qtyDp n

def quantizePnl (n : ℚ) : String := quantizeNotional n

theorem isCanonical_quantizePrice (x : ℚ) : isCanonicalDecimalString (quantizePrice x) priceDp :=
  isCanonicalDecimalString_quantize (by decide) x

theorem isCanonical_quantizeQty (x : ℚ) : isCanonicalDecimalString (quantizeQty x) qtyDp :=
  isCanonicalDecimalString_quantize (by decide) x

theorem isCanonical_quantizeNotional (x : ℚ) :
    isCanonicalDecimalString (quantizeNotional x) notionalDp :=
  isCanonicalDecimalString_quantize (by decide) x

/-- What is written as zero is less than half a unit. -/
theorem quantizeQty_eq_zero_iff {x : ℚ} :
    quantizeQty x = quantizeQty 0 ↔ Rounding.roundTo qtyDp (A.finiteOrZero x) = 0 := by
  constructor
  · intro h
    have hread := congrArg (parseDecimal (A := .exact)) h
    rw [quantizeQty, quantizeQty, parseDecimal_exact_quantize (by decide),
      parseDecimal_exact_quantize (by decide)] at hread
    simpa using hread
  · intro h
    have hunits : Rounding.units qtyDp (A.finiteOrZero x) = Rounding.units qtyDp 0 := by
      have hzero : Rounding.units qtyDp 0 = 0 := by norm_num [Rounding.units]
      rw [hzero]
      rw [Rounding.roundTo, div_eq_zero_iff, Int.cast_eq_zero] at h
      exact h.resolve_right (Rounding.pow_ten_pos qtyDp).ne'
    unfold quantizeQty
    rw [quantize_eq (by decide), quantize_eq (by decide), hunits, Arithmetic.finiteOrZero_zero]

theorem quantizeQty_zero : quantizeQty (A := A) 0 = quantizeQty (A := .exact) 0 := quantize_zero qtyDp

end Quantize

inductive PositionSide where
  | long | short | flat
deriving DecidableEq, Repr

inductive OrderSide where
  | buy | sell
deriving DecidableEq, Repr

inductive ProviderMode where
  | historical | replay | realtime
deriving DecidableEq, Repr

structure Quote where
  symbol : String
  ts : String
  price : String
deriving DecidableEq, Repr

structure Order where
  orderId : String
  intentId : String
  symbol : String
  side : OrderSide
  qty : String
  price : String
  brokerId : String
  lineage : ExecutionLineage
deriving DecidableEq, Repr

inductive OrderState where
  | requested | submitted | accepted | partiallyFilled | filled | cancelled | rejected
deriving DecidableEq, Repr

structure OrderFillData where
  fillQty : String
  fillPrice : String
  cumQty : String
deriving DecidableEq, Repr

/-- What an order event says besides whose it is: fills carry their economics, a cancellation and a
rejection their reason. -/
inductive OrderEventBody where
  | requested
  | submitted
  | accepted
  | partiallyFilled (fill : OrderFillData)
  | filled (fill : OrderFillData)
  | cancelled (reason : String)
  | rejected (reason : String)
deriving DecidableEq, Repr

structure OrderEvent where
  seq : ℤ
  orderId : String
  intentId : String
  symbol : String
  side : OrderSide
  brokerId : String
  lineage : ExecutionLineage
  body : OrderEventBody
deriving DecidableEq, Repr

/-- The text of `kind`. -/
def OrderEventBody.kind : OrderEventBody → String
  | .requested => "ORDER_REQUESTED"
  | .submitted => "ORDER_SUBMITTED"
  | .accepted => "ORDER_ACCEPTED"
  | .partiallyFilled _ => "ORDER_PARTIALLY_FILLED"
  | .filled _ => "ORDER_FILLED"
  | .cancelled _ => "ORDER_CANCELLED"
  | .rejected _ => "ORDER_REJECTED"

/-- The fill data of a fill event. -/
def OrderEventBody.fill? : OrderEventBody → Option OrderFillData
  | .partiallyFilled fill | .filled fill => some fill
  | _ => none

structure Fill where
  orderId : String
  intentId : String
  symbol : String
  side : OrderSide
  qty : String
  price : String
  lineage : ExecutionLineage
deriving DecidableEq, Repr

/-- The realized fill of a fill event. -/
def OrderEvent.fill? (e : OrderEvent) : Option Fill :=
  e.body.fill?.map fun f => ⟨e.orderId, e.intentId, e.symbol, e.side, f.fillQty, f.fillPrice, e.lineage⟩

structure OrderSnapshot where
  orderId : String
  symbol : String
  side : OrderSide
  orderedQty : String
  state : OrderState
  filledQty : String
  avgFillPrice : String
  fills : List Fill
  events : List OrderEvent
deriving DecidableEq, Repr

structure Position where
  symbol : String
  netQty : String
  avgEntryPrice : String
  realizedPnl : String
  markPrice : String
deriving DecidableEq, Repr

structure Account where
  cashBalance : String
  realizedPnl : String
deriving DecidableEq, Repr

structure AccountValuation where
  cashBalance : String
  realizedPnl : String
  unrealizedPnl : String
  equity : String
  marginUsed : String
  buyingPower : String
  grossExposure : String
deriving DecidableEq, Repr

structure MarketState where
  positions : Dict Position
  account : Account
deriving DecidableEq, Repr

structure ReconciliationMismatch where
  symbol : String
  brokerNotional : String
  brokerSide : PositionSide
  portfolioNotional : String
  portfolioSide : PositionSide
  detail : String
deriving DecidableEq, Repr

inductive ReconciliationVerdict where
  | ok (checked : ℕ)
  | failed (checked : ℕ) (mismatches : List ReconciliationMismatch) (detail : String)
deriving DecidableEq, Repr

inductive MarketStageEvent where
  | marketData (quote : Quote) (providerMode : ProviderMode)
  | order (event : OrderEvent)
  | positionUpdated (position : Position) (lineage : ExecutionLineage)
  | accountUpdated (valuation : AccountValuation)
  | reconciliationFailed (verdict : ReconciliationVerdict)
deriving DecidableEq, Repr

end NexusQuant.Market
