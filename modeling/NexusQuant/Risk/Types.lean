import NexusQuant.Lib.JsNumber
import NexusQuant.Market.State

/-!
# Risk layer: contracts

`services/workers/src/risk/types.ts` and the ratios of `money.ts`.  Amounts are decimal texts at the
borders, the limits are numbers that may be missing or not finite (a missing one compares as
`JsNumber.nan` does).
-/

namespace NexusQuant.Risk

open Execution Market

/-- `RATIO_DP`. -/
def ratioDp : ℕ := 6

def quantizeRatio (n : ℚ) : String := quantize ratioDp n

structure CapitalSnapshot where
  accountEquity : String
  availableCash : String
  usedMargin : String
  availableMargin : String
  unrealizedPnl : String
  realizedPnl : String
  grossExposure : String
  netExposure : String
deriving DecidableEq, Repr

structure ProposedOrder where
  symbol : String
  side : ExecutionSide
  targetQuantity : String
  targetNotional : String
  price : String
  strategyId : String
  lineage : Option ExecutionLineage
deriving DecidableEq, Repr

structure OrderProjection where
  symbol : String
  positionAfterQty : String
  positionNotional : String
  grossExposureAfter : String
  requiredMargin : String
  concentration : String
deriving DecidableEq, Repr

inductive GateReason where
  | maxPositionSize | maxNotional | maxLeverage | marginUnavailable | dailyLossLimit
  | concentrationLimit | failClosed
deriving DecidableEq, Repr

def GateReason.text : GateReason → String
  | .maxPositionSize => "MAX_POSITION_SIZE"
  | .maxNotional => "MAX_NOTIONAL"
  | .maxLeverage => "MAX_LEVERAGE"
  | .marginUnavailable => "MARGIN_UNAVAILABLE"
  | .dailyLossLimit => "DAILY_LOSS_LIMIT"
  | .concentrationLimit => "CONCENTRATION_LIMIT"
  | .failClosed => "FAIL_CLOSED"

structure RiskLimits where
  maxPositionSize : JsNumber
  maxPositionNotional : JsNumber
  maxLeverage : JsNumber
  dailyLossLimit : JsNumber
  maxAssetAllocation : JsNumber
  maxDrawdown : JsNumber
deriving DecidableEq, Repr

inductive KillSwitchTrigger where
  | dailyLossBreach | drawdownBreach | leverageBreach | marketDataStale | recoveryFailure
  | journalIntegrityFailure | exchangeConnectivityFailure
deriving DecidableEq, Repr

def KillSwitchTrigger.text : KillSwitchTrigger → String
  | .dailyLossBreach => "DAILY_LOSS_BREACH"
  | .drawdownBreach => "DRAWDOWN_BREACH"
  | .leverageBreach => "LEVERAGE_BREACH"
  | .marketDataStale => "MARKET_DATA_STALE"
  | .recoveryFailure => "RECOVERY_FAILURE"
  | .journalIntegrityFailure => "JOURNAL_INTEGRITY_FAILURE"
  | .exchangeConnectivityFailure => "EXCHANGE_CONNECTIVITY_FAILURE"

/-- `KILL_SWITCH_TRIGGERS`. -/
def killSwitchTriggers : List KillSwitchTrigger :=
  [.dailyLossBreach, .drawdownBreach, .leverageBreach, .marketDataStale, .recoveryFailure,
    .journalIntegrityFailure, .exchangeConnectivityFailure]

/-- A flag that is left out is false. -/
structure HealthSignals where
  marketDataStale : Bool := false
  recoveryFailure : Bool := false
  journalIntegrityFailure : Bool := false
  exchangeConnectivityFailure : Bool := false
deriving DecidableEq, Repr

inductive RiskEventType where
  | riskCheckPassed | riskCheckFailed | positionLimitBreached | leverageLimitBreached
  | drawdownLimitBreached | killSwitchTriggered | tradingHalted | tradingResumed
deriving DecidableEq, Repr

def RiskEventType.text : RiskEventType → String
  | .riskCheckPassed => "RISK_CHECK_PASSED"
  | .riskCheckFailed => "RISK_CHECK_FAILED"
  | .positionLimitBreached => "POSITION_LIMIT_BREACHED"
  | .leverageLimitBreached => "LEVERAGE_LIMIT_BREACHED"
  | .drawdownLimitBreached => "DRAWDOWN_LIMIT_BREACHED"
  | .killSwitchTriggered => "KILL_SWITCH_TRIGGERED"
  | .tradingHalted => "TRADING_HALTED"
  | .tradingResumed => "TRADING_RESUMED"

/-- `RISK_EVENT_TYPES`. -/
def riskEventTypes : List RiskEventType :=
  [.riskCheckPassed, .riskCheckFailed, .positionLimitBreached, .leverageLimitBreached,
    .drawdownLimitBreached, .killSwitchTriggered, .tradingHalted, .tradingResumed]

structure GateCheck where
  reason : GateReason
  passed : Bool
  detail : String
deriving DecidableEq, Repr

inductive GateVerdict where
  | approved (checks : List GateCheck)
  | blocked (reason : GateReason) (eventType : RiskEventType) (detail : String)
      (checks : List GateCheck)
deriving DecidableEq, Repr

/-- A record before the store numbers it. -/
structure RiskJournalInput where
  type : RiskEventType
  reason : String
  detail : String
  symbol : Option String
  capital : Option CapitalSnapshot
  trigger : Option KillSwitchTrigger
  order : Option ProposedOrder
deriving DecidableEq, Repr

structure RiskJournalRecord extends RiskJournalInput where
  seq : ℕ
deriving DecidableEq, Repr

/-- What engaged a halt. -/
inductive HaltCause where
  | trigger (t : KillSwitchTrigger)
  | manual
deriving DecidableEq, Repr

def HaltCause.text : HaltCause → String
  | .trigger t => t.text
  | .manual => "MANUAL"

structure RiskControlState where
  halted : Bool
  trigger : Option HaltCause
  haltDetail : Option String
  haltedAtSeq : Option ℕ
  baselineEquity : Option String
  peakEquity : Option String
  checksPassed : ℕ
  checksFailed : ℕ
deriving DecidableEq, Repr

/-- Why an order is refused: a gate reason, or the halt. -/
inductive RefusalReason where
  | gate (reason : GateReason)
  | tradingHalted
deriving DecidableEq, Repr

inductive RiskDecision where
  | approved (capital : CapitalSnapshot)
  | refused (reason : RefusalReason) (eventType : RiskEventType) (detail : String)
      (capital : CapitalSnapshot)
deriving DecidableEq, Repr

end NexusQuant.Risk
