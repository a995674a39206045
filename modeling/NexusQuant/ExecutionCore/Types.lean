import Mathlib.Data.Fintype.Defs
import Mathlib.Data.Finset.Insert
import NexusQuant.TradingPlan.Plan

/-!
# Execution core: contracts

`packages/execution-core/src/types.ts`, and the deterministic identifiers of `util.ts`.  Clocks are
injected integers (epoch milliseconds) and are never computed with.
-/

namespace NexusQuant.ExecutionCore

open TradingPlan (Action ReadinessBand)

inductive ExecutionProvenance where
  | verbatim | derived | estimated | unavailable
deriving DecidableEq, Repr

inductive ExecutionMode where
  | simulation | paper | live | backtest
deriving DecidableEq, Repr

inductive ExecutionVenue where
  | unset | simulated | deribit | binance | bybit
deriving DecidableEq, Repr

inductive ExecutionSource where
  | decisionEngine | tradePlan | executionCore | reducer | killSwitch | runtime | system
deriving DecidableEq, Repr

inductive ExecutionStatus where
  | notCreated | planned | ready | submitted | acknowledged | partiallyFilled | filled | opened
  | reducing | closed | rejected | expired | cancelled | failed
deriving DecidableEq, Repr

inductive OrderStatus where
  | notCreated | planned | ready | submitted | acknowledged | partiallyFilled | filled | cancelled
  | rejected | expired | failed
deriving DecidableEq, Repr

instance : Fintype ExecutionStatus where
  elems := {.notCreated, .planned, .ready, .submitted, .acknowledged, .partiallyFilled, .filled,
    .opened, .reducing, .closed, .rejected, .expired, .cancelled, .failed}
  complete x := by cases x <;> decide

instance : Fintype OrderStatus where
  elems := {.notCreated, .planned, .ready, .submitted, .acknowledged, .partiallyFilled, .filled,
    .cancelled, .rejected, .expired, .failed}
  complete x := by cases x <;> decide

inductive PositionStatus where
  | none | opening | opened | reducing | closed
deriving DecidableEq, Repr

inductive FillStatus where
  | partialFill | full | void
deriving DecidableEq, Repr

inductive ExecutionFailureReason where
  | noDecision | noPlan | blocked | missingEntry | missingStop | missingTarget | missingReadiness
  | notReady | killSwitch | runtimeUnhealthy | illegalTransition | validationFailed | expired
  | cancelled | rejected | failed | brokerUnavailable | unknown
deriving DecidableEq, Repr

inductive OrderSide where
  | buy | sell
deriving DecidableEq, Repr

inductive OrderRole where
  | entry | stop | target
deriving DecidableEq, Repr

inductive OrderType where
  | market | limit | stop
deriving DecidableEq, Repr

inductive ExecutionEntity where
  | execution | intent | plan | order | fill | position
deriving DecidableEq, Repr

inductive ExecutionEventType where
  | planned | armed | submitted | acknowledged | partiallyFilled | filled | opened | reduced | closed
  | cancelled | rejected | expired | failed | killed | rejectedTransition
deriving DecidableEq, Repr

structure ExecutionIntent where
  intentId : String
  signalId : String
  symbol : String
  timeframe : Timeframe
  direction : SignalDecision
  confidence : JsNumber
  entry : Option JsNumber
  stop : Option JsNumber
  targets : List JsNumber
  riskReward : Option JsNumber
  stopDistancePct : Option JsNumber
  positionSize : Option JsNumber
  positionNotional : Option JsNumber
  capitalRiskPercent : Option JsNumber
  assumedEquity : JsNumber
  action : Action
  canTrade : Bool
  shouldTrade : Bool
  readinessScore : Option JsNumber
  readinessBand : Option ReadinessBand
  featureHash : String
  datasetHash : String
  strategyVersionId : String
  mode : ExecutionMode
  venue : ExecutionVenue
  provenance : List (String × ExecutionProvenance)
  notes : List String
  createdAt : ℤ
deriving DecidableEq, Repr

/-- An order.  Its quantity has passed `num`, and its filled quantity and average price have passed
`round`, so that all three are finite. -/
structure ExecutionOrder where
  orderId : String
  planId : String
  intentId : String
  symbol : String
  side : OrderSide
  role : OrderRole
  type : OrderType
  price : Option JsNumber
  quantity : Option ℚ
  status : OrderStatus
  filledQuantity : ℚ
  avgFillPrice : Option ℚ
  provenance : ExecutionProvenance
  reason : String
  createdAt : ℤ
  updatedAt : ℤ
deriving DecidableEq, Repr

structure ExecutionFill where
  fillId : String
  orderId : String
  intentId : String
  symbol : String
  side : OrderSide
  price : ℚ
  quantity : ℚ
  status : FillStatus
  cumulativeQuantity : ℚ
  provenance : ExecutionProvenance
  ts : ℤ
deriving DecidableEq, Repr

structure ExecutionPlan where
  planId : String
  intentId : String
  signalId : String
  symbol : String
  direction : SignalDecision
  mode : ExecutionMode
  venue : ExecutionVenue
  orders : List ExecutionOrder
  totalQuantity : Option ℚ
  submittable : Bool
  blockedReason : Option ExecutionFailureReason
  provenance : ExecutionProvenance
  notes : List String
  createdAt : ℤ
deriving DecidableEq, Repr

structure ExecutionPosition where
  positionId : String
  intentId : String
  symbol : String
  direction : SignalDecision
  status : PositionStatus
  quantity : ℚ
  entryQuantity : ℚ
  closedQuantity : ℚ
  avgEntryPrice : Option ℚ
  stop : Option JsNumber
  targets : List JsNumber
  openedAt : Option ℤ
  closedAt : Option ℤ
  provenance : ExecutionProvenance
deriving DecidableEq, Repr

structure ExecutionEvent where
  eventId : String
  seq : ℕ
  intentId : String
  entity : ExecutionEntity
  entityId : String
  type : ExecutionEventType
  previousStatus : Option ExecutionStatus
  newStatus : Option ExecutionStatus
  source : ExecutionSource
  provenance : ExecutionProvenance
  reason : String
  ts : ℤ
deriving DecidableEq, Repr

structure ExecutionAudit where
  intentId : String
  events : List ExecutionEvent
  count : ℕ
deriving DecidableEq, Repr

structure ExecutionLifecycle where
  current : ExecutionStatus
  history : List ExecutionStatus
  terminal : Bool
deriving DecidableEq, Repr

structure ExecutionFailure where
  reason : ExecutionFailureReason
  message : String
  «at» : ℤ
  fatal : Bool
deriving DecidableEq, Repr

structure ExecutionState where
  intentId : String
  signalId : String
  symbol : String
  status : ExecutionStatus
  mode : ExecutionMode
  venue : ExecutionVenue
  intent : ExecutionIntent
  plan : Option ExecutionPlan
  orders : List ExecutionOrder
  fills : List ExecutionFill
  position : Option ExecutionPosition
  lifecycle : ExecutionLifecycle
  audit : ExecutionAudit
  failure : Option ExecutionFailure
  seq : ℕ
  clock : ℤ
  createdAt : ℤ
  updatedAt : ℤ
deriving DecidableEq, Repr

/-- The commands of the reducer; the first argument of each is its clock `at`. -/
inductive ExecutionCommand where
  | plan (now : ℤ)
  | arm (now : ℤ)
  | submit (now : ℤ)
  | acknowledge (now : ℤ)
  | fill (now : ℤ) (orderId : String) (price quantity : JsNumber)
  | open (now : ℤ)
  | reduce (now : ℤ) (quantity price : JsNumber)
  | close (now : ℤ) (price : Option JsNumber)
  | cancel (now : ℤ) (reason : Option String)
  | reject (now : ℤ) (reason : Option String)
  | expire (now : ℤ)
  | fail (now : ℤ) (reason : Option String)
  | kill (now : ℤ)
  | runtimeUnhealthy (now : ℤ)
deriving DecidableEq, Repr

structure ExecutionResult where
  ok : Bool
  state : ExecutionState
  event : Option ExecutionEvent
  failure : Option ExecutionFailure
deriving DecidableEq, Repr

def ExecutionStatus.text : ExecutionStatus → String
  | .notCreated => "NOT_CREATED"
  | .planned => "PLANNED"
  | .ready => "READY"
  | .submitted => "SUBMITTED"
  | .acknowledged => "ACKNOWLEDGED"
  | .partiallyFilled => "PARTIALLY_FILLED"
  | .filled => "FILLED"
  | .opened => "OPEN"
  | .reducing => "REDUCING"
  | .closed => "CLOSED"
  | .rejected => "REJECTED"
  | .expired => "EXPIRED"
  | .cancelled => "CANCELLED"
  | .failed => "FAILED"

def OrderStatus.text : OrderStatus → String
  | .notCreated => "NOT_CREATED"
  | .planned => "PLANNED"
  | .ready => "READY"
  | .submitted => "SUBMITTED"
  | .acknowledged => "ACKNOWLEDGED"
  | .partiallyFilled => "PARTIALLY_FILLED"
  | .filled => "FILLED"
  | .cancelled => "CANCELLED"
  | .rejected => "REJECTED"
  | .expired => "EXPIRED"
  | .failed => "FAILED"

def OrderRole.text : OrderRole → String
  | .entry => "ENTRY"
  | .stop => "STOP"
  | .target => "TARGET"

def ExecutionFailureReason.text : ExecutionFailureReason → String
  | .noDecision => "NO_DECISION"
  | .noPlan => "NO_PLAN"
  | .blocked => "BLOCKED"
  | .missingEntry => "MISSING_ENTRY"
  | .missingStop => "MISSING_STOP"
  | .missingTarget => "MISSING_TARGET"
  | .missingReadiness => "MISSING_READINESS"
  | .notReady => "NOT_READY"
  | .killSwitch => "KILL_SWITCH"
  | .runtimeUnhealthy => "RUNTIME_UNHEALTHY"
  | .illegalTransition => "ILLEGAL_TRANSITION"
  | .validationFailed => "VALIDATION_FAILED"
  | .expired => "EXPIRED"
  | .cancelled => "CANCELLED"
  | .rejected => "REJECTED"
  | .failed => "FAILED"
  | .brokerUnavailable => "BROKER_UNAVAILABLE"
  | .unknown => "UNKNOWN"

/-! ## Identifiers (`util.ts`) -/

def makeIntentId (signalId : String) : String := "exec:" ++ signalId

def makePlanId (intentId : String) : String := intentId ++ ":plan"

/-- `toLowerCase` on the role names, which are plain ASCII. -/
def toLowerCase (s : String) : String := String.ofList (s.toList.map Char.toLower)

def makeOrderId (planId role : String) (index : ℕ) : String :=
  planId ++ (":ord:" ++ (toLowerCase role ++ (":" ++ toString index)))

def makeFillId (orderId : String) (fillSeq : ℕ) : String := orderId ++ ":fill:" ++ toString fillSeq

def makePositionId (intentId : String) : String := intentId ++ ":pos"

def makeEventId (intentId : String) (seq : ℕ) : String := intentId ++ ":evt:" ++ toString seq

end NexusQuant.ExecutionCore
