import NexusQuant.ExecutionCore.Reducer

/-!
# Execution adapter: contracts

`packages/execution-adapter/src`: the session and its events (`types.ts`, `events.ts`), the commands
(`commands.ts`), the runtime snapshot a submission is checked against (`runtime.ts`) and the session
bound to an execution of the core (`factory.ts`).  As in the core, clocks are injected integers.
-/

namespace NexusQuant.ExecutionAdapter

open ExecutionCore

inductive AdapterKind where
  | null | paper | live
deriving DecidableEq, Repr

inductive AdapterHealthStatus where
  | ready | degraded | shutdown | unavailable
deriving DecidableEq, Repr

/-- The reasons of the core, and those of the boundary itself. -/
inductive AdapterFailureReason where
  | core (reason : ExecutionFailureReason)
  | adapterShutdown | adapterUnavailable | notBound | notSubmitted | duplicateSubmit
  | missingOrderIds | missingTimestamps | unknownOrder | terminal | unsupportedOperation
deriving DecidableEq, Repr

def AdapterFailureReason.text : AdapterFailureReason → String
  | .core reason => reason.text
  | .adapterShutdown => "ADAPTER_SHUTDOWN"
  | .adapterUnavailable => "ADAPTER_UNAVAILABLE"
  | .notBound => "NOT_BOUND"
  | .notSubmitted => "NOT_SUBMITTED"
  | .duplicateSubmit => "DUPLICATE_SUBMIT"
  | .missingOrderIds => "MISSING_ORDER_IDS"
  | .missingTimestamps => "MISSING_TIMESTAMPS"
  | .unknownOrder => "UNKNOWN_ORDER"
  | .terminal => "TERMINAL"
  | .unsupportedOperation => "UNSUPPORTED_OPERATION"

structure AdapterError where
  reason : AdapterFailureReason
  message : String
  «at» : ℤ
  fatal : Bool
deriving DecidableEq, Repr

/-! ## Events -/

inductive AdapterEventType where
  | submitted | acknowledged | partialFill | filled | cancelled | failed | expired | rejected
deriving DecidableEq, Repr

structure AdapterEvent where
  eventId : String
  seq : ℕ
  adapter : AdapterKind
  intentId : String
  orderId : Option String
  type : AdapterEventType
  mode : ExecutionMode
  venue : ExecutionVenue
  reason : String
  provenance : ExecutionProvenance
  ts : ℤ
deriving DecidableEq, Repr

def adapterEventId (intentId : String) (seq : ℕ) : String :=
  "adapter:" ++ intentId ++ ":evt:" ++ toString seq

/-- What a transition of the core looks like at the venue, if it shows there at all. -/
def mapCoreEventType : ExecutionEventType → Option AdapterEventType
  | .submitted => some .submitted
  | .acknowledged => some .acknowledged
  | .partiallyFilled => some .partialFill
  | .filled => some .filled
  | .reduced => some .partialFill
  | .closed => some .filled
  | .cancelled | .killed => some .cancelled
  | .rejected | .rejectedTransition => some .rejected
  | .expired => some .expired
  | .failed => some .failed
  | .planned | .armed | .opened => none

/-! ## Commands -/

inductive RuntimeState where
  | healthy | degraded | unhealthy | unknown
deriving DecidableEq, Repr

structure RuntimeContext where
  state : RuntimeState
  killEngaged : Bool
  clock : ℤ
deriving DecidableEq, Repr

/-- The first operational gate that blocks an execution. -/
def runtimeBlockReason (ctx : RuntimeContext) : Option ExecutionFailureReason :=
  if ctx.killEngaged then some .killSwitch
  else if ctx.state ≠ .healthy then some .runtimeUnhealthy
  else none

/-- The calls of the adapter; the first argument of each is its clock `at`. -/
inductive AdapterCommand where
  | submit (now : ℤ) (runtime : RuntimeContext)
  | acknowledge (now : ℤ)
  | fill (now : ℤ) (orderId : String) (price quantity : JsNumber)
  | cancel (now : ℤ) (orderId : String) (reason : Option String)
  | cancelAll (now : ℤ) (reason : Option String)
  | replace (now : ℤ) (orderId : String) (reason : Option String)
  | shutdown (now : ℤ) (reason : Option String)
deriving DecidableEq, Repr

/-! ## Sessions -/

structure AdapterSession where
  adapter : AdapterKind
  mode : ExecutionMode
  venue : ExecutionVenue
  status : AdapterHealthStatus
  intentId : Option String
  core : Option ExecutionState
  events : List AdapterEvent
  seq : ℕ
  submitted : Bool
  createdAt : ℤ
  updatedAt : ℤ
  clock : ℤ
deriving DecidableEq, Repr

structure AdapterResult where
  ok : Bool
  session : AdapterSession
  events : List AdapterEvent
  error : Option AdapterError
deriving DecidableEq, Repr

/-- `HEALTH_FOR_KIND`. -/
def healthForKind : AdapterKind → AdapterHealthStatus
  | .paper => .ready
  | .null => .unavailable
  | .live => .unavailable

structure CreateSessionOptions where
  now : Option ℤ := none
  mode : Option ExecutionMode := none
  venue : Option ExecutionVenue := none

def createSession (kind : AdapterKind) (core : ExecutionState) (opts : CreateSessionOptions) :
    AdapterSession :=
  let now := opts.now.getD core.createdAt
  { adapter := kind
    mode := opts.mode.getD core.mode
    venue := opts.venue.getD core.venue
    status := healthForKind kind
    intentId := some core.intentId
    core := some core
    events := []
    seq := 0
    submitted := false
    createdAt := now
    updatedAt := now
    clock := now }

end NexusQuant.ExecutionAdapter
