import NexusQuant.ExecutionAdapter.Types

/-!
# The paper adapter

The helpers of `adapter.ts` that drive the core and emit events, the gates of `validation.ts` and
the operations of `paper.ts`.  An operation runs one to three commands of the core reducer; ARM
before a submission and OPEN after a filled entry run silently.
-/

namespace NexusQuant.ExecutionAdapter

open ExecutionCore

/-! ## Driving the core -/

/-- A rejection that leaves the session as it is. -/
def fail (session : AdapterSession) (reason : AdapterFailureReason) (message : String) (now : ℤ)
    (fatal : Bool) : AdapterResult :=
  ⟨false, session, [], some ⟨reason, message, now, fatal⟩⟩

structure EmitArgs where
  orderId : Option String
  type : AdapterEventType
  reason : String
  provenance : ExecutionProvenance
  ts : ℤ

/-- `makeAdapterEvent` on what `emit` passes to it. -/
def makeAdapterEvent (session : AdapterSession) (a : EmitArgs) : AdapterEvent :=
  let intentId := (session.intentId.or (session.core.map (·.intentId))).getD "unbound"
  let seq := session.seq + 1
  { eventId := adapterEventId intentId seq
    seq
    adapter := session.adapter
    intentId
    orderId := a.orderId
    type := a.type
    mode := session.mode
    venue := session.venue
    reason := a.reason
    provenance := a.provenance
    ts := a.ts }

def emit (session : AdapterSession) (a : EmitArgs) : AdapterSession × AdapterEvent :=
  let event := makeAdapterEvent session a
  ({ session with
      events := session.events ++ [event]
      seq := session.seq + 1
      updatedAt := a.ts
      clock := a.ts }, event)

/-- `advanceExecution`. -/
def advanceExecution (state : ExecutionState) (command : ExecutionCommand) : ExecutionResult :=
  reduceExecution state command

def coreError (result : ExecutionResult) (now : ℤ) : AdapterError where
  reason := .core ((result.failure.map (·.reason)).getD .validationFailed)
  message := (result.failure.map (·.message)).getD "core rejected transition"
  «at» := now
  fatal := (result.failure.map (·.fatal)).getD false

def notBoundError (now : ℤ) : AdapterError := ⟨.notBound, "no core state", now, false⟩

/-- The session over the next state of the core. -/
def AdapterSession.advanced (session : AdapterSession) (core : ExecutionState) (now : ℤ) :
    AdapterSession :=
  { session with core := some core, updatedAt := now, clock := now }

structure Driven where
  ok : Bool
  session : AdapterSession
  events : List AdapterEvent
  error : Option AdapterError

def driveSilent (session : AdapterSession) (command : ExecutionCommand) : Driven :=
  match session.core with
  | none => ⟨false, session, [], some (notBoundError command.now)⟩
  | some core =>
      let result := advanceExecution core command
      if result.ok = false then ⟨false, session, [], some (coreError result command.now)⟩
      else ⟨true, session.advanced result.state command.now, [], none⟩

/-- The order an event is tagged with: the one the caller gives (`some none` stands for an explicit
`null`), else the order the core event is about. -/
def taggedOrder (override : Option (Option String)) (event : ExecutionEvent) : Option String :=
  override.getD (if event.entity = .order then some event.entityId else none)

def driveAndEmit (session : AdapterSession) (command : ExecutionCommand)
    (orderIdOverride : Option (Option String)) : Driven :=
  match session.core with
  | none => ⟨false, session, [], some (notBoundError command.now)⟩
  | some core =>
      let result := advanceExecution core command
      if result.ok = false then ⟨false, session, [], some (coreError result command.now)⟩
      else
        let next := session.advanced result.state command.now
        match result.event with
        | none => ⟨true, next, [], none⟩
        | some event =>
            match mapCoreEventType event.type with
            -- A core event without a counterpart at a venue is silent.
            | none => ⟨true, next, [], none⟩
            | some type =>
                let out := emit next
                  { orderId := taggedOrder orderIdOverride event
                    type
                    reason := event.reason
                    provenance := event.provenance
                    ts := command.now }
                ⟨true, out.1, [out.2], none⟩

def toResult (o : Driven) : AdapterResult :=
  if o.ok then ⟨true, o.session, o.events, none⟩ else ⟨false, o.session, [], o.error⟩

/-! ## Gates -/

def shutdownReason (session : AdapterSession) : Option AdapterFailureReason :=
  if session.status = .shutdown then some .adapterShutdown else none

/-- `Number.isFinite` on a clock. -/
def isFiniteClock (now : ℤ) : Bool := (JsNumber.fin now).isFinite

def planIntegrityReason (plan : ExecutionPlan) : Option AdapterFailureReason :=
  if isFiniteClock plan.createdAt = false then some .missingTimestamps
  else plan.orders.findSome? fun o =>
    if o.orderId = "" then some .missingOrderIds
    else if isFiniteClock o.createdAt = false ∨ isFiniteClock o.updatedAt = false then
      some .missingTimestamps
    else none

/-- The checks every gate starts with: not shut down, bound, not terminal.  What is left to check
reads the bound state. -/
def validateBound (session : AdapterSession)
    (rest : ExecutionState → Option AdapterFailureReason) : Option AdapterFailureReason :=
  (shutdownReason session).or <|
    match session.core with
    | none => some .notBound
    | some state => if isTerminal state.status then some .terminal else rest state

def validateSubmit (session : AdapterSession) (runtime : RuntimeContext) :
    Option AdapterFailureReason :=
  validateBound session fun state =>
    if session.submitted then some .duplicateSubmit
    else match runtimeBlockReason runtime with
      | some reason => some (.core reason)
      | none =>
          match state.plan with
          | none => some (.core .noPlan)
          | some plan =>
              if plan.submittable = false then
                some (.core (plan.blockedReason.getD .validationFailed))
              else planIntegrityReason plan

def validateAcknowledge (session : AdapterSession) : Option AdapterFailureReason :=
  validateBound session fun _ => if session.submitted = false then some .notSubmitted else none

/-- The order a command refers to is none of the bound execution. -/
def unknownOrder (state : ExecutionState) (orderId : String) : Bool :=
  orderId = "" ∨ state.orders.all fun o => o.orderId ≠ orderId

def validateFill (session : AdapterSession) (orderId : String) (price quantity : JsNumber) :
    Option AdapterFailureReason :=
  validateBound session fun state =>
    if session.submitted = false then some .notSubmitted
    else if unknownOrder state orderId then some .unknownOrder
    else if price.isFinite = false ∨ quantity.isFinite = false ∨ JsNumber.le quantity (.fin 0) then
      some (.core .validationFailed)
    else none

def validateCancel (session : AdapterSession) (orderId : String) : Option AdapterFailureReason :=
  validateBound session fun state =>
    if unknownOrder state orderId then some .unknownOrder else none

def validateCancelAll (session : AdapterSession) : Option AdapterFailureReason :=
  validateBound session fun _ => none

/-! ## Operations -/

/-- A stop that is driven into the core before the failure is reported. -/
def failClosed (session : AdapterSession) (command : ExecutionCommand)
    (reason : ExecutionFailureReason) (message : String) (fatal : Bool) : AdapterResult :=
  let driven := driveAndEmit session command none
  ⟨false, driven.session, driven.events, some ⟨.core reason, message, command.now, fatal⟩⟩

def submit (session : AdapterSession) (now : ℤ) (runtime : RuntimeContext) : AdapterResult :=
  match validateSubmit session runtime with
  | some (.core .killSwitch) =>
      failClosed session (.kill now) .killSwitch "kill switch engaged → execution cancelled" false
  | some (.core .runtimeUnhealthy) =>
      failClosed session (.runtimeUnhealthy now) .runtimeUnhealthy
        "runtime unhealthy → execution failed" true
  | some reason =>
      fail session reason ("submit rejected: " ++ reason.text) now (reason = .terminal)
  | none =>
      -- READY is internal to the core: the venue sees the submission only.
      let armed := driveSilent session (.arm now)
      if armed.ok = false then ⟨false, session, [], armed.error⟩
      else
        let submitted := driveAndEmit armed.session (.submit now) none
        -- The session that was armed is dropped with the failure.
        if submitted.ok = false then ⟨false, session, [], submitted.error⟩
        else toResult { submitted with session := { submitted.session with submitted := true } }

def acknowledge (session : AdapterSession) (now : ℤ) : AdapterResult :=
  match validateAcknowledge session with
  | some reason =>
      fail session reason ("acknowledge rejected: " ++ reason.text) now (reason = .terminal)
  | none => toResult (driveAndEmit session (.acknowledge now) none)

/-- A filled entry opens its position; if the core refuses that, the session stays at the fill. -/
def openIfFilled (session : AdapterSession) (now : ℤ) : AdapterSession :=
  match session.core with
  | none => session
  | some core =>
      if core.status = .filled then
        let opened := driveSilent session (.open now)
        if opened.ok then opened.session else session
      else session

def fill (session : AdapterSession) (now : ℤ) (orderId : String) (price quantity : JsNumber) :
    AdapterResult :=
  match validateFill session orderId price quantity with
  | some reason => fail session reason ("fill rejected: " ++ reason.text) now false
  | none =>
      let filled := driveAndEmit session (.fill now orderId price quantity) (some (some orderId))
      if filled.ok = false then ⟨false, session, [], filled.error⟩
      else toResult ⟨true, openIfFilled filled.session now, filled.events, none⟩

def cancel (session : AdapterSession) (now : ℤ) (orderId : String) (reason : Option String) :
    AdapterResult :=
  match validateCancel session orderId with
  | some why => fail session why ("cancel rejected: " ++ why.text) now (why = .terminal)
  | none =>
      let reason := reason.getD ("cancel requested for " ++ orderId ++ " → execution-scoped cancel")
      toResult (driveAndEmit session (.cancel now (some reason)) (some none))

def cancelAll (session : AdapterSession) (now : ℤ) (reason : Option String) : AdapterResult :=
  match validateCancelAll session with
  | some why => fail session why ("cancelAll rejected: " ++ why.text) now (why = .terminal)
  | none =>
      toResult (driveAndEmit session (.cancel now (some (reason.getD "all orders cancelled")))
        (some none))

def replace (session : AdapterSession) (now : ℤ) : AdapterResult :=
  fail session .unsupportedOperation
    "replace requires a live broker adapter — unavailable in the paper foundation" now false

/-- The cancellation of a live execution that is part of a shutdown. -/
def cancelIfLive (session : AdapterSession) (now : ℤ) (reason : Option String) :
    AdapterSession × List AdapterEvent :=
  match session.core with
  | none => (session, [])
  | some core =>
      if core.lifecycle.terminal = false then
        let cancelled := driveAndEmit session
          (.cancel now (some (reason.getD "adapter shutdown"))) (some none)
        if cancelled.ok then (cancelled.session, cancelled.events) else (session, [])
      else (session, [])

def shutdown (session : AdapterSession) (now : ℤ) (reason : Option String) : AdapterResult :=
  if session.status = .shutdown then toResult ⟨true, session, [], none⟩
  else
    let next := cancelIfLive session now reason
    toResult ⟨true, { next.1 with status := .shutdown, updatedAt := now, clock := now }, next.2, none⟩

/-- One call of the paper adapter. -/
def paperCall (session : AdapterSession) : AdapterCommand → AdapterResult
  | .submit now runtime => submit session now runtime
  | .acknowledge now => acknowledge session now
  | .fill now orderId price quantity => fill session now orderId price quantity
  | .cancel now orderId reason => cancel session now orderId reason
  | .cancelAll now reason => cancelAll session now reason
  | .replace now _ _ => replace session now
  | .shutdown now reason => shutdown session now reason

end NexusQuant.ExecutionAdapter
