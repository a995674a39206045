import NexusQuant.ExecutionCore.Plan
import NexusQuant.Lib.Run

/-!
# The execution reducer

`state.ts`: the top-level transition table, `commit` and `reject`, and `reduceExecution` with every
command.  `Accepted` says once what an accepted command does to the four books of a state (status,
orders, fills, position), guards included; `reduceExecution_cases` derives it from the reducer and
every later invariant splits on it.
-/

namespace NexusQuant.ExecutionCore

open Rounding

/-! ## The state machine -/

/-- `EXEC_TRANSITIONS`. -/
def execTransitions : ExecutionStatus → List ExecutionStatus
  | .notCreated => [.planned, .rejected, .cancelled, .failed]
  | .planned => [.ready, .rejected, .expired, .cancelled, .failed]
  | .ready => [.submitted, .rejected, .expired, .cancelled, .failed]
  | .submitted => [.acknowledged, .rejected, .expired, .cancelled, .failed]
  | .acknowledged => [.partiallyFilled, .filled, .rejected, .expired, .cancelled, .failed]
  | .partiallyFilled => [.partiallyFilled, .filled, .cancelled, .failed]
  | .filled => [.opened, .cancelled, .failed]
  | .opened => [.reducing, .closed, .cancelled, .failed]
  | .reducing => [.reducing, .opened, .closed, .cancelled, .failed]
  | .closed => []
  | .rejected => []
  | .expired => []
  | .cancelled => []
  | .failed => []

/-- Membership in `TERMINAL_STATUSES`. -/
def isTerminal : ExecutionStatus → Bool
  | .closed | .rejected | .expired | .cancelled | .failed => true
  | _ => false

def canTransition (src dst : ExecutionStatus) : Bool := (execTransitions src).contains dst

def emptyAudit (intentId : String) : ExecutionAudit := ⟨intentId, [], 0⟩

def appendEvent (audit : ExecutionAudit) (event : ExecutionEvent) : ExecutionAudit :=
  let events := audit.events ++ [event]
  { audit with events, count := events.length }

def initExecutionState (intent : ExecutionIntent) (plan : Option ExecutionPlan) :
    ExecutionState where
  intentId := intent.intentId
  signalId := intent.signalId
  symbol := intent.symbol
  status := .notCreated
  mode := intent.mode
  venue := intent.venue
  intent := intent
  plan := plan
  orders := (plan.map (·.orders)).getD []
  fills := []
  position := some (emptyPosition intent)
  lifecycle := { current := .notCreated, history := [.notCreated], terminal := false }
  audit := emptyAudit intent.intentId
  failure := none
  seq := 0
  clock := intent.createdAt
  createdAt := intent.createdAt
  updatedAt := intent.createdAt

/-- `Commit`: the optional patches are `none` where the source leaves the field out. -/
structure Commit where
  status : ExecutionStatus
  type : ExecutionEventType
  entity : ExecutionEntity
  entityId : String
  source : ExecutionSource
  provenance : ExecutionProvenance
  reason : String
  «at» : ℤ
  orders : Option (List ExecutionOrder) := none
  fills : Option (List ExecutionFill) := none
  position : Option (Option ExecutionPosition) := none
  failure : Option ExecutionFailure := none

def commit (state : ExecutionState) (c : Commit) : ExecutionResult :=
  let seq := state.seq + 1
  -- The event is numbered from 1, one past the number of steps taken so far.
  let event : ExecutionEvent :=
    { eventId := makeEventId state.intentId seq
      seq
      intentId := state.intentId
      entity := c.entity
      entityId := c.entityId
      type := c.type
      previousStatus := some state.status
      newStatus := some c.status
      source := c.source
      provenance := c.provenance
      reason := c.reason
      ts := c.at }
  let next : ExecutionState :=
    { state with
      status := c.status
      orders := c.orders.getD state.orders
      fills := c.fills.getD state.fills
      position := c.position.getD state.position
      lifecycle :=
        { current := c.status
          history := state.lifecycle.history ++ [c.status]
          terminal := isTerminal c.status }
      audit := appendEvent state.audit event
      -- A step that reports no failure keeps the last one.
      failure := c.failure.or state.failure
      seq
      clock := c.at
      updatedAt := c.at }
  { ok := true, state := next, event := some event, failure := next.failure }

def reject (state : ExecutionState) (reason : ExecutionFailureReason) (message : String) (now : ℤ) :
    ExecutionResult where
  ok := false
  state := state
  event := none
  failure := some { reason, message, «at» := now, fatal := false }

def terminateOrders (orders : List ExecutionOrder) (dst : OrderStatus) (now : ℤ) :
    List ExecutionOrder :=
  orders.map fun o => transitionOrder o dst now

/-- KILL and CANCEL close an open position and leave any other one as it is. -/
def closeIfOpen (position : Option ExecutionPosition) (now : ℤ) : Option ExecutionPosition :=
  position.map fun p => if p.isOpen then closePosition p now else p

/-- The test `state.position && (OPEN || REDUCING)`. -/
def openPosition? (position : Option ExecutionPosition) : Option ExecutionPosition :=
  position.bind fun p => if p.isOpen then some p else none

def replaceOrder (orders : List ExecutionOrder) (order filled : ExecutionOrder) :
    List ExecutionOrder :=
  orders.map fun o => if o.orderId = order.orderId then filled else o

/-- The fill record of a fill command on `order`. -/
def fillRecord (state : ExecutionState) (order : ExecutionOrder) (price quantity : JsNumber)
    (now : ℤ) : ExecutionFill :=
  makeFill
    { order
      fillSeq := nextFillSeq state.fills order.orderId
      price
      quantity
      cumulativeQuantity := (applyFillToOrder order price quantity now).filledQuantity
      now }

/-- The status an entry fill moves the execution to. -/
def fillTarget (filled : ExecutionOrder) : ExecutionStatus :=
  if filled.status = .filled then .filled else .partiallyFilled

/-- The status a reduced position moves the execution to. -/
def reducedStatus (position : ExecutionPosition) : ExecutionStatus :=
  if position.status = .closed then .closed else .reducing

theorem fillTarget_cases (filled : ExecutionOrder) :
    fillTarget filled = .filled ∨ fillTarget filled = .partiallyFilled := by
  unfold fillTarget
  split
  · exact .inl rfl
  · exact .inr rfl

theorem reducedStatus_cases (position : ExecutionPosition) :
    reducedStatus position = .closed ∨ reducedStatus position = .reducing := by
  unfold reducedStatus
  split
  · exact .inl rfl
  · exact .inr rfl

def reduceFill (state : ExecutionState) (orderId : String) (price quantity : JsNumber) (now : ℤ) :
    ExecutionResult :=
  match state.orders.find? (fun o => o.orderId = orderId) with
  | none => reject state .validationFailed ("no order " ++ orderId) now
  | some order =>
      if JsNumber.le quantity (.fin 0) ∨ price.isFinite = false then
        reject state .validationFailed "fill needs a positive quantity and finite price" now
      else
        -- The order and the fill are built before any transition is checked: a refusal drops both.
        let filled := applyFillToOrder order price quantity now
        let orders := replaceOrder state.orders order filled
        let fills := state.fills ++ [fillRecord state order price quantity now]
        -- An entry fill leaves the position as it is: it opens with OPEN.
        if order.role = .entry then
          let target := fillTarget filled
          if canTransition state.status target = false then
            reject state .illegalTransition
              ("cannot " ++ target.text ++ " from " ++ state.status.text) now
          else
            commit state
              { status := target
                type := if target = .filled then .filled else .partiallyFilled
                entity := .order
                entityId := order.orderId
                source := .executionCore
                provenance := .derived
                reason :=
                  if target = .filled then "entry fully filled" else "entry partially filled"
                «at» := now
                orders := some orders
                fills := some fills }
        else
          -- A stop or target fill takes its quantity off the position; the other orders stay live.
          match openPosition? state.position with
          | none => reject state .illegalTransition "protective fill with no open position" now
          | some p =>
              let position := reducePosition p quantity now
              let status := reducedStatus position
              if canTransition state.status status = false then
                reject state .illegalTransition
                  ("cannot " ++ status.text ++ " from " ++ state.status.text) now
              else
                commit state
                  { status
                    type := if status = .closed then .closed else .reduced
                    entity := .position
                    entityId := position.positionId
                    source := .executionCore
                    provenance := .derived
                    reason :=
                      if status = .closed then order.role.text ++ " fill closed position"
                      else order.role.text ++ " fill reduced position"
                    «at» := now
                    orders := some orders
                    fills := some fills
                    position := some (some position) }

/-- The guard `!state.plan || !state.plan.submittable` of ARM and SUBMIT, with the reason it
rejects with. -/
def submitBlock (state : ExecutionState) : Option ExecutionFailureReason :=
  match state.plan with
  | none => some .noPlan
  | some plan => if plan.submittable then none else some (plan.blockedReason.getD .noPlan)

def ExecutionCommand.now : ExecutionCommand → ℤ
  | .plan now | .arm now | .submit now | .acknowledge now | .fill now _ _ _ | .open now
  | .reduce now _ _ | .close now _ | .cancel now _ | .reject now _ | .expire now | .fail now _
  | .kill now | .runtimeUnhealthy now => now

def ExecutionCommand.isKill : ExecutionCommand → Bool
  | .kill _ => true
  | _ => false

def illegal (state : ExecutionState) (verb : String) (now : ℤ) : ExecutionResult :=
  reject state .illegalTransition ("cannot " ++ verb ++ " from " ++ state.status.text) now

def reduceExecution (state : ExecutionState) (command : ExecutionCommand) : ExecutionResult :=
  if isTerminal state.status ∧ command.isKill = false then
    reject state .illegalTransition (state.status.text ++ " is terminal") command.now
  else match command with
  | .kill now =>
      if isTerminal state.status then
        reject state .illegalTransition (state.status.text ++ " is terminal") now
      else
        commit state
          { status := .cancelled
            type := .killed
            entity := .execution
            entityId := state.intentId
            source := .killSwitch
            provenance := .derived
            reason := "kill switch engaged → immediate CANCELLED"
            «at» := now
            orders := some (terminateOrders state.orders .cancelled now)
            position := some (closeIfOpen state.position now)
            failure := some ⟨.killSwitch, "kill switch engaged", now, false⟩ }
  | .runtimeUnhealthy now =>
      -- No transition is checked: every status that is not terminal may fail.
      commit state
        { status := .failed
          type := .failed
          entity := .execution
          entityId := state.intentId
          source := .runtime
          provenance := .derived
          reason := "runtime unhealthy → FAILED"
          «at» := now
          orders := some (terminateOrders state.orders .failed now)
          failure := some ⟨.runtimeUnhealthy, "runtime unhealthy", now, true⟩ }
  | .plan now =>
      if canTransition state.status .planned = false then illegal state "PLAN" now
      else match state.plan with
        | none => reject state .noPlan "no ExecutionPlan attached" now
        | some plan =>
            commit state
              { status := .planned
                type := .planned
                entity := .plan
                entityId := plan.planId
                source := .executionCore
                provenance := .derived
                reason := "execution planned from decision + trade plan"
                «at» := now }
  | .arm now =>
      if canTransition state.status .ready = false then illegal state "ARM" now
      else match submitBlock state with
        | some reason => reject state reason ("plan not submittable: " ++ reason.text) now
        | none =>
            commit state
              { status := .ready
                type := .armed
                entity := .execution
                entityId := state.intentId
                source := .executionCore
                provenance := .derived
                reason := "all fail-closed gates pass → READY"
                «at» := now
                orders := some (terminateOrders state.orders .ready now) }
  | .submit now =>
      if canTransition state.status .submitted = false then illegal state "SUBMIT" now
      else match submitBlock state with
        | some reason => reject state reason ("plan not submittable: " ++ reason.text) now
        | none =>
            commit state
              { status := .submitted
                type := .submitted
                entity := .execution
                entityId := state.intentId
                source := .executionCore
                provenance := .derived
                reason := "orders submitted"
                «at» := now
                orders := some (terminateOrders state.orders .submitted now) }
  | .acknowledge now =>
      if canTransition state.status .acknowledged = false then illegal state "ACKNOWLEDGE" now
      else
        commit state
          { status := .acknowledged
            type := .acknowledged
            entity := .execution
            entityId := state.intentId
            source := .executionCore
            provenance := .derived
            reason := "venue acknowledged orders"
            «at» := now
            orders := some (terminateOrders state.orders .acknowledged now) }
  | .fill now orderId price quantity =>
      reduceFill state orderId price quantity now
  | .open now =>
      if canTransition state.status .opened = false then illegal state "OPEN" now
      else match state.orders.find? (fun o => o.role = .entry) with
        | none => reject state .missingEntry "no filled entry to open a position" now
        | some entry =>
            if entry.filledQuantity ≤ 0 then
              reject state .missingEntry "no filled entry to open a position" now
            else
              -- The entry may be filled in part only: the position opens with what it got.
              let position := openPosition state.intent entry.filledQuantity entry.avgFillPrice now
              commit state
                { status := .opened
                  type := .opened
                  entity := .position
                  entityId := position.positionId
                  source := .executionCore
                  provenance := .derived
                  reason := "position opened from filled entry"
                  «at» := now
                  position := some (some position) }
  | .reduce now quantity _price =>
      if canTransition state.status .reducing = false then illegal state "REDUCE" now
      else match openPosition? state.position with
        | none => reject state .illegalTransition "no open position to reduce" now
        | some p =>
            let position := reducePosition p quantity now
            -- The guard was on REDUCING; a position reduced to nothing commits CLOSED instead.
            let status := reducedStatus position
            commit state
              { status
                type := if status = .closed then .closed else .reduced
                entity := .position
                entityId := position.positionId
                source := .executionCore
                provenance := .derived
                reason :=
                  if status = .closed then "position fully reduced → CLOSED"
                  else "position reduced"
                «at» := now
                position := some (some position) }
  | .close now _price =>
      if canTransition state.status .closed = false then illegal state "CLOSE" now
      else
        -- Unlike CANCEL and KILL, CLOSE closes a position that is not open too.
        let position := state.position.map fun p => closePosition p now
        commit state
          { status := .closed
            type := .closed
            entity := .position
            entityId := (position.map (·.positionId)).getD state.intentId
            source := .executionCore
            provenance := .derived
            reason := "position closed"
            «at» := now
            orders := some (terminateOrders state.orders .cancelled now)
            position := some position }
  | .cancel now reason =>
      if canTransition state.status .cancelled = false then illegal state "CANCEL" now
      else
        commit state
          { status := .cancelled
            type := .cancelled
            entity := .execution
            entityId := state.intentId
            source := .executionCore
            provenance := .derived
            reason := reason.getD "execution cancelled"
            «at» := now
            orders := some (terminateOrders state.orders .cancelled now)
            position := some (closeIfOpen state.position now)
            failure := some ⟨.cancelled, reason.getD "cancelled", now, false⟩ }
  | .reject now reason =>
      if canTransition state.status .rejected = false then illegal state "REJECT" now
      else
        commit state
          { status := .rejected
            type := .rejected
            entity := .execution
            entityId := state.intentId
            source := .executionCore
            provenance := .derived
            reason := reason.getD "execution rejected"
            «at» := now
            orders := some (terminateOrders state.orders .rejected now)
            failure := some ⟨.rejected, reason.getD "rejected", now, true⟩ }
  | .expire now =>
      if canTransition state.status .expired = false then illegal state "EXPIRE" now
      else
        commit state
          { status := .expired
            type := .expired
            entity := .execution
            entityId := state.intentId
            source := .executionCore
            provenance := .derived
            reason := "execution expired"
            «at» := now
            orders := some (terminateOrders state.orders .expired now)
            failure := some ⟨.expired, "expired", now, false⟩ }
  | .fail now reason =>
      if canTransition state.status .failed = false then illegal state "FAIL" now
      else
        commit state
          { status := .failed
            type := .failed
            entity := .execution
            entityId := state.intentId
            source := .executionCore
            provenance := .derived
            reason := reason.getD "execution failed"
            «at» := now
            orders := some (terminateOrders state.orders .failed now)
            failure := some ⟨.failed, reason.getD "failed", now, true⟩ }

/-! ## What an accepted command does -/

/-- The part of a state that the invariants of a run are about. -/
structure Books where
  status : ExecutionStatus
  orders : List ExecutionOrder
  fills : List ExecutionFill
  position : Option ExecutionPosition

def ExecutionState.books (s : ExecutionState) : Books :=
  ⟨s.status, s.orders, s.fills, s.position⟩

/-- The books after a command that the reducer accepts in `s`. -/
inductive Accepted (s : ExecutionState) : ExecutionCommand → Books → Prop
  | kill (now : ℤ) (hlive : isTerminal s.status = false) :
      Accepted s (.kill now)
        ⟨.cancelled, terminateOrders s.orders .cancelled now, s.fills, closeIfOpen s.position now⟩
  | runtimeUnhealthy (now : ℤ) (hlive : isTerminal s.status = false) :
      Accepted s (.runtimeUnhealthy now)
        ⟨.failed, terminateOrders s.orders .failed now, s.fills, s.position⟩
  | plan (now : ℤ) (hstatus : canTransition s.status .planned) :
      Accepted s (.plan now) ⟨.planned, s.orders, s.fills, s.position⟩
  | arm (now : ℤ) (hstatus : canTransition s.status .ready) (hgate : submitBlock s = none) :
      Accepted s (.arm now) ⟨.ready, terminateOrders s.orders .ready now, s.fills, s.position⟩
  | submit (now : ℤ) (hstatus : canTransition s.status .submitted) (hgate : submitBlock s = none) :
      Accepted s (.submit now)
        ⟨.submitted, terminateOrders s.orders .submitted now, s.fills, s.position⟩
  | acknowledge (now : ℤ) (hstatus : canTransition s.status .acknowledged) :
      Accepted s (.acknowledge now)
        ⟨.acknowledged, terminateOrders s.orders .acknowledged now, s.fills, s.position⟩
  | fillEntry (now : ℤ) (orderId : String) (price quantity : JsNumber) (order : ExecutionOrder)
      (hfind : s.orders.find? (fun o => o.orderId = orderId) = some order)
      (hrole : order.role = .entry) (hpos : JsNumber.le quantity (.fin 0) = false)
      (hprice : price.isFinite)
      (hstatus : canTransition s.status (fillTarget (applyFillToOrder order price quantity now))) :
      Accepted s (.fill now orderId price quantity)
        ⟨fillTarget (applyFillToOrder order price quantity now),
          replaceOrder s.orders order (applyFillToOrder order price quantity now),
          s.fills ++ [fillRecord s order price quantity now], s.position⟩
  | fillProtective (now : ℤ) (orderId : String) (price quantity : JsNumber)
      (order : ExecutionOrder) (p : ExecutionPosition)
      (hfind : s.orders.find? (fun o => o.orderId = orderId) = some order)
      (hrole : order.role ≠ .entry) (hpos : JsNumber.le quantity (.fin 0) = false)
      (hprice : price.isFinite)
      (hposition : s.position = some p) (hopen : p.isOpen)
      (hstatus : canTransition s.status (reducedStatus (reducePosition p quantity now))) :
      Accepted s (.fill now orderId price quantity)
        ⟨reducedStatus (reducePosition p quantity now),
          replaceOrder s.orders order (applyFillToOrder order price quantity now),
          s.fills ++ [fillRecord s order price quantity now],
          some (reducePosition p quantity now)⟩
  | open (now : ℤ) (entry : ExecutionOrder) (hstatus : canTransition s.status .opened)
      (hfind : s.orders.find? (fun o => o.role = .entry) = some entry)
      (hfilled : 0 < entry.filledQuantity) :
      Accepted s (.open now)
        ⟨.opened, s.orders, s.fills,
          some (openPosition s.intent entry.filledQuantity entry.avgFillPrice now)⟩
  | reduce (now : ℤ) (quantity price : JsNumber) (p : ExecutionPosition)
      (hstatus : canTransition s.status .reducing)
      (hposition : s.position = some p) (hopen : p.isOpen) :
      Accepted s (.reduce now quantity price)
        ⟨reducedStatus (reducePosition p quantity now), s.orders, s.fills, some (reducePosition p quantity now)⟩
  | close (now : ℤ) (price : Option JsNumber) (hstatus : canTransition s.status .closed) :
      Accepted s (.close now price)
        ⟨.closed, terminateOrders s.orders .cancelled now, s.fills,
          s.position.map fun p => closePosition p now⟩
  | cancel (now : ℤ) (reason : Option String) (hstatus : canTransition s.status .cancelled) :
      Accepted s (.cancel now reason)
        ⟨.cancelled, terminateOrders s.orders .cancelled now, s.fills, closeIfOpen s.position now⟩
  | reject (now : ℤ) (reason : Option String) (hstatus : canTransition s.status .rejected) :
      Accepted s (.reject now reason)
        ⟨.rejected, terminateOrders s.orders .rejected now, s.fills, s.position⟩
  | expire (now : ℤ) (hstatus : canTransition s.status .expired) :
      Accepted s (.expire now)
        ⟨.expired, terminateOrders s.orders .expired now, s.fills, s.position⟩
  | fail (now : ℤ) (reason : Option String) (hstatus : canTransition s.status .failed) :
      Accepted s (.fail now reason)
        ⟨.failed, terminateOrders s.orders .failed now, s.fills, s.position⟩

/-- The result `r` is either a rejection, or the commit of a transition that changes the books as
`Accepted` says. -/
def Outcome (s : ExecutionState) (c : ExecutionCommand) (r : ExecutionResult) : Prop :=
  (∃ why message now, r = reject s why message now) ∨
  ∃ k : Commit, r = commit s k ∧
    Accepted s c ⟨k.status, k.orders.getD s.orders, k.fills.getD s.fills,
      k.position.getD s.position⟩

theorem outcome_reject (s : ExecutionState) (c : ExecutionCommand) (why : ExecutionFailureReason)
    (message : String) (now : ℤ) : Outcome s c (reject s why message now) :=
  .inl ⟨why, message, now, rfl⟩

theorem outcome_commit {s : ExecutionState} {c : ExecutionCommand} {k : Commit}
    (h : Accepted s c ⟨k.status, k.orders.getD s.orders, k.fills.getD s.fills,
      k.position.getD s.position⟩) : Outcome s c (commit s k) :=
  .inr ⟨k, rfl, h⟩

theorem openPosition?_eq_some {position : Option ExecutionPosition} {p : ExecutionPosition}
    (h : openPosition? position = some p) : position = some p ∧ p.isOpen := by
  unfold openPosition? at h
  obtain ⟨p', hp', hif⟩ := Option.bind_eq_some_iff.mp h
  split at hif
  · rename_i hopen
    cases hif
    exact ⟨hp', hopen⟩
  · cases hif

theorem reduceFill_outcome (s : ExecutionState) (now : ℤ) (orderId : String)
    (price quantity : JsNumber) :
    Outcome s (.fill now orderId price quantity) (reduceFill s orderId price quantity now) := by
  unfold reduceFill
  split
  · exact outcome_reject _ _ _ _ _
  · rename_i order hfind
    split
    · exact outcome_reject _ _ _ _ _
    · rename_i hvalid
      -- What is left of the validation: the source rejects a quantity that is not positive or a
      -- price that is not finite.
      have hpos : JsNumber.le quantity (.fin 0) = false := by
        by_contra hle
        exact hvalid (.inl (by simpa using hle))
      have hprice : price.isFinite := by
        by_contra hfin
        exact hvalid (.inr (by simpa using hfin))
      split
      · rename_i hrole
        dsimp only
        split
        · exact outcome_reject _ _ _ _ _
        · rename_i hstatus
          exact outcome_commit (.fillEntry now orderId price quantity order hfind hrole hpos hprice
            (by simpa using hstatus))
      · rename_i hrole
        split
        · exact outcome_reject _ _ _ _ _
        · rename_i p hp
          obtain ⟨hposition, hopen⟩ := openPosition?_eq_some hp
          dsimp only
          split
          · exact outcome_reject _ _ _ _ _
          · rename_i hstatus
            exact outcome_commit (.fillProtective now orderId price quantity order p hfind hrole
              hpos hprice hposition hopen (by simpa using hstatus))

/-- What one command can do. -/
theorem reduceExecution_cases (s : ExecutionState) (c : ExecutionCommand) :
    Outcome s c (reduceExecution s c) := by
  unfold reduceExecution
  split
  · exact outcome_reject _ _ _ _ _
  · rename_i hguard
    -- Each command has its guards in the order of the source, and what passes them commits.
    cases c with
    | kill now =>
        dsimp only
        split
        · exact outcome_reject _ _ _ _ _
        · rename_i hlive
          exact outcome_commit (.kill now (by simpa using hlive))
    | runtimeUnhealthy now =>
        exact outcome_commit (.runtimeUnhealthy now (by simpa [ExecutionCommand.isKill] using hguard))
    | plan now =>
        dsimp only
        split
        · exact outcome_reject _ _ _ _ _
        · rename_i hstatus
          split
          · exact outcome_reject _ _ _ _ _
          · exact outcome_commit (.plan now (by simpa using hstatus))
    | arm now =>
        dsimp only
        split
        · exact outcome_reject _ _ _ _ _
        · rename_i hstatus
          split
          · exact outcome_reject _ _ _ _ _
          · rename_i hgate
            exact outcome_commit (.arm now (by simpa using hstatus) hgate)
    | submit now =>
        dsimp only
        split
        · exact outcome_reject _ _ _ _ _
        · rename_i hstatus
          split
          · exact outcome_reject _ _ _ _ _
          · rename_i hgate
            exact outcome_commit (.submit now (by simpa using hstatus) hgate)
    | acknowledge now =>
        dsimp only
        split
        · exact outcome_reject _ _ _ _ _
        · rename_i hstatus
          exact outcome_commit (.acknowledge now (by simpa using hstatus))
    | fill now orderId price quantity => exact reduceFill_outcome s now orderId price quantity
    | «open» now =>
        dsimp only
        split
        · exact outcome_reject _ _ _ _ _
        · rename_i hstatus
          split
          · exact outcome_reject _ _ _ _ _
          · rename_i entry hfind
            split
            · exact outcome_reject _ _ _ _ _
            · rename_i hfilled
              exact outcome_commit (.open now entry (by simpa using hstatus) hfind
                (not_le.mp hfilled))
    | reduce now quantity price =>
        dsimp only
        split
        · exact outcome_reject _ _ _ _ _
        · rename_i hstatus
          split
          · exact outcome_reject _ _ _ _ _
          · rename_i p hp
            obtain ⟨hposition, hopen⟩ := openPosition?_eq_some hp
            exact outcome_commit (.reduce now quantity price p (by simpa using hstatus) hposition
              hopen)
    | close now price =>
        dsimp only
        split
        · exact outcome_reject _ _ _ _ _
        · rename_i hstatus
          exact outcome_commit (.close now price (by simpa using hstatus))
    | cancel now reason =>
        dsimp only
        split
        · exact outcome_reject _ _ _ _ _
        · rename_i hstatus
          exact outcome_commit (.cancel now reason (by simpa using hstatus))
    | reject now reason =>
        dsimp only
        split
        · exact outcome_reject _ _ _ _ _
        · rename_i hstatus
          exact outcome_commit (.reject now reason (by simpa using hstatus))
    | expire now =>
        dsimp only
        split
        · exact outcome_reject _ _ _ _ _
        · rename_i hstatus
          exact outcome_commit (.expire now (by simpa using hstatus))
    | fail now reason =>
        dsimp only
        split
        · exact outcome_reject _ _ _ _ _
        · rename_i hstatus
          exact outcome_commit (.fail now reason (by simpa using hstatus))

/-- A rejected command leaves the state alone; an accepted one changes the books and keeps the intent
and the plan. -/
theorem reduceExecution_outcome (s : ExecutionState) (c : ExecutionCommand) :
    ((reduceExecution s c).ok = false ∧ (reduceExecution s c).state = s) ∨
    ((reduceExecution s c).ok = true ∧ Accepted s c (reduceExecution s c).state.books ∧
      (reduceExecution s c).state.intent = s.intent ∧ (reduceExecution s c).state.plan = s.plan) := by
  rcases reduceExecution_cases s c with ⟨why, message, now, hreject⟩ | ⟨k, hcommit, haccepted⟩
  · rw [hreject]
    exact .inl ⟨rfl, rfl⟩
  · rw [hcommit]
    exact .inr ⟨rfl, haccepted, rfl, rfl⟩

theorem mem_terminateOrders {orders : List ExecutionOrder} {dst : OrderStatus} {now : ℤ}
    {o : ExecutionOrder} (h : o ∈ terminateOrders orders dst now) :
    ∃ o' ∈ orders, o = transitionOrder o' dst now := by
  obtain ⟨o', ho', rfl⟩ := List.mem_map.mp h
  exact ⟨o', ho', rfl⟩

theorem mem_replaceOrder {orders : List ExecutionOrder} {order filled o : ExecutionOrder}
    (h : o ∈ replaceOrder orders order filled) :
    o = filled ∨ (o ∈ orders ∧ o.orderId ≠ order.orderId) := by
  obtain ⟨o', ho', heq⟩ := List.mem_map.mp h
  split at heq
  · exact .inl heq.symm
  · rename_i hne
    subst heq
    exact .inr ⟨ho', hne⟩

theorem mem_of_find_orderId {orders : List ExecutionOrder} {id : String} {order : ExecutionOrder}
    (h : orders.find? (fun o => o.orderId = id) = some order) :
    order ∈ orders ∧ order.orderId = id :=
  ⟨List.mem_of_find?_eq_some h, by simpa using List.find?_some h⟩

/-! ## Runs -/

/-- One command of a run; a rejected one leaves the state as it is. -/
def step (s : ExecutionState) (c : ExecutionCommand) : ExecutionState := (reduceExecution s c).state

/-- The state an execution starts in: the plan built from the intent, nothing done yet. -/
def start (intent : ExecutionIntent) : ExecutionState :=
  initExecutionState intent (some (buildExecutionPlan intent))

/-- An invariant of the books (which may mention the intent) is kept by every step as soon as every
accepted command keeps it. -/
theorem step_keeps (Inv : ExecutionIntent → Books → Prop) {s : ExecutionState}
    {c : ExecutionCommand} (hinv : Inv s.intent s.books)
    (haccepted : ∀ b, Accepted s c b → Inv s.intent b) :
    Inv (step s c).intent (step s c).books := by
  unfold step
  rcases reduceExecution_outcome s c with ⟨_, hsame⟩ | ⟨_, hacc, hintent, _⟩
  · rw [hsame]; exact hinv
  · rw [hintent]; exact haccepted _ hacc

end NexusQuant.ExecutionCore
