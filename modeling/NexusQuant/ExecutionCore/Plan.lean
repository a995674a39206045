import NexusQuant.ExecutionCore.Orders

/-!
# Intent, submit gate and plan

`intent.ts` projects a served decision and trade plan into an execution intent, `validation.ts` is
the submit gate, and `plan.ts` derives the order set: one entry, one stop and one limit order for each
target, the position size being split over the targets.
-/

namespace NexusQuant.ExecutionCore

open Rounding TradingDecision TradingPlan

/-! ## Submit gate (`validation.ts`) -/

def checkSubmittable (intent : ExecutionIntent) : Option ExecutionFailureReason :=
  if intent.action = .noTrade ∨ intent.canTrade = false ∨ intent.shouldTrade = false then
    some .blocked
  else if intent.readinessScore = none ∨ intent.readinessBand = none then some .missingReadiness
  else if intent.entry = none then some .missingEntry
  else if intent.stop = none then some .missingStop
  else if intent.targets.length = 0 then some .missingTarget
  else none

/-! ## Intent (`intent.ts`) -/

structure BuildIntentOptions where
  now : ℤ
  mode : Option ExecutionMode := none
  venue : Option ExecutionVenue := none

def collectTargets (d : Decision) : List ℚ :=
  [mv d.takeProfit1, mv d.takeProfit2, mv d.takeProfit3].filterMap id

def levelProvenance (m : Measure) : ExecutionProvenance :=
  if mv m = none then .unavailable else .verbatim

def buildExecutionIntent (decision : Decision) (plan : TradePlan) (opts : BuildIntentOptions) :
    ExecutionIntent :=
  let targets := collectTargets decision
  let level (m : Measure) : Option JsNumber := (mv m).map .fin
  let readinessScore : Option JsNumber :=
    if plan.readiness.score.isFinite then some plan.readiness.score else none
  -- A plan made for another signal is noted, not refused.
  let mismatch :=
    if plan.signalId ≠ decision.signalId then
      ["plan/decision signal mismatch (plan=" ++ plan.signalId ++ ", decision=" ++
        decision.signalId ++ ")"]
    else []
  { intentId := makeIntentId decision.signalId
    signalId := decision.signalId
    symbol := decision.symbol
    timeframe := decision.timeframe
    direction := decision.direction
    confidence := if decision.confidence.isFinite then decision.confidence else .fin 0
    entry := level decision.entryPrice
    stop := level decision.stopLoss
    targets := targets.map .fin
    riskReward := level decision.riskRewardRatio
    stopDistancePct := level decision.stopDistancePct
    positionSize := level decision.positionSize
    positionNotional := level decision.positionNotional
    capitalRiskPercent := level decision.capitalRiskPercent
    assumedEquity := decision.assumedEquity
    action := plan.summary.action
    canTrade := plan.summary.canTrade
    shouldTrade := plan.summary.shouldTrade
    readinessScore
    readinessBand := readinessScore.map fun _ => plan.readiness.band
    featureHash := decision.featureHash
    datasetHash := decision.datasetHash
    strategyVersionId := decision.strategyVersionId
    mode := opts.mode.getD .simulation
    venue := opts.venue.getD .unset
    provenance :=
      [("direction", .verbatim), ("confidence", .verbatim),
        ("entry", levelProvenance decision.entryPrice),
        ("stop", levelProvenance decision.stopLoss),
        ("targets", if 0 < targets.length then .verbatim else .unavailable),
        ("riskReward", levelProvenance decision.riskRewardRatio),
        ("sizing", levelProvenance decision.positionSize), ("action", .verbatim),
        ("readiness", if readinessScore = none then .unavailable else .verbatim),
        ("lineage", .verbatim)]
    notes := mismatch ++ decision.provenanceNotes
    createdAt := opts.now }

/-! ## Plan (`plan.ts`) -/

/-- `n` parts of a total: all equal but the last, which takes the remainder. -/
def splitQuantity (total : Option ℚ) (n : ℕ) : List (Option ℚ) :=
  if n = 0 then []
  else match total with
    | none => List.replicate n none
    | some t =>
        let per := roundTo 8 (t / n)
        -- Where the equal parts are rounded up, what is left for the last can fall below zero.
        List.replicate (n - 1) (some per) ++ [some (roundTo 8 (t - per * (n - 1 : ℕ)))]

/-- The order of one role of the plan, with the values every order of a plan shares. -/
def planOrder (intent : ExecutionIntent) (name : String) (index : ℕ) (role : OrderRole)
    (type : OrderType) (price : Option JsNumber) (quantity : Option ℚ) : ExecutionOrder :=
  let planId := makePlanId intent.intentId
  makeOrder
    { orderId := makeOrderId planId name index
      planId
      intentId := intent.intentId
      symbol := intent.symbol
      direction := intent.direction
      role
      type
      price
      quantity
      now := intent.createdAt }

def buildOrders (intent : ExecutionIntent) : List ExecutionOrder :=
  let totalQuantity := num intent.positionSize
  let parts := splitQuantity totalQuantity intent.targets.length
  -- The stop covers the whole quantity, each target its part.
  planOrder intent "entry" 0 .entry .limit intent.entry totalQuantity ::
  planOrder intent "stop" 1 .stop .stop intent.stop totalQuantity ::
  intent.targets.mapIdx fun i target =>
    planOrder intent "target" (i + 2) .target .limit (some target) ((parts[i]?).getD none)

def buildExecutionPlan (intent : ExecutionIntent) : ExecutionPlan :=
  let blockedReason := checkSubmittable intent
  { planId := makePlanId intent.intentId
    intentId := intent.intentId
    signalId := intent.signalId
    symbol := intent.symbol
    direction := intent.direction
    mode := intent.mode
    venue := intent.venue
    orders := buildOrders intent
    totalQuantity := num intent.positionSize
    submittable := decide (blockedReason = none)
    blockedReason
    provenance := .derived
    notes := intent.notes ++
      (match blockedReason with
        | some r => ["not submittable: " ++ r.text]
        | none => [])
    createdAt := intent.createdAt }

/-- A submittable long intent of three units with three targets, for tests. -/
def sampleIntent : ExecutionIntent where
  intentId := "exec:sig-1"
  signalId := "sig-1"
  symbol := "BTC-PERP"
  timeframe := .m5
  direction := .long
  confidence := .fin (4 / 5)
  entry := some (.fin 100)
  stop := some (.fin 98)
  targets := [.fin 102, .fin 104, .fin 106]
  riskReward := some (.fin 1)
  stopDistancePct := some (.fin (2 / 100))
  positionSize := some (.fin 3)
  positionNotional := some (.fin 300)
  capitalRiskPercent := some (.fin (6 / 10))
  assumedEquity := .fin 1000
  action := .buy
  canTrade := true
  shouldTrade := true
  readinessScore := some (.fin 80)
  readinessBand := some .ready
  featureHash := "fh"
  datasetHash := "dh"
  strategyVersionId := "sv-1"
  mode := .simulation
  venue := .unset
  provenance := []
  notes := []
  createdAt := 0

end NexusQuant.ExecutionCore
