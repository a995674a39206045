import NexusQuant.Execution.Allocation
import NexusQuant.Signal.Engine

/-!
# The decision layer

`execution/strategy.ts`, the strategies and their registry, and `execution/decide.ts`: a versioned
strategy turns an observation into an intent, and the two make a decision event with its lineage.
-/

namespace NexusQuant.Pipeline

open Execution (DecisionAction)
open Signal (GeneratedSignal)

structure DecisionIntent where
  action : DecisionAction
  side : SignalDecision
  confidence : String
  rationale : String
deriving DecidableEq, Repr

/-- A strategy.  Its contract makes it a function of the observation: the context it is handed, the
id of the tick, does not change what it decides. -/
structure Strategy where
  id : String
  version : ℤ
  decide : GeneratedSignal → Option String → DecisionIntent
  replayable : ∀ observation ctx ctx', decide observation ctx = decide observation ctx'

/-! ## The floor strategies (`strategies/`) -/

/-- The number a confidence denotes, zero where it denotes none. -/
def parseConfidence (confidence : String) : ℚ := (DecimalText.number? confidence).getD 0

def decisionText : SignalDecision → String
  | .long => "LONG"
  | .short => "SHORT"
  | .flat => "FLAT"

def deriveFloorIntent (observation : GeneratedSignal) (floor : ℚ) : DecisionIntent :=
  let confidence := observation.confidence
  let edge := decisionText observation.decision
  if observation.decision = .flat then
    ⟨.standAside, observation.side, confidence,
      "observation FLAT (no directional edge) — stand aside"⟩
  else if floor ≤ parseConfidence confidence then
    ⟨.enter, observation.side, confidence, edge ++ " edge with conviction " ++ confidence ++
      " >= floor " ++ DecimalText.toFixed 4 floor ++ " — enter"⟩
  else
    ⟨.hold, observation.side, confidence, edge ++ " edge but conviction " ++ confidence ++
      " < floor " ++ DecimalText.toFixed 4 floor ++ " — hold"⟩

def StrategyV1 : Strategy where
  id := "core-technical"
  version := 1
  decide observation _ := deriveFloorIntent observation (1 / 10)
  replayable _ _ _ := rfl

def StrategyV2 : Strategy where
  id := "core-technical"
  version := 2
  decide observation _ := deriveFloorIntent observation (1 / 4)
  replayable _ _ _ := rfl

structure StrategyRegistry where
  byKey : Dict Strategy
  fallback : Strategy

def StrategyRegistry.resolve (registry : StrategyRegistry) (key : String) : Strategy :=
  (registry.byKey.get? key).getD registry.fallback

def defaultStrategyRegistry : StrategyRegistry where
  byKey := [("core-technical@v1", StrategyV1), ("core-technical@v2", StrategyV2)]
  fallback := StrategyV1

/-! ## Decision events (`decide.ts`) -/

inductive PlanStatus where
  | pending | skipped
deriving DecidableEq, Repr

structure ExecutionPlan where
  status : PlanStatus
  detail : String
deriving DecidableEq, Repr

structure DecisionLineage where
  tickId : Option String
  strategyVersionId : String
  featureSnapshotId : String
  dqReportId : String
  datasetHash : String
  featureHash : String
  executionStrategyId : String
  executionStrategyVersion : ℤ
deriving DecidableEq, Repr

structure DecisionEvent where
  signal : GeneratedSignal
  decision : DecisionIntent
  execution : ExecutionPlan
  lineage : DecisionLineage
deriving DecidableEq, Repr

def actionText : DecisionAction → String
  | .enter => "ENTER"
  | .hold => "HOLD"
  | .standAside => "STAND_ASIDE"

def executionFor (action : DecisionAction) : ExecutionPlan :=
  if action = .enter then ⟨.pending, "execution hook reserved (no router wired in Phase 4)"⟩
  else ⟨.skipped, "intent " ++ actionText action ++ " — nothing to execute"⟩

def deriveDecisionEvent (observation : GeneratedSignal) (strategy : Strategy)
    (tickId : Option String) : DecisionEvent :=
  let decision := strategy.decide observation tickId
  { signal := observation
    decision
    execution := executionFor decision.action
    lineage :=
      { tickId
        strategyVersionId := observation.strategyVersionId
        featureSnapshotId := observation.featureSnapshotId
        dqReportId := observation.dqReportId
        datasetHash := observation.datasetHash
        featureHash := observation.featureHash
        executionStrategyId := strategy.id
        executionStrategyVersion := strategy.version } }

/-- An event without the id of its tick. -/
def DecisionEvent.untick (e : DecisionEvent) : DecisionEvent :=
  { e with lineage := { e.lineage with tickId := none } }

theorem untick_deriveDecisionEvent (observation : GeneratedSignal) (strategy : Strategy)
    (tickId : Option String) :
    (deriveDecisionEvent observation strategy tickId).untick =
      deriveDecisionEvent observation strategy none := by
  unfold deriveDecisionEvent DecisionEvent.untick
  rw [strategy.replayable observation tickId none]

end NexusQuant.Pipeline
