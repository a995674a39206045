import NexusQuant.Control.ExecutionGate
import NexusQuant.Control.Plane
import NexusQuant.Execution.HardCaps
import NexusQuant.Risk.ExecutionGate

/-!
# The armed worker

`services/workers/src/index.ts` with an execution stage: the tick loop, the control plane that is
evaluated before each tick, and the hooks composed in front of the stage.  A tick is cut where it waits:
at the read of the kill switch and at the calls that follow a clearance.  Between two such points the
operators' commands go on at the database.

`executed`, `riskJournal` and `ended` are a history: the orders handed to the adapter with what cleared
them, the records the risk engine has journaled, and the ticks that have ended.
-/

namespace NexusQuant.Runtime

open Control Execution Market Risk Run

/-! ## The process -/

/-- The options of a process, and the view the risk hook has of the adapter. -/
structure WorkerConfig (ω σ : Type) where
  deps : StageDeps ω σ
  controlPlane : Bool
  riskEngine : Bool
  tickMs : ℕ
  texts : FileRiskEventStore.Texts
  marketState : σ → MarketView

/-- The engine is built with the default limits on the default account. -/
def riskConfig : RiskEngineConfig := ⟨defaultRiskLimits, defaultAccountConfig⟩

def WorkerConfig.maxPermissionAgeMs {ω σ : Type} (cfg : WorkerConfig ω σ) : ℚ :=
  max (cfg.tickMs * 4) 60000

/-- What the control hook saw when it let a proposal pass. -/
structure Clearance where
  killSwitch : KillSwitchView
  permission : Option TradingPermission
  readAt : ℚ

/-- What the risk hook was asked with. -/
structure RiskCall where
  engine : RiskEngine
  view : MarketView
  quote : Except String (Option Quote)
  disk : Disk

/-- An order that was handed to the adapter. -/
structure HandedOrder where
  proposal : ProposedAllocation
  portfolio : PortfolioState
  clearance : Option Clearance
  risk : Option RiskCall

/-- A tick whose stage is running; the clearance is that of the first proposal still waiting. -/
structure TickInFlight (ω σ : Type) where
  tick : Execution.Tick ω
  waiting : List ProposedAllocation
  progress : Progress σ
  clearance : Option Clearance

structure WorkerState (ω σ : Type) where
  killSwitch : KillState
  plane : ControlPlane
  lastExecutionAt : Option ℚ
  engine : RiskEngine
  stage : StageState σ
  inFlight : Option (TickInFlight ω σ)
  executed : List HandedOrder
  riskJournal : List RiskJournalRecord
  ended : List (Execution.Tick ω)

inductive WorkerEvent (ω : Type) where
  /-- A statement of an operator's command. -/
  | operator (step : KillStep)
  | evaluate (around : ControlSurroundings) (probes : ControlComponent → List RecoveryStep)
  /-- An evaluation that throws on its way; the permission is the last thing it would have set. -/
  | evaluateThrows (plane : ControlPlane)
  | begin (tick : Execution.Tick ω)
  /-- The control hook reads the switch. -/
  | readSwitch (failure : Option String) (now : ℚ)
  /-- The rest of the hook and of the stage, for a proposal that was cleared. -/
  | order (quote : Except String (Option Quote)) (disk : Disk)
  | finish (now : ℚ)

section Step

variable {ω σ : Type} (cfg : WorkerConfig ω σ) (s : WorkerState ω σ)

/-- `isRiskActive`. -/
def isRiskActive : Bool := cfg.riskEngine && !s.engine.state.halted

/-- The tick as the stage runs it once the hooks have given their decision. -/
def decided (tick : Execution.Tick ω) (decision : Except String RiskGateDecision) :
    Execution.Tick ω :=
  { tick with riskGate := some fun _ _ => decision }

/-- The tick is over: a stage that throws loses the portfolio, not what the adapter did. -/
def WorkerState.endTick (flight : TickInFlight ω σ) (portfolio : PortfolioState)
    (progress : Progress σ) : WorkerState ω σ :=
  { s with
    stage := ⟨portfolio, progress.adapter⟩
    inFlight := none
    ended := s.ended ++ [flight.tick] }

/-- The stage settles the first waiting proposal by the decision of the hooks. -/
def WorkerState.settle (flight : TickInFlight ω σ) (proposal : ProposedAllocation)
    (rest : List ProposedAllocation) (decision : Except String RiskGateDecision) : WorkerState ω σ :=
  match runProposal cfg.deps (decided flight.tick decision) flight.progress proposal with
  | (progress, none) =>
      { s with inFlight := some ⟨flight.tick, rest, progress, none⟩ }
  | (progress, some _) => s.endTick flight s.stage.portfolio progress

/-- The intent of the proposal is published and the adapter is called. -/
def reachesAdapter (tick : Execution.Tick ω) (progress : Progress σ)
    (proposal : ProposedAllocation) : Bool :=
  judge cfg.deps tick proposal progress.state = .approved &&
    (tick.publish (.intentEmitted (intentOf cfg.deps tick proposal))).isNone

/-- The decision of the risk hook, which is not there when the engine is off. -/
def riskDecision (call : RiskCall) (proposal : ProposedAllocation) : Outcome RiskGateDecision :=
  if cfg.riskEngine then
    createRiskExecutionGate cfg.texts riskConfig call.engine call.view {} call.quote call.disk proposal
  else ⟨.ok .approved, [], call.engine⟩

/-- A cleared proposal: the risk hook, and then the stage. -/
def WorkerState.order (flight : TickInFlight ω σ) (proposal : ProposedAllocation)
    (rest : List ProposedAllocation) (quote : Except String (Option Quote)) (disk : Disk) :
    WorkerState ω σ :=
  let call : RiskCall := ⟨s.engine, cfg.marketState flight.progress.adapter, quote, disk⟩
  let o := riskDecision cfg call proposal
  let handed : HandedOrder :=
    ⟨proposal, flight.progress.state, flight.clearance, if cfg.riskEngine then some call else none⟩
  WorkerState.settle cfg
    { s with
      engine := o.engine
      riskJournal := s.riskJournal ++ o.journaled
      executed :=
        if reachesAdapter cfg (decided flight.tick o.result) flight.progress proposal then
          s.executed ++ [handed]
        else s.executed }
    flight proposal rest o.result

def workerStep : WorkerEvent ω → WorkerState ω σ
  | .operator a => { s with killSwitch := killStep s.killSwitch a }
  | .evaluate around probes =>
      -- The plane is evaluated before a tick, never during one.
      if cfg.controlPlane ∧ s.inFlight.isNone then
        let inputs := gatherControlInputs around s.killSwitch.row s.lastExecutionAt
          (isRiskActive cfg s)
        { s with plane := (Control.evaluate s.plane ⟨inputs, probes⟩).plane }
      else s
  | .evaluateThrows plane =>
      if cfg.controlPlane ∧ s.inFlight.isNone then
        { s with plane := { plane with lastPermission := s.plane.lastPermission } }
      else s
  | .begin tick =>
      if s.inFlight.isSome then s
      else
        match aggregateDecisions cfg.deps.localeCompare tick.decisions tick.portfolioConfig with
        | .error _ => { s with ended := s.ended ++ [tick] }
        | .ok proposals => { s with inFlight := some ⟨tick, proposals, initialProgress s.stage, none⟩ }
  | .readSwitch failure now =>
      match s.inFlight with
      | some ⟨tick, proposal :: rest, progress, none⟩ =>
          if cfg.controlPlane then
            let flight : TickInFlight ω σ := ⟨tick, proposal :: rest, progress, none⟩
            let view := getKillSwitch s.killSwitch.row
            let answer := (failure.map Except.error).getD (.ok view)
            match createControlExecutionGate (some cfg.maxPermissionAgeMs) answer
                s.plane.lastPermission now with
            | .approved =>
                let clearance : Clearance := ⟨view, s.plane.lastPermission, now⟩
                { s with inFlight := some { flight with clearance := some clearance } }
            -- The first block wins: the risk hook is not asked.
            | .blocked reason detail =>
                s.settle cfg flight proposal rest (.ok (.blocked reason detail))
          else s
      | _ => s
  | .order quote disk =>
      match s.inFlight with
      | some ⟨tick, proposal :: rest, progress, clearance⟩ =>
          if cfg.controlPlane ∧ clearance.isNone then s
          else s.order cfg ⟨tick, proposal :: rest, progress, clearance⟩ proposal rest quote disk
      | _ => s
  | .finish now =>
      match s.inFlight with
      | some ⟨tick, [], progress, clearance⟩ =>
          let s := s.endTick ⟨tick, [], progress, clearance⟩ progress.state progress
          if cfg.controlPlane ∧ 0 < progress.filled then { s with lastExecutionAt := some now } else s
      | _ => s

end Step

/-- A process that has been booted: nothing is in flight, nothing was evaluated and nothing executed. -/
structure Booted {ω σ : Type} (s : WorkerState ω σ) : Prop where
  idle : s.inFlight = none
  permission : s.plane.lastPermission = none
  executed : s.executed = []
  riskJournal : s.riskJournal = []
  ended : s.ended = []

/-! ## A tick with one order -/

def sampleWorker : WorkerConfig Unit Unit where
  deps := sampleDeps PaperExecutionAdapter
  controlPlane := true
  riskEngine := true
  tickMs := 15000
  texts := FileRiskEventStore.jsonTexts
  marketState _ := sampleView

def bootedWorker : WorkerState Unit Unit where
  killSwitch := .initial
  plane := booted []
  lastExecutionAt := none
  engine := ⟨⟨[], none⟩, initialRiskControlState⟩
  stage := ⟨emptyPortfolioState, ()⟩
  inFlight := none
  executed := []
  riskJournal := []
  ended := []

theorem booted_bootedWorker : Booted bootedWorker := ⟨rfl, rfl, rfl, rfl, rfl⟩

/-- An evaluation that finds everything in order, and a tick up to the clearance of its proposal. -/
def clearedEvents : List (WorkerEvent Unit) :=
  [.evaluate ⟨100000, .healthy, .healthy, .healthy, some 90000, some 95000, true⟩ fun _ => [],
    .begin (quietTick [sampleDecision "momentum" "BTC" "0.2500"]),
    .readSwitch none 101000]

def sampleOrderEvent : WorkerEvent Unit :=
  .order (.ok (some ⟨"BTC", "t", "50000.00000000"⟩)) ⟨[.complete], ""⟩

/-- The kill switch is engaged after the proposal was cleared. -/
def killedWorker : WorkerState Unit Unit :=
  run (workerStep sampleWorker) bootedWorker (clearedEvents ++
    [.operator (.begin (engageKill "ops" "halt" "t")), .operator (.upsert 0 .done)])

end NexusQuant.Runtime
