import NexusQuant.Execution.Adapters
import NexusQuant.Execution.Gate

/-!
# The execution stage

`runExecutionStage` of `services/workers/src/execution/stage.ts`, and the caller that carries the
portfolio state from tick to tick.  What a tick meets is a `Tick`: its decisions and policy, the mode
of the kill switch, the optional pre-trade hook, the subscribers of the bus and the surroundings of
the adapter.  A subscriber that throws ends the tick; the portfolio state of the tick is then lost,
what the adapter did is not.
-/

namespace NexusQuant.Execution

/-- The decision of the optional pre-trade hook. -/
inductive RiskGateDecision where
  | approved
  | blocked (reason detail : String)
deriving DecidableEq, Repr

inductive ExecutionStageEvent where
  | intentEmitted (intent : ExecutionIntent)
  | blocked (proposal : ProposedAllocation) (reason detail : String)
  | resultRecorded (result : ExecutionResult)
deriving DecidableEq, Repr

/-- What stays the same from tick to tick. -/
structure StageDeps (ω σ : Type) where
  adapter : ExecutionAdapter ω σ
  limits : RiskLimits
  digest : Bytes → String
  localeCompare : String → String → ℤ

/-- What one tick meets.  A symbol has one proposal in a tick, so the mode of the kill switch when
a proposal is judged and the failures of the bus are functions of the proposal and of the event. -/
structure Tick (ω : Type) where
  decisions : List DecisionEvent
  portfolioConfig : PortfolioConfig
  killSwitch : ProposedAllocation → RiskMode
  riskGate : Option (ProposedAllocation → PortfolioState → Except String RiskGateDecision)
  tickId : Option String
  publish : ExecutionStageEvent → Option String
  world : ω

/-- The locals of the loop, and the state of the adapter. -/
structure Progress (σ : Type) where
  state : PortfolioState
  adapter : σ
  intentsEmitted : ℕ
  filled : ℕ
  rejected : ℕ
  blocked : ℕ
  results : List ExecutionResult

section Stage

variable [Arithmetic] {ω σ : Type} (deps : StageDeps ω σ) (tick : Tick ω)

/-- The pre-trade hook; one that throws blocks. -/
def preTrade (proposal : ProposedAllocation) (state : PortfolioState) : RiskGateDecision :=
  match tick.riskGate with
  | none => .approved
  | some hook =>
      match hook proposal state with
      | .ok decision => decision
      | .error e => .blocked "FAIL_CLOSED" ("risk engine error: " ++ e)

/-- Both gates, in their order. -/
def judge (proposal : ProposedAllocation) (state : PortfolioState) : RiskGateDecision :=
  match preTrade tick proposal state with
  | .blocked reason detail => .blocked reason detail
  | .approved =>
      match evaluateRisk proposal (projectExposure state proposal) deps.limits
          (tick.killSwitch proposal) with
      | .approved => .approved
      | .blocked reason detail => .blocked reason.text detail

/-- A proposal that is blocked is only published. -/
def block (p : Progress σ) (proposal : ProposedAllocation) (reason detail : String) :
    Progress σ × Option String :=
  ({ p with blocked := p.blocked + 1 }, tick.publish (.blocked proposal reason detail))

/-- The result of a call of the adapter; a throw becomes a rejection. -/
def resultOf (intent : ExecutionIntent) : Except String ExecutionResult → ExecutionResult
  | .ok result => result
  | .error e =>
      { intentId := intent.intentId
        symbol := intent.symbol
        side := intent.side
        status := .rejected
        adapterId := intent.adapterId
        filledNotional := "0.00"
        detail := "adapter error: " ++ e
        lineage := intent.lineage }

/-- Record a result, `adapter` being the state the adapter is left in. -/
def record (p : Progress σ) (result : ExecutionResult) (adapter : σ) : Progress σ where
  state := applyResult p.state result
  adapter := adapter
  intentsEmitted := p.intentsEmitted
  filled := if result.status = .filled then p.filled + 1 else p.filled
  rejected := if result.status = .filled then p.rejected else p.rejected + 1
  blocked := p.blocked
  results := p.results ++ [result]

/-- The intent of an approved proposal. -/
def intentOf (proposal : ProposedAllocation) : ExecutionIntent :=
  deriveExecutionIntent deps.digest proposal deps.adapter.id tick.tickId

/-- One proposal; an error is what a subscriber of the bus threw. -/
def runProposal (p : Progress σ) (proposal : ProposedAllocation) : Progress σ × Option String :=
  match judge deps tick proposal p.state with
  | .blocked reason detail => block tick p proposal reason detail
  | .approved =>
      let intent := intentOf deps tick proposal
      let emitted := { p with intentsEmitted := p.intentsEmitted + 1 }
      match tick.publish (.intentEmitted intent) with
      -- The bus is synchronous: a subscriber that throws ends the stage before the adapter is
      -- called.
      | some e => (emitted, some e)
      | none =>
          let answer := deps.adapter.execute tick.world p.adapter intent
          let result := resultOf intent answer.1
          -- The result is recorded before it is published.
          (record emitted result answer.2, tick.publish (.resultRecorded result))

/-- The loop over the proposals; it ends at the first error. -/
def runProposals (p : Progress σ) : List ProposedAllocation → Progress σ × Option String
  | [] => (p, none)
  | proposal :: rest =>
      match runProposal deps tick p proposal with
      | (p, some e) => (p, some e)
      | (p, none) => runProposals p rest

/-- `runExecutionStage`, from the portfolio and the adapter of the tick before. -/
def runExecutionStage (state : PortfolioState) (adapter : σ) : Progress σ × Option String :=
  let p : Progress σ := ⟨state, adapter, 0, 0, 0, 0, []⟩
  match aggregateDecisions deps.localeCompare tick.decisions tick.portfolioConfig with
  | .error e => (p, some e)
  | .ok proposals => runProposals deps tick p proposals

end Stage

/-- The portfolio that is carried from tick to tick, and the adapter. -/
structure StageState (σ : Type) where
  portfolio : PortfolioState
  adapter : σ

/-- One tick of the pipeline: a stage that throws leaves the portfolio as it was. -/
def tickStep [Arithmetic] {ω σ : Type} (deps : StageDeps ω σ) (s : StageState σ) (tick : Tick ω) :
    StageState σ :=
  match runExecutionStage deps tick s.portfolio s.adapter with
  | (p, none) => ⟨p.state, p.adapter⟩
  -- The adapter has executed what it has executed; only the portfolio is thrown away.
  | (p, some _) => ⟨s.portfolio, p.adapter⟩

end NexusQuant.Execution
