import NexusQuant.Execution.Stage
import NexusQuant.Lib.Run
import NexusQuant.Market.Stage

/-!
# The two portfolio ledgers

The execution stage folds every result it records into the portfolio it carries from tick to tick;
the market adapter folds the result it is about to return into a mirror of that portfolio, on each of
its own branches.  The risk limits are checked against the first ledger, the reconciliation against
the second.  As long as no subscriber throws, the two are the same fold: `execute_mirror` is the
step, `ledgers_agree` the run.  An adapter without an event store is one whose journal never fails.
-/

namespace NexusQuant.Market

open Execution Run

/-- The market adapter as the stage calls it, each call of a tick in a world of its own. -/
def stageAdapter (cfg : AdapterConfig) : ExecutionAdapter (ExecutionIntent → World) AdapterState where
  id := cfg.id
  execute world s intent :=
    match execute cfg (world intent) s intent with
    | (.returned result, s) => (.ok result, s)
    | (.threw message, s) => (.error message, s)

/-- `reconstructPortfolioState` from a seed. -/
def reconstructFrom (seed : PortfolioState) (results : List ExecutionResult) : PortfolioState :=
  results.foldl applyResult seed

theorem reconstructFrom_append (seed : PortfolioState) (results more : List ExecutionResult) :
    reconstructFrom seed (results ++ more) = reconstructFrom (reconstructFrom seed results) more :=
  List.foldl_append

theorem applyResult_rejected {state : PortfolioState} {result : ExecutionResult}
    (h : result.status = .rejected) : applyResult state result = state := by
  unfold applyResult
  rw [if_pos]
  rw [h]
  decide

/-! ## One call of the adapter -/

section Execute

/-- No subscriber of the market bus throws. -/
def World.Quiet (w : World) : Prop := ∀ published e, w.subscriber published e = none

variable {cfg : AdapterConfig} {w : World} {s : AdapterState} {intent : ExecutionIntent}

theorem publishAll_quiet (hw : w.Quiet) (published es : List MarketStageEvent) :
    publishAll w published es = .ok (published ++ es) := by
  induction es generalizing published with
  | nil => simp [publishAll]
  | cons e es ih =>
      rw [publishAll, hw published e]
      show publishAll w (published ++ [e]) es = _
      rw [ih, List.append_assoc, List.singleton_append]

theorem referenceQuote_ne_threw (message : String) :
    referenceQuote cfg w intent ≠ .error (.threw message) := by
  intro h
  unfold referenceQuote at h
  split at h
  · cases h
  · cases h
  · split at h
    · cases h
    · split at h <;> cases h

theorem settle_ne_threw (hw : w.Quiet) {events : List OrderEvent} {snapshot : OrderSnapshot}
    {published : List MarketStageEvent} (message : String) :
    settle cfg w s intent events snapshot published ≠ .error (.threw message) := by
  intro h
  unfold settle at h
  split at h
  · cases h
  · dsimp only at h
    split at h
    · cases h
    · rw [hw] at h
      cases h

theorem trade_ne_threw (hw : w.Quiet) {quote : Quote} (message : String) :
    trade cfg w s intent quote ≠ .error (.threw message) := by
  intro h
  unfold trade at h
  dsimp only at h
  split at h
  · cases h
  · split at h
    · cases h
    · rw [publishAll_quiet hw] at h
      exact settle_ne_threw hw message h

/-- What throws out of a call is a subscriber. -/
theorem attempt_ne_threw (hw : w.Quiet) (message : String) :
    attempt cfg w s intent ≠ .error (.threw message) := by
  intro h
  unfold attempt at h
  cases hquote : referenceQuote cfg w intent with
  | error exit =>
      rw [hquote] at h
      cases h
      exact referenceQuote_ne_threw message hquote
  | ok quote =>
      rw [hquote] at h
      change (if isNoOp s intent (parseDecimal quote.price) then _ else _) = _ at h
      split at h
      · cases h
      · cases htrade : trade cfg w s intent quote with
        | error exit =>
            rw [htrade] at h
            cases h
            exact trade_ne_threw hw message htrade
        | ok c =>
            rw [htrade] at h
            cases h

/-- A call whose subscribers are quiet returns, and its mirror moves by exactly what it returned. -/
theorem execute_mirror (hw : w.Quiet) :
    ∃ result, (execute cfg w s intent).1 = .returned result ∧
      (execute cfg w s intent).2.portfolioMirror = applyResult s.portfolioMirror result := by
  unfold execute
  cases hattempt : attempt cfg w s intent with
  | error exit =>
      cases exit with
      | rejected detail => exact ⟨_, rfl, (applyResult_rejected rfl).symm⟩
      | threw message => exact absurd hattempt (attempt_ne_threw hw message)
  | ok a =>
      cases a with
      | noOp result => exact ⟨result, rfl, rfl⟩
      | commit c =>
          dsimp only
          cases happend : w.append (c.input intent) with
          -- The journal failed: a rejection, and the candidate mirror is dropped with the rest.
          | some e => exact ⟨_, rfl, (applyResult_rejected rfl).symm⟩
          | none =>
              dsimp only
              rw [publishAll_quiet hw]
              refine ⟨c.result, rfl, ?_⟩
              obtain ⟨quote, -, ⟨-, heq⟩ | ⟨-, c', htrade, heq⟩⟩ := attempt_ok hattempt
              · cases heq
              · cases heq
                obtain ⟨events, snapshot, published, -, -, hsettle⟩ := trade_ok htrade
                obtain ⟨-, -, -, -, -, hmirror, -⟩ := settle_ok hsettle
                exact hmirror

theorem stageAdapter_mirror {world : ExecutionIntent → World} (hworld : (world intent).Quiet) :
    ∃ result, ((stageAdapter cfg).execute world s intent).1 = .ok result ∧
      ((stageAdapter cfg).execute world s intent).2.portfolioMirror =
        applyResult s.portfolioMirror result := by
  obtain ⟨result, hanswer, hmirror⟩ := @execute_mirror cfg (world intent) s intent hworld
  unfold stageAdapter
  dsimp only
  generalize hcall : execute cfg (world intent) s intent = call at hanswer hmirror
  obtain ⟨outcome, after⟩ := call
  change outcome = .returned result at hanswer
  subst hanswer
  exact ⟨result, rfl, hmirror⟩

end Execute

/-! ## One tick -/

/-- No subscriber throws in the tick, on either bus. -/
structure QuietTick (tick : Tick (ExecutionIntent → World)) : Prop where
  stage : ∀ e, tick.publish e = none
  market : ∀ intent, (tick.world intent).Quiet

/-- Both ledgers are the fold of `results` over `seed`. -/
structure LedgersAgree (seed : PortfolioState) (portfolio : PortfolioState) (adapter : AdapterState)
    (results : List ExecutionResult) : Prop where
  portfolio : portfolio = reconstructFrom seed results
  mirror : adapter.portfolioMirror = reconstructFrom seed results

/-- The ledgers of a tick in progress. -/
def ProgressAgrees (seed : PortfolioState) (p : Progress AdapterState) : Prop :=
  LedgersAgree seed p.state p.adapter p.results

section Tick

variable {cfg : AdapterConfig} {deps : StageDeps (ExecutionIntent → World) AdapterState}
  {tick : Tick (ExecutionIntent → World)} {seed : PortfolioState} {p : Progress AdapterState}

theorem ProgressAgrees.record {adapter : AdapterState} {result : ExecutionResult}
    (h : ProgressAgrees seed p)
    (hmirror : adapter.portfolioMirror = applyResult p.adapter.portfolioMirror result) :
    ProgressAgrees seed (record p result adapter) where
  portfolio := by
    show applyResult p.state result = reconstructFrom seed (p.results ++ [result])
    rw [reconstructFrom_append, ← h.portfolio]
    rfl
  mirror := by
    show adapter.portfolioMirror = reconstructFrom seed (p.results ++ [result])
    rw [reconstructFrom_append, ← h.mirror, hmirror]
    rfl

/-- A proposal keeps the ledgers together, and throws nothing. -/
theorem ProgressAgrees.runProposal (h : ProgressAgrees seed p)
    (hadapter : deps.adapter = stageAdapter cfg) (hquiet : QuietTick tick)
    (proposal : ProposedAllocation) :
    (runProposal deps tick p proposal).2 = none ∧
      ProgressAgrees seed (runProposal deps tick p proposal).1 := by
  unfold Execution.runProposal
  split
  · -- blocked: neither ledger moves
    exact ⟨hquiet.stage _, h⟩
  · dsimp only
    rw [hquiet.stage, hadapter]
    obtain ⟨result, hanswer, hmirror⟩ := @stageAdapter_mirror cfg p.adapter
      (intentOf deps tick proposal) tick.world (hquiet.market _)
    dsimp only
    rw [hanswer]
    refine ⟨hquiet.stage _, ?_⟩
    have hemitted : ProgressAgrees seed { p with intentsEmitted := p.intentsEmitted + 1 } := h
    exact hemitted.record hmirror

theorem ProgressAgrees.runProposals (h : ProgressAgrees seed p)
    (hadapter : deps.adapter = stageAdapter cfg) (hquiet : QuietTick tick)
    (proposals : List ProposedAllocation) :
    (runProposals deps tick p proposals).2 = none ∧
      ProgressAgrees seed (runProposals deps tick p proposals).1 := by
  induction proposals generalizing p with
  | nil => exact ⟨rfl, h⟩
  | cons proposal rest ih =>
      obtain ⟨hnone, hnext⟩ := h.runProposal hadapter hquiet proposal
      unfold Execution.runProposals
      generalize Execution.runProposal deps tick p proposal = after at hnone hnext ⊢
      obtain ⟨q, error⟩ := after
      change error = none at hnone
      subst hnone
      exact ih hnext

end Tick

/-! ## Every run -/

/-- The two ledgers of a run, and all results it has recorded. -/
structure LedgerRun where
  stage : StageState AdapterState
  recorded : List ExecutionResult

/-- One tick of the pipeline, keeping what it recorded. -/
def ledgerStep (deps : StageDeps (ExecutionIntent → World) AdapterState) (r : LedgerRun)
    (tick : Tick (ExecutionIntent → World)) : LedgerRun where
  stage := tickStep deps r.stage tick
  recorded := r.recorded ++ (runExecutionStage deps tick r.stage.portfolio r.stage.adapter).1.results

/-- The ledgers of a run are the fold of what it recorded. -/
def LedgerRun.Agree (seed : PortfolioState) (r : LedgerRun) : Prop :=
  LedgersAgree seed r.stage.portfolio r.stage.adapter r.recorded

theorem LedgerRun.Agree.step {cfg : AdapterConfig}
    {deps : StageDeps (ExecutionIntent → World) AdapterState} {seed : PortfolioState}
    {r : LedgerRun} {tick : Tick (ExecutionIntent → World)} (h : r.Agree seed)
    (hadapter : deps.adapter = stageAdapter cfg) (hquiet : QuietTick tick) :
    (ledgerStep deps r tick).Agree seed := by
  unfold LedgerRun.Agree ledgerStep tickStep runExecutionStage
  cases hproposals : aggregateDecisions deps.localeCompare tick.decisions tick.portfolioConfig with
  | error e =>
      -- The tick ended before its first proposal: nothing is recorded.
      dsimp only
      rw [List.append_nil]
      exact h
  | ok proposals =>
      dsimp only
      have hstart : ProgressAgrees r.stage.portfolio
          ⟨r.stage.portfolio, r.stage.adapter, 0, 0, 0, 0, []⟩ :=
        ⟨rfl, h.mirror.trans h.portfolio.symm⟩
      obtain ⟨hnone, hend⟩ := hstart.runProposals hadapter hquiet proposals
      generalize Execution.runProposals deps tick _ proposals = after at hnone hend ⊢
      obtain ⟨p, error⟩ := after
      change error = none at hnone
      subst hnone
      constructor
      · show p.state = reconstructFrom seed (r.recorded ++ p.results)
        rw [reconstructFrom_append, ← h.portfolio]
        exact hend.portfolio
      · show p.adapter.portfolioMirror = reconstructFrom seed (r.recorded ++ p.results)
        rw [reconstructFrom_append, ← h.portfolio]
        exact hend.mirror

/-- In every run whose subscribers never throw the portfolio that is carried forward and the mirror
of the adapter are equal after every tick, and both are the fold of all recorded results. -/
theorem ledgers_agree (cfg : AdapterConfig)
    (deps : StageDeps (ExecutionIntent → World) AdapterState)
    (hadapter : deps.adapter = stageAdapter cfg) (start : StageState AdapterState)
    (hstart : start.portfolio = start.adapter.portfolioMirror)
    (ticks : List (Tick (ExecutionIntent → World))) (hquiet : ∀ tick ∈ ticks, QuietTick tick)
    (r : LedgerRun) (hr : r = run (ledgerStep deps) ⟨start, []⟩ ticks) :
    r.stage.portfolio = r.stage.adapter.portfolioMirror ∧
      r.stage.portfolio = reconstructFrom start.portfolio r.recorded ∧
      r.stage.adapter.portfolioMirror = reconstructFrom start.portfolio r.recorded := by
  have hinit : LedgerRun.Agree start.portfolio ⟨start, []⟩ := ⟨rfl, hstart.symm⟩
  have hmeets : RunMeets (ledgerStep deps) (fun _ tick => QuietTick tick) ⟨start, []⟩ ticks :=
    runMeets_of_forall fun tick hmem _ => hquiet tick hmem
  have hagree : LedgerRun.Agree start.portfolio r := by
    rw [hr]
    exact run_invariant (fun r tick h hq => h.step hadapter hq) hinit hmeets
  exact ⟨hagree.portfolio.trans hagree.mirror.symm, hagree.portfolio, hagree.mirror⟩

/-! ## A fill, a failed journal and a blocked proposal -/

def ledgerDeps : StageDeps (ExecutionIntent → World) AdapterState where
  adapter := stageAdapter sampleConfig
  limits := defaultRiskLimits
  digest _ := "0123456789abcdef"
  localeCompare a b := if a < b then -1 else if b < a then 1 else 0

/-- One decision over the paper broker, quoted at 100; `append` is the journal's answer. -/
def ledgerTick (mode : RiskMode) (append : Option String) (confidence : String) :
    Tick (ExecutionIntent → World) where
  decisions := [⟨"BTC", .enter, .long, confidence,
    ⟨"sv-1", "fs-1", "dq-1", "dh-1", "fh-1", "momentum", 1⟩⟩]
  portfolioConfig := defaultPortfolioConfig
  killSwitch _ := mode
  riskGate := none
  tickId := none
  publish _ := none
  world _ :=
    { quote := fun symbol => .ok (some ⟨symbol, "2026-01-01T00:00:00.000Z", "100.00000000"⟩)
      place := fun order => .ok (PaperBroker.place order)
      append := fun _ => append
      subscriber := fun _ _ => none }

/-- BTC is filled, a reduction is lost to the journal, and a third proposal meets the kill switch. -/
theorem ledgers_agree_threeTicks :
    ∃ r, r = run (ledgerStep ledgerDeps) ⟨⟨emptyPortfolioState, initialAdapterState sampleConfig⟩, []⟩
        [ledgerTick .normal none "0.7000", ledgerTick .normal (some "disk full") "0.3500",
          ledgerTick .frozen none "0.3500"] ∧
      r.recorded.map (fun result => result.status) = [.filled, .rejected] ∧
      r.stage.portfolio.grossExposure = "700000.00" ∧
      r.stage.portfolio = r.stage.adapter.portfolioMirror := by
  refine ⟨_, rfl, by decide +kernel, by decide +kernel, ?_⟩
  refine (ledgers_agree sampleConfig ledgerDeps rfl _ rfl _ ?_ _ rfl).1
  intro tick hmem
  simp only [List.mem_cons, List.not_mem_nil, or_false] at hmem
  rcases hmem with rfl | rfl | rfl
  · exact ⟨fun _ => rfl, fun _ _ _ => rfl⟩
  · exact ⟨fun _ => rfl, fun _ _ _ => rfl⟩
  · exact ⟨fun _ => rfl, fun _ _ _ => rfl⟩

end NexusQuant.Market
