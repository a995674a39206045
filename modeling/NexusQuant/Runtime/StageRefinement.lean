import NexusQuant.Execution.Netting
import NexusQuant.Runtime.ClearedOrders

/-!
# The worker refines the stage

The stage runs a tick in one go, on hooks that are given beforehand; the worker runs it in steps,
between which operators and the risk engine go on.  A symbol has one proposal in a tick, so the
decisions the hooks gave on the way can be collected into one hook: every tick of the worker is a tick
of the stage with the hook it has met, and what is proved of runs of the stage holds of the worker.
-/

namespace NexusQuant.Runtime

open Control Execution Market Risk Run

variable {ω σ : Type} {cfg : WorkerConfig ω σ} {s : WorkerState ω σ}

/-! ## One proposal for each symbol -/

/-- What is returned for each key, and knows its key, comes in the order of the keys. -/
theorem sublist_keys_of_mapM {α : Type} {f : String → Except String (Option α)} {keyOf : α → String}
    (hkey : ∀ key a, f key = .ok (some a) → keyOf a = key) {keys : List String}
    {slots : List (Option α)} (h : keys.mapM f = .ok slots) :
    ((slots.filterMap id).map keyOf).Sublist keys := by
  induction keys generalizing slots with
  | nil =>
      cases h
      exact List.nil_sublist _
  | cons key keys ih =>
      rw [List.mapM_cons] at h
      cases hslot : f key with
      | error e =>
          rw [hslot] at h
          cases h
      | ok slot =>
          rw [hslot] at h
          cases hrest : keys.mapM f with
          | error e =>
              rw [hrest] at h
              cases h
          | ok rest =>
              rw [hrest] at h
              cases h
              cases slot with
              | none => exact (ih hrest).cons key
              | some a =>
                  have hhead := hkey key a hslot
                  show (keyOf a :: _).Sublist _
                  rw [hhead]
                  exact (ih hrest).cons_cons key

theorem allocate_symbol {localeCompare : String → String → ℤ} {config : PortfolioConfig}
    {symbol : String} {contributions : List DecisionContribution} {a : ProposedAllocation}
    (h : allocate localeCompare config symbol contributions = .ok (some a)) : a.symbol = symbol := by
  unfold allocate at h
  dsimp only at h
  split at h
  · cases h
  · split at h
    · cases h
    · cases h
      rfl

theorem nodup_aggregateDecisions {localeCompare : String → String → ℤ}
    {decisions : List DecisionEvent} {config : PortfolioConfig} {proposals : List ProposedAllocation}
    (h : aggregateDecisions localeCompare decisions config = .ok proposals) :
    (proposals.map ProposedAllocation.symbol).Nodup := by
  obtain ⟨slots, hslots, rfl⟩ := Fallible.map_eq_ok.mp h
  exact (sublist_keys_of_mapM (fun _ _ => allocate_symbol) hslots).nodup nodup_sortedKeys_bySymbol

/-! ## Hooks that are collected -/

/-- A tick with a hook that knows its decision on every proposal. -/
def hooked (tick : Execution.Tick ω) (hook : ProposedAllocation → Except String RiskGateDecision) :
    Execution.Tick ω :=
  { tick with riskGate := some fun proposal _ => hook proposal }

/-- The hook with one more decision. -/
def withDecision (hook : ProposedAllocation → Except String RiskGateDecision) (symbol : String)
    (decision : Except String RiskGateDecision) (proposal : ProposedAllocation) :
    Except String RiskGateDecision :=
  if proposal.symbol = symbol then decision else hook proposal

section Hooks

variable {deps : StageDeps ω σ} {tick : Execution.Tick ω}
  {hook hook' : ProposedAllocation → Except String RiskGateDecision}

/-- Of the hook the stage only sees its decision on the proposal. -/
theorem runProposal_hooked (p : Progress σ) (proposal : ProposedAllocation) :
    runProposal deps (hooked tick hook) p proposal =
      runProposal deps (decided tick (hook proposal)) p proposal :=
  rfl

theorem runProposals_congr {proposals : List ProposedAllocation}
    (h : ∀ a ∈ proposals, hook a = hook' a) (p : Progress σ) :
    runProposals deps (hooked tick hook) p proposals =
      runProposals deps (hooked tick hook') p proposals := by
  induction proposals generalizing p with
  | nil => rfl
  | cons a rest ih =>
      have hhead : runProposal deps (hooked tick hook) p a =
          runProposal deps (hooked tick hook') p a := by
        rw [runProposal_hooked, runProposal_hooked, h a List.mem_cons_self]
      rw [runProposals, runProposals, hhead]
      split
      · rfl
      · exact ih (fun b hb => h b (List.mem_cons_of_mem a hb)) _

/-- The loop over proposals that all went through, and those after them. -/
theorem runProposals_append {done : List ProposedAllocation} {p q : Progress σ}
    (h : runProposals deps tick p done = (q, none)) (rest : List ProposedAllocation) :
    runProposals deps tick p (done ++ rest) = runProposals deps tick q rest := by
  induction done generalizing p with
  | nil =>
      cases h
      rfl
  | cons a done ih =>
      rw [List.cons_append, runProposals]
      rw [runProposals] at h
      split at h
      · cases h
      · exact ih h

end Hooks

/-! ## The refinement -/

/-- A tick without its hook. -/
def bare (tick : Execution.Tick ω) : Execution.Tick ω := { tick with riskGate := none }

/-- The proposals of the tick in flight that are settled are settled as the stage settles them on some
hook. -/
def InStep (cfg : WorkerConfig ω σ) (stage : StageState σ) (flight : TickInFlight ω σ) : Prop :=
  ∃ done hook, aggregateDecisions cfg.deps.localeCompare flight.tick.decisions
      flight.tick.portfolioConfig = .ok (done ++ flight.waiting) ∧
    runProposals cfg.deps (hooked flight.tick hook) (initialProgress stage) done =
      (flight.progress, none)

/-- The ticks that have ended are a run of the stage. -/
structure Refines (cfg : WorkerConfig ω σ) (start : StageState σ) (s : WorkerState ω σ) : Prop where
  ended : ∃ ticks : List (Execution.Tick ω), ticks.map bare = s.ended.map bare ∧
    s.stage = run (tickStep cfg.deps) start ticks
  inFlight : ∀ flight ∈ s.inFlight, InStep cfg s.stage flight

/-- What one more proposal does to the tick in flight. -/
theorem runProposals_next {stage : StageState σ} {flight : TickInFlight ω σ}
    {proposal : ProposedAllocation} {rest : List ProposedAllocation} (h : InStep cfg stage flight)
    (hwaiting : flight.waiting = proposal :: rest) (decision : Except String RiskGateDecision) :
    ∃ done hook, aggregateDecisions cfg.deps.localeCompare flight.tick.decisions
        flight.tick.portfolioConfig = .ok ((done ++ [proposal]) ++ rest) ∧
      ∀ more, runProposals cfg.deps (hooked flight.tick hook) (initialProgress stage)
          (done ++ proposal :: more) =
        match runProposal cfg.deps (decided flight.tick decision) flight.progress proposal with
        | (p, some e) => (p, some e)
        | (p, none) => runProposals cfg.deps (hooked flight.tick hook) p more := by
  obtain ⟨done, hook, hall, hdone⟩ := h
  rw [hwaiting] at hall
  -- The symbol is new to the tick, so that its decision does not change the earlier ones.
  have hnew : ∀ a ∈ done, a.symbol ≠ proposal.symbol := by
    have hnodup := nodup_aggregateDecisions hall
    rw [List.map_append, List.map_cons] at hnodup
    intro a ha heq
    exact (List.nodup_append.mp hnodup).2.2 a.symbol (List.mem_map_of_mem ha) proposal.symbol
      List.mem_cons_self heq
  have hagree : ∀ a ∈ done, withDecision hook proposal.symbol decision a = hook a := fun a ha =>
    if_neg (hnew a ha)
  have hnext : withDecision hook proposal.symbol decision proposal = decision := if_pos rfl
  refine ⟨done, withDecision hook proposal.symbol decision, ?_, ?_⟩
  · exact hall.trans (congrArg Except.ok (List.append_assoc done [proposal] _).symm)
  · intro more
    have hrun := runProposals_append ((runProposals_congr hagree _).trans hdone) (proposal :: more)
    rw [runProposals, runProposal_hooked, hnext] at hrun
    exact hrun

section Ended

variable {start : StageState σ} {flight : TickInFlight ω σ}

/-- A tick of the stage has come to its end. -/
theorem Refines.endTick (h : Refines cfg start s) (tick : Execution.Tick ω)
    (hbare : bare tick = bare flight.tick) (portfolio : PortfolioState) (progress : Progress σ)
    (hstep : tickStep cfg.deps s.stage tick = ⟨portfolio, progress.adapter⟩) :
    Refines cfg start (s.endTick flight portfolio progress) := by
  obtain ⟨ticks, hticks, hstage⟩ := h.ended
  refine ⟨⟨ticks ++ [tick], ?_, ?_⟩, ?_⟩
  · show (ticks ++ [tick]).map bare = (s.ended ++ [flight.tick]).map bare
    rw [List.map_append, List.map_append, hticks]
    simp [hbare]
  · show (⟨portfolio, progress.adapter⟩ : StageState σ) = _
    rw [run_append, ← hstage, ← hstep]
    rfl
  · intro next hnext
    cases hnext

theorem Refines.settle (h : Refines cfg start s) {proposal : ProposedAllocation}
    {rest : List ProposedAllocation} (hflight : InStep cfg s.stage flight)
    (hwaiting : flight.waiting = proposal :: rest) (decision : Except String RiskGateDecision) :
    Refines cfg start (s.settle cfg flight proposal rest decision) := by
  obtain ⟨done, hook, hall, hrun⟩ := runProposals_next hflight hwaiting decision
  unfold WorkerState.settle
  cases hsettled : runProposal cfg.deps (decided flight.tick decision) flight.progress proposal with
  | mk progress thrown =>
      rw [hsettled] at hrun
      cases thrown with
      | none =>
          refine ⟨h.ended, ?_⟩
          intro next hnext
          cases hnext
          exact ⟨done ++ [proposal], hook, hall, hrun []⟩
      | some e =>
          apply h.endTick (hooked flight.tick hook) rfl
          have hwhole := hrun rest
          unfold tickStep runExecutionStage
          have hproposals : aggregateDecisions cfg.deps.localeCompare
              (hooked flight.tick hook).decisions (hooked flight.tick hook).portfolioConfig =
              .ok (done ++ proposal :: rest) := by
            rw [List.append_assoc] at hall
            exact hall
          rw [hproposals]
          dsimp only
          rw [show (⟨s.stage.portfolio, s.stage.adapter, 0, 0, 0, 0, []⟩ : Progress σ) =
            initialProgress s.stage from rfl, hwhole]

end Ended

theorem Refines.step {start : StageState σ} (h : Refines cfg start s) (e : WorkerEvent ω) :
    Refines cfg start (workerStep cfg s e) := by
  cases e with
  | operator a => exact ⟨h.ended, h.inFlight⟩
  | evaluate around probes =>
      simp only [workerStep]
      split <;> exact ⟨h.ended, h.inFlight⟩
  | evaluateThrows plane =>
      simp only [workerStep]
      split <;> exact ⟨h.ended, h.inFlight⟩
  | begin tick =>
      simp only [workerStep]
      split
      · exact h
      · split
        · -- An aggregation that throws ends the tick at once.
          rename_i message hproposals
          obtain ⟨ticks, hticks, hstage⟩ := h.ended
          refine ⟨⟨ticks ++ [tick], ?_, ?_⟩, h.inFlight⟩
          · show (ticks ++ [tick]).map bare = (s.ended ++ [tick]).map bare
            rw [List.map_append, List.map_append, hticks]
          · rw [run_append, ← hstage]
            simp only [run_cons, run_nil, tickStep, runExecutionStage, hproposals]
        · rename_i proposals hproposals
          refine ⟨h.ended, ?_⟩
          intro flight hflight
          cases hflight
          -- No proposal has been decided, so any hook will do.
          exact ⟨[], fun _ => .ok .approved, hproposals, rfl⟩
  | readSwitch failure now =>
      simp only [workerStep]
      split
      · rename_i tick proposal rest progress hflight
        have hstep := h.inFlight _ hflight
        split
        · split
          · refine ⟨h.ended, ?_⟩
            intro flight hmem
            cases hmem
            exact hstep
          · exact h.settle hstep rfl _
        · exact h
      · exact h
  | order quote disk =>
      simp only [workerStep]
      split
      · rename_i tick proposal rest progress clearance hflight
        have hstep := h.inFlight _ hflight
        split
        · exact h
        · unfold WorkerState.order
          dsimp only
          apply Refines.settle
          · exact ⟨h.ended, h.inFlight⟩
          · exact hstep
          · rfl
      · exact h
  | finish now =>
      simp only [workerStep]
      split
      · rename_i tick progress clearance hflight
        obtain ⟨done, hook, hall, hdone⟩ := h.inFlight _ hflight
        rw [List.append_nil] at hall
        -- With nothing waiting the hook has decided the whole tick.
        have hended : Refines cfg start
            (s.endTick ⟨tick, [], progress, clearance⟩ progress.state progress) := by
          apply h.endTick (hooked tick hook) rfl
          have hproposals : aggregateDecisions cfg.deps.localeCompare
              (hooked tick hook).decisions (hooked tick hook).portfolioConfig = .ok done := hall
          unfold tickStep runExecutionStage
          rw [hproposals]
          dsimp only
          rw [show (⟨s.stage.portfolio, s.stage.adapter, 0, 0, 0, 0, []⟩ : Progress σ) =
            initialProgress s.stage from rfl, hdone]
        split
        · exact ⟨hended.ended, hended.inFlight⟩
        · exact hended
      · exact h

theorem refines_run (h : Booted s) (events : List (WorkerEvent ω)) :
    Refines cfg s.stage (run (workerStep cfg) s events) := by
  have hstart : Refines cfg s.stage s :=
    ⟨⟨[], by rw [h.ended], rfl⟩, by simp [h.idle]⟩
  exact run_keeps (fun _ e h => h.step e) hstart events

/-- In every run of the process the portfolio and the adapter are those of a run of the stage over the
ticks that have ended, each with a hook in place of the decisions it met on the way. -/
theorem worker_refines_stage (h : Booted s) (events : List (WorkerEvent ω)) :
    ∃ ticks : List (Execution.Tick ω),
      ticks.map bare = (run (workerStep cfg) s events).ended.map bare ∧
      (run (workerStep cfg) s events).stage = run (tickStep cfg.deps) s.stage ticks :=
  (refines_run h events).ended

theorem worker_refines_stage_sample :
    ∃ ticks : List (Execution.Tick Unit), ticks.length = 1 ∧
      (run (tickStep sampleWorker.deps) ⟨emptyPortfolioState, ()⟩ ticks).portfolio.byStrategy =
        [("momentum", "250000.00")] := by
  obtain ⟨ticks, hticks, hstage⟩ := @worker_refines_stage Unit Unit sampleWorker bootedWorker
    booted_bootedWorker (clearedEvents ++ [sampleOrderEvent, .finish 103000])
  refine ⟨ticks, ?_, ?_⟩
  · have hlength := congrArg List.length hticks
    rw [List.length_map, List.length_map] at hlength
    exact hlength.trans (by decide +kernel)
  · rw [show (⟨emptyPortfolioState, ()⟩ : StageState Unit) = bootedWorker.stage from rfl, ← hstage]
    decide +kernel

/-- What the stage keeps within its caps the worker does: with an adapter whose fills stay within their
targets, the portfolio is within the caps whenever it is carried over, whatever the operators and the
risk engine do in between. -/
theorem worker_within_caps {I : σ → Prop}
    (hspec : AdapterSpec cfg.deps.adapter I fun _ _ _ => True) (hlimits : cfg.deps.limits.Valid)
    (h : Booted s) (hstart : StageSound cfg.deps.limits I s.stage)
    (events : List (WorkerEvent ω)) :
    (run (workerStep cfg) s events).stage.portfolio.WithinLimits cfg.deps.limits := by
  obtain ⟨ticks, -, hstage⟩ := (@refines_run ω σ cfg s h events).ended
  have hsound : StageSound cfg.deps.limits I (run (tickStep cfg.deps) s.stage ticks) :=
    run_keeps (fun stage tick h =>
      h.step hspec (sumsSpec_exact _) hlimits (tickMeets_true cfg.deps tick stage))
      hstart ticks
  rw [hstage]
  exact hsound.within

theorem worker_within_caps_sample :
    (run (workerStep sampleWorker) bootedWorker
      (clearedEvents ++ [sampleOrderEvent, .finish 103000])).stage.portfolio.byStrategy =
        [("momentum", "250000.00")] ∧
    (run (workerStep sampleWorker) bootedWorker
      (clearedEvents ++ [sampleOrderEvent, .finish 103000])).stage.portfolio.WithinLimits
        defaultRiskLimits := by
  refine ⟨by decide +kernel, ?_⟩
  exact @worker_within_caps Unit Unit sampleWorker bootedWorker (fun _ => True)
    (adapterSpec_phase5 (.inl rfl)) valid_defaultRiskLimits booted_bootedWorker
    ⟨trivial, wellFormed_emptyPortfolioState, withinLimits_empty valid_defaultRiskLimits⟩ _

end NexusQuant.Runtime
