import NexusQuant.Runtime.ArmedWorker

/-!
# Every order is cleared

What stands between a proposal and the adapter is spread over two hooks, an evaluation of the control
plane some time before and the gate of the stage, and an operator may stop trading between any two of
them.  `Cleared` is what all of this is worth for an order that was handed over: it holds of every such
order, in every run of the process.  A stop that is committed lets at most the one order through that
was cleared already, and a halt of the risk engine none.
-/

namespace NexusQuant.Runtime

open Control Execution Market Risk Rounding Run

variable {ω σ : Type} {cfg : WorkerConfig ω σ} {s : WorkerState ω σ}

/-! ## What an order is cleared by -/

/-- The permission is that of an evaluation at the instant `t`, made while the risk engine was armed
if it says so. -/
def EvaluatedAt (cfg : WorkerConfig ω σ) (perm : TradingPermission) (t : ℚ) (inputs : ControlInputs)
    (state : RuntimeState) : Prop :=
  perm = evaluateTradingPermission inputs (some state) ∧ inputs.now = .fin t ∧
    (inputs.riskEngineActive → cfg.riskEngine)

/-- The control hook read a switch that was off, and an evaluation that was not too old had found
everything it asks for. -/
structure ClearedByControl (cfg : WorkerConfig ω σ) (c : Clearance) : Prop where
  killSwitch : c.killSwitch.engaged = false
  permission : ∃ perm t inputs state, c.permission = some perm ∧ EvaluatedAt cfg perm t inputs state ∧
    Permitted inputs state ∧ c.readAt - t ≤ cfg.maxPermissionAgeMs

/-- The risk engine was running and approved an order of the notional of the proposal, which is within
its limits in the market as it then was. -/
structure ClearedByRisk (cfg : WorkerConfig ω σ) (proposal : ProposedAllocation) (call : RiskCall)
    (quote : Quote) : Prop where
  quoted : call.quote = .ok (some quote) ∧ 0 < parseDecimal quote.price
  notional : parseDecimal (proposedOrder riskConfig call.view proposal quote).targetNotional =
    parseDecimal proposal.targetNotional
  quantity : parseDecimal (proposedOrder riskConfig call.view proposal quote).targetQuantity =
    roundTo qtyDp (parseDecimal proposal.targetNotional / parseDecimal quote.price)
  limits : WithinRiskLimits riskConfig call.engine call.view
    (proposedOrder riskConfig call.view proposal quote)

structure Cleared (cfg : WorkerConfig ω σ) (x : HandedOrder) : Prop where
  control : cfg.controlPlane → ∃ c, x.clearance = some c ∧ ClearedByControl cfg c
  -- The plane permits nothing unless the engine is armed.
  armed : cfg.controlPlane → cfg.riskEngine
  risk : cfg.riskEngine → ∃ call quote, x.risk = some call ∧ ClearedByRisk cfg x.proposal call quote
  stage : Approved x.proposal (projectExposure x.portfolio x.proposal) cfg.deps.limits

/-! ## One step -/

section Settle

variable {flight : TickInFlight ω σ} {proposal : ProposedAllocation} {rest : List ProposedAllocation}
  {decision : Except String RiskGateDecision}

/-- The stage moves neither the switch nor the plane, the engine or the history of the orders, and
what it leaves in flight is not cleared. -/
theorem settle_frame :
    (s.settle cfg flight proposal rest decision).killSwitch = s.killSwitch ∧
      (s.settle cfg flight proposal rest decision).plane = s.plane ∧
      (s.settle cfg flight proposal rest decision).engine = s.engine ∧
      (s.settle cfg flight proposal rest decision).executed = s.executed ∧
      (s.settle cfg flight proposal rest decision).riskJournal = s.riskJournal ∧
      ∀ next ∈ (s.settle cfg flight proposal rest decision).inFlight,
        next.waiting = rest ∧ next.clearance = none := by
  unfold WorkerState.settle
  split
  · simp
  · simp [WorkerState.endTick]

end Settle

/-- The journal of the risk engine only grows. -/
theorem workerStep_riskJournal (e : WorkerEvent ω) :
    s.riskJournal <+: (workerStep cfg s e).riskJournal := by
  cases e with
  | operator a => exact List.prefix_refl _
  | evaluate around probes =>
      simp only [workerStep]
      split <;> exact List.prefix_refl _
  | evaluateThrows plane =>
      simp only [workerStep]
      split <;> exact List.prefix_refl _
  | begin tick =>
      simp only [workerStep]
      split
      · exact List.prefix_refl _
      · split <;> exact List.prefix_refl _
  | readSwitch failure now =>
      simp only [workerStep]
      split
      · split
        · split
          · exact List.prefix_refl _
          · rw [settle_frame.2.2.2.2.1]
        · exact List.prefix_refl _
      · exact List.prefix_refl _
  | order quote disk =>
      simp only [workerStep]
      split
      · split
        · exact List.prefix_refl _
        · unfold WorkerState.order
          dsimp only
          rw [settle_frame.2.2.2.2.1]
          exact List.prefix_append _ _
      · exact List.prefix_refl _
  | finish now =>
      simp only [workerStep]
      split
      · split <;> exact List.prefix_refl _
      · exact List.prefix_refl _

/-- An order is handed over by one step only, on a proposal the hooks have passed, and what the engine
journals for it is in its journal then. -/
theorem workerStep_executed (e : WorkerEvent ω) :
    (workerStep cfg s e).executed = s.executed ∨
    ∃ tick proposal rest progress clearance quote disk,
      s.inFlight = some ⟨tick, proposal :: rest, progress, clearance⟩ ∧ e = .order quote disk ∧
      (cfg.controlPlane → clearance.isSome) ∧
      reachesAdapter cfg (decided tick (riskDecision cfg
        ⟨s.engine, cfg.marketState progress.adapter, quote, disk⟩ proposal).result)
        progress proposal ∧
      (workerStep cfg s e).executed = s.executed ++ [⟨proposal, progress.state, clearance,
        if cfg.riskEngine then
          some ⟨s.engine, cfg.marketState progress.adapter, quote, disk⟩ else none⟩] ∧
      (workerStep cfg s e).riskJournal = s.riskJournal ++ (riskDecision cfg
        ⟨s.engine, cfg.marketState progress.adapter, quote, disk⟩ proposal).journaled := by
  cases e with
  | operator a => exact .inl rfl
  | evaluate around probes =>
      left
      simp only [workerStep]
      split <;> rfl
  | evaluateThrows plane =>
      left
      simp only [workerStep]
      split <;> rfl
  | begin tick =>
      left
      simp only [workerStep]
      split
      · rfl
      · split <;> rfl
  | readSwitch failure now =>
      left
      simp only [workerStep]
      split
      · split
        · split
          · rfl
          · exact settle_frame.2.2.2.1
        · rfl
      · rfl
  | order quote disk =>
      cases hflight : s.inFlight with
      | none => simp [workerStep, hflight]
      | some flight =>
          obtain ⟨tick, waiting, progress, clearance⟩ := flight
          cases waiting with
          | nil => simp [workerStep, hflight]
          | cons proposal rest =>
              simp only [workerStep, hflight]
              split
              · exact .inl rfl
              · rename_i hclear
                unfold WorkerState.order
                dsimp only
                rw [settle_frame.2.2.2.1, settle_frame.2.2.2.2.1]
                dsimp only
                split
                · rename_i hreaches
                  refine .inr ⟨tick, proposal, rest, progress, clearance, quote, disk, rfl, rfl, ?_,
                    hreaches, rfl, rfl⟩
                  intro hcontrol
                  cases clearance with
                  | none => exact absurd ⟨hcontrol, rfl⟩ hclear
                  | some c => rfl
                · exact .inl rfl
  | finish now =>
      left
      simp only [workerStep]
      split
      · split <;> rfl
      · rfl

/-- The hooks and the gate of the stage have passed what reaches the adapter. -/
theorem reachesAdapter_approved {tick : Execution.Tick ω} {progress : Progress σ}
    {proposal : ProposedAllocation} {decision : Except String RiskGateDecision}
    (h : reachesAdapter cfg (decided tick decision) progress proposal) :
    decision = .ok .approved ∧
      Approved proposal (projectExposure progress.state proposal) cfg.deps.limits := by
  unfold reachesAdapter at h
  rw [Bool.and_eq_true, decide_eq_true_eq] at h
  refine ⟨?_, approved_of_judge h.1⟩
  -- A hook that blocks or throws blocks before the gate is asked.
  have hjudge := h.1
  unfold judge preTrade decided at hjudge
  cases decision with
  | error message => cases hjudge
  | ok verdict =>
      cases verdict with
      | approved => rfl
      | blocked reason detail => cases hjudge

theorem lastPermission_evaluate (plane : ControlPlane) (tick : Control.Tick) :
    ∃ state, (Control.evaluate plane tick).plane.lastPermission =
      some (evaluateTradingPermission tick.inputs (some state)) :=
  ⟨_, rfl⟩

/-! ## The invariant -/

structure WorkerSound (cfg : WorkerConfig ω σ) (s : WorkerState ω σ) : Prop where
  permission : ∀ perm ∈ s.plane.lastPermission, ∃ t inputs state, EvaluatedAt cfg perm t inputs state
  waiting : ∀ flight ∈ s.inFlight, ∀ a ∈ flight.waiting, a.WellFormed
  clearance : ∀ flight ∈ s.inFlight, ∀ c ∈ flight.clearance, ClearedByControl cfg c
  executed : ∀ x ∈ s.executed, Cleared cfg x

/-- What the read of the switch clears. -/
theorem clearedByControl_of_approved (h : WorkerSound cfg s) {failure : Option String} {now : ℚ}
    (happroved : createControlExecutionGate (some cfg.maxPermissionAgeMs)
      ((failure.map Except.error).getD (.ok (getKillSwitch s.killSwitch.row)))
      s.plane.lastPermission now = .approved) :
    ClearedByControl cfg ⟨getKillSwitch s.killSwitch.row, s.plane.lastPermission, now⟩ := by
  obtain ⟨⟨view, hview, hengaged⟩, perm, hperm, hallowed, hage⟩ := controlGate_approved happroved
  obtain ⟨t, inputs, state, heq, hnow, harmed⟩ := h.permission perm hperm
  have hread : getKillSwitch s.killSwitch.row = view := by
    cases failure with
    | none => exact Except.ok.inj hview
    | some message => cases hview
  refine ⟨hread ▸ hengaged, perm, t, inputs, state, hperm, ⟨heq, hnow, harmed⟩, ?_, ?_⟩
  · exact permitted_of_allowed (heq ▸ hallowed)
  · exact hage t (heq ▸ hnow)

/-- What an order that reaches the adapter is cleared by. -/
theorem cleared_of_reaches (h : WorkerSound cfg s) {tick : Execution.Tick ω}
    {proposal : ProposedAllocation} {rest : List ProposedAllocation} {progress : Progress σ}
    {clearance : Option Clearance} {quote : Except String (Option Quote)} {disk : Disk}
    (hflight : s.inFlight = some ⟨tick, proposal :: rest, progress, clearance⟩)
    (hclear : cfg.controlPlane → clearance.isSome)
    (hreaches : reachesAdapter cfg (decided tick (riskDecision cfg
      ⟨s.engine, cfg.marketState progress.adapter, quote, disk⟩ proposal).result)
      progress proposal) :
    Cleared cfg ⟨proposal, progress.state, clearance, if cfg.riskEngine then
      some ⟨s.engine, cfg.marketState progress.adapter, quote, disk⟩ else none⟩ := by
  obtain ⟨hdecision, hstage⟩ := reachesAdapter_approved hreaches
  have hcontrol : cfg.controlPlane → ∃ c, clearance = some c ∧ ClearedByControl cfg c := by
    intro hon
    obtain ⟨c, hc⟩ := Option.isSome_iff_exists.mp (hclear hon)
    exact ⟨c, hc, h.clearance _ hflight c hc⟩
  refine ⟨hcontrol, ?_, ?_, hstage⟩
  · intro hon
    obtain ⟨c, -, -, perm, t, inputs, state, -, heval, hpermitted, -⟩ := hcontrol hon
    exact heval.2.2 hpermitted.riskEngine
  · intro hrisk
    unfold riskDecision at hdecision
    rw [if_pos hrisk] at hdecision
    obtain ⟨q, capital, hquote, hprice, happroved, -⟩ := riskGate_approved hdecision
    have hwell := h.waiting _ hflight proposal List.mem_cons_self
    obtain ⟨hnotional, hquantity⟩ := proposedOrder_amounts riskConfig
      (cfg.marketState progress.adapter) hwell.quantized hstage.positive hprice
    have hlimits := withinRiskLimits_of_approved happroved
    exact ⟨_, q, if_pos hrisk, ⟨hquote, hprice⟩, hnotional, hquantity hlimits.positive.1, hlimits⟩

/-- A step that settles a proposal leaves the others waiting and nothing cleared. -/
theorem WorkerSound.settle (h : WorkerSound cfg s) {flight : TickInFlight ω σ}
    {proposal : ProposedAllocation} {rest : List ProposedAllocation}
    {decision : Except String RiskGateDecision} (hrest : ∀ a ∈ rest, a.WellFormed) :
    WorkerSound cfg (s.settle cfg flight proposal rest decision) := by
  obtain ⟨-, hplane, -, hexecuted, -, hnext⟩ := @settle_frame ω σ cfg s flight proposal rest decision
  constructor
  · rw [hplane]
    exact h.permission
  · intro next hmem
    rw [(hnext next hmem).1]
    exact hrest
  · intro next hmem c hc
    rw [(hnext next hmem).2] at hc
    cases hc
  · rw [hexecuted]
    exact h.executed

theorem WorkerSound.endTick (h : WorkerSound cfg s) (flight : TickInFlight ω σ)
    (portfolio : PortfolioState) (progress : Progress σ) :
    WorkerSound cfg (s.endTick flight portfolio progress) := by
  refine ⟨h.permission, ?_, ?_, h.executed⟩
  · intro next hnext
    cases hnext
  · intro next hnext
    cases hnext

theorem WorkerSound.step (h : WorkerSound cfg s) (e : WorkerEvent ω) :
    WorkerSound cfg (workerStep cfg s e) := by
  cases e with
  | operator a => exact ⟨h.permission, h.waiting, h.clearance, h.executed⟩
  | evaluate around probes =>
      simp only [workerStep]
      split
      · refine ⟨?_, h.waiting, h.clearance, h.executed⟩
        intro perm hperm
        -- The new permission is that of the inputs that were just gathered.
        obtain ⟨state, heq⟩ := lastPermission_evaluate s.plane ⟨gatherControlInputs around
          s.killSwitch.row s.lastExecutionAt (isRiskActive cfg s), probes⟩
        rw [Option.mem_def, heq, Option.some.injEq] at hperm
        refine ⟨around.now, _, state, hperm.symm, rfl, ?_⟩
        intro hactive
        exact (Bool.and_eq_true _ _ ▸ hactive : _ ∧ _).1
      · exact h
  | evaluateThrows plane =>
      simp only [workerStep]
      split
      · exact ⟨h.permission, h.waiting, h.clearance, h.executed⟩
      · exact h
  | begin tick =>
      simp only [workerStep]
      split
      · exact h
      · split
        · exact ⟨h.permission, h.waiting, h.clearance, h.executed⟩
        · rename_i proposals hproposals
          refine ⟨h.permission, ?_, ?_, h.executed⟩
          · intro flight hflight
            cases hflight
            exact aggregateDecisions_wellFormed hproposals
          · intro flight hflight c hc
            cases hflight
            cases hc
  | readSwitch failure now =>
      simp only [workerStep]
      split
      · rename_i tick proposal rest progress hflight
        have hwaiting := h.waiting _ hflight
        split
        · split
          · rename_i happroved
            refine ⟨h.permission, ?_, ?_, h.executed⟩
            · intro flight hmem
              cases hmem
              exact hwaiting
            · -- What goes on to the adapter carries the clearance it was read with.
              intro flight hmem c hc
              cases hmem
              cases hc
              exact clearedByControl_of_approved h happroved
          · exact h.settle fun a ha => hwaiting a (List.mem_cons_of_mem proposal ha)
        · exact h
      · exact h
  | order quote disk =>
      -- The orders first: the old ones, and at most the one whose clearance is in flight.
      have hexecuted : ∀ x ∈ (workerStep cfg s (.order quote disk)).executed, Cleared cfg x := by
        rcases workerStep_executed (.order quote disk) with hsame | hmore
        · rw [hsame]
          exact h.executed
        · obtain ⟨tick, proposal, rest, progress, clearance, quote', disk', hflight, -, hclear,
            hreaches, hadd, -⟩ := hmore
          rw [hadd]
          intro x hx
          rcases List.mem_append.mp hx with hold | hnew
          · exact h.executed x hold
          · rw [List.mem_singleton.mp hnew]
            exact cleared_of_reaches h hflight hclear hreaches
      revert hexecuted
      simp only [workerStep]
      split
      · rename_i tick proposal rest progress clearance hflight
        have hrest : ∀ a ∈ rest, a.WellFormed := fun a ha =>
          h.waiting _ hflight a (List.mem_cons_of_mem proposal ha)
        split
        · exact fun _ => h
        · intro hexecuted
          unfold WorkerState.order at hexecuted ⊢
          dsimp only at hexecuted ⊢
          rw [settle_frame.2.2.2.1] at hexecuted
          apply WorkerSound.settle _ hrest
          exact ⟨h.permission, h.waiting, h.clearance, hexecuted⟩
      · exact fun _ => h
  | finish now =>
      simp only [workerStep]
      split
      · rename_i tick progress clearance hflight
        have hended := h.endTick ⟨tick, [], progress, clearance⟩ progress.state progress
        split
        · exact ⟨hended.permission, hended.waiting, hended.clearance, hended.executed⟩
        · exact hended
      · exact h

theorem workerSound_booted (h : Booted s) : WorkerSound cfg s where
  permission := by simp [h.permission]
  waiting := by simp [h.idle]
  clearance := by simp [h.idle]
  executed := by simp [h.executed]

/-- In every run of the process every order that was handed to the adapter had been cleared: by a read
of the kill switch and a recent permission, by the risk engine for its own notional, and by the gate of
the stage. -/
theorem executed_cleared (h : Booted s) (events : List (WorkerEvent ω)) :
    ∀ x ∈ (run (workerStep cfg) s events).executed, Cleared cfg x := by
  have hsound : WorkerSound cfg (run (workerStep cfg) s events) :=
    run_keeps (fun _ e h => h.step e) (workerSound_booted h) events
  exact hsound.executed

theorem executed_cleared_sample :
    ∃ x, (run (workerStep sampleWorker) bootedWorker (clearedEvents ++ [sampleOrderEvent])).executed =
      [x] ∧ Cleared sampleWorker x := by
  have hone : (run (workerStep sampleWorker) bootedWorker
      (clearedEvents ++ [sampleOrderEvent])).executed.length = 1 := by decide +kernel
  obtain ⟨x, hx⟩ := List.length_eq_one_iff.mp hone
  exact ⟨x, hx, executed_cleared booted_bootedWorker _ x (hx ▸ List.mem_singleton_self x)⟩

/-! ## One journaled check for each order -/

/-- The order a handed proposal was checked as. -/
def HandedOrder.order? (x : HandedOrder) : Option ProposedOrder :=
  x.risk.bind fun call =>
    match call.quote with
    | .ok (some quote) => some (proposedOrder riskConfig call.view x.proposal quote)
    | _ => none

/-- The orders of the passed checks of a journal. -/
def passedOrders (records : List RiskJournalRecord) : List ProposedOrder :=
  records.filterMap fun r => if r.type = .riskCheckPassed then r.order else none

/-- The orders handed over are among those of the passed checks, in their order. -/
def OneCheckEach (s : WorkerState ω σ) : Prop :=
  ∃ orders : List ProposedOrder, s.executed.map HandedOrder.order? = orders.map some ∧
    orders.Sublist (passedOrders s.riskJournal)

theorem passedOrders_append (records more : List RiskJournalRecord) :
    passedOrders (records ++ more) = passedOrders records ++ passedOrders more :=
  List.filterMap_append

theorem OneCheckEach.step (hrisk : cfg.riskEngine) (h : OneCheckEach s) (e : WorkerEvent ω) :
    OneCheckEach (workerStep cfg s e) := by
  obtain ⟨orders, hmap, hsub⟩ := h
  rcases workerStep_executed e with hsame | hmore
  · obtain ⟨more, hjournal⟩ := @workerStep_riskJournal ω σ cfg s e
    refine ⟨orders, by rw [hsame, hmap], ?_⟩
    rw [← hjournal, passedOrders_append]
    exact hsub.trans (List.sublist_append_left _ _)
  · obtain ⟨tick, proposal, rest, progress, clearance, quote, disk, -, -, -, hreaches, hadd, hjournal⟩
      := hmore
    obtain ⟨hdecision, -⟩ := reachesAdapter_approved hreaches
    unfold riskDecision at hdecision hjournal
    rw [if_pos hrisk] at hdecision hjournal
    obtain ⟨q, capital, hquote, -, happroved, hgate⟩ := riskGate_approved hdecision
    obtain ⟨record, hone, htype, horder⟩ := journaled_of_approved happroved
    rw [hgate] at hjournal
    dsimp only at hquote hjournal
    rw [hone] at hjournal
    refine ⟨orders ++ [proposedOrder riskConfig (cfg.marketState progress.adapter) proposal q], ?_, ?_⟩
    · rw [hadd, List.map_append, List.map_append, hmap, if_pos hrisk, hquote]
      rfl
    · rw [hjournal, passedOrders_append]
      apply hsub.append
      simp [passedOrders, htype, horder]

/-- With the risk engine on, the orders handed to the adapter are those of different passed checks of
the risk journal, in the order in which these were journaled. -/
theorem executed_journaled (hrisk : cfg.riskEngine) (h : Booted s) (events : List (WorkerEvent ω)) :
    ∃ orders : List ProposedOrder,
      (run (workerStep cfg) s events).executed.map HandedOrder.order? = orders.map some ∧
      orders.Sublist (passedOrders (run (workerStep cfg) s events).riskJournal) := by
  have hstart : OneCheckEach s := ⟨[], by rw [h.executed]; rfl, List.nil_sublist _⟩
  exact run_keeps (fun _ e h => h.step hrisk e) hstart events

theorem executed_journaled_sample :
    ∃ order, passedOrders (run (workerStep sampleWorker) bootedWorker
      (clearedEvents ++ [sampleOrderEvent])).riskJournal = [order] ∧
    (run (workerStep sampleWorker) bootedWorker
      (clearedEvents ++ [sampleOrderEvent])).executed.map HandedOrder.order? = [some order] := by
  have hone : (run (workerStep sampleWorker) bootedWorker
      (clearedEvents ++ [sampleOrderEvent])).executed.length = 1 := by decide +kernel
  have hpassed : (passedOrders (run (workerStep sampleWorker) bootedWorker
      (clearedEvents ++ [sampleOrderEvent])).riskJournal).length = 1 := by decide +kernel
  obtain ⟨orders, hmap, hsub⟩ := @executed_journaled Unit Unit sampleWorker bootedWorker rfl
    booted_bootedWorker (clearedEvents ++ [sampleOrderEvent])
  have hlength : orders.length = 1 := by
    rw [← List.length_map, ← hmap, List.length_map, hone]
  rw [← hsub.eq_of_length (hlength.trans hpassed.symm), hmap]
  obtain ⟨order, horder⟩ := List.length_eq_one_iff.mp hlength
  exact ⟨order, horder, by rw [horder]; rfl⟩

/-! ## A stop -/

/-- The proposal that has passed the control hook and is not settled. -/
def cleared? (s : WorkerState ω σ) : Option (ProposedAllocation × Clearance) :=
  match s.inFlight with
  | some ⟨_, proposal :: _, _, some clearance⟩ => some (proposal, clearance)
  | _ => none

/-- The step commits a resume. -/
def Resumes (s : WorkerState ω σ) : WorkerEvent ω → Prop
  | .operator (.upsert i outcome) => outcome ≠ .failed ∧
      ∃ call, s.killSwitch.callAt i .upsert = some call ∧ call.command = .resume
  | _ => False

theorem cleared?_settle {flight : TickInFlight ω σ} {proposal : ProposedAllocation}
    {rest : List ProposedAllocation} {decision : Except String RiskGateDecision} :
    cleared? (s.settle cfg flight proposal rest decision) = none := by
  have hnext := (@settle_frame ω σ cfg s flight proposal rest decision).2.2.2.2.2
  unfold cleared?
  split
  · rename_i hflight
    cases (hnext _ hflight).2
  · rfl

theorem engaged_killStep {k : KillState} (hengaged : (getKillSwitch k.row).engaged) {a : KillStep}
    (hkill : ∀ i outcome call, a = .upsert i outcome → outcome ≠ .failed →
      k.callAt i .upsert = some call → call.command = .kill) :
    (getKillSwitch (killStep k a).row).engaged := by
  -- Only an upsert that is committed moves the row.
  have hupsert : ∀ call : KillCall, call.command = .kill →
      (getKillSwitch (k.apply call).row).engaged := by
    intro call hcall
    simp [KillState.apply, KillCall.upsert, getKillSwitch, hcall]
  cases a with
  | begin call => exact hengaged
  | upsert i outcome =>
      simp only [killStep]
      cases hcall : k.callAt i .upsert with
      | none => exact hengaged
      | some call =>
          cases outcome with
          | done => exact hupsert call (hkill i .done call rfl (by simp) hcall)
          | failed => exact hengaged
          | lost => exact hupsert call (hkill i .lost call rfl (by simp) hcall)
  | audit i outcome =>
      simp only [killStep]
      cases hcall : k.callAt i .audit with
      | none => exact hengaged
      | some call =>
          cases outcome with
          | done =>
              dsimp only
              split <;> exact hengaged
          | failed => exact hengaged
          | lost => exact hengaged
  | read i outcome =>
      simp only [killStep]
      cases hcall : k.callAt i .read with
      | none => exact hengaged
      | some call => cases outcome <;> exact hengaged
  | crash i => exact hengaged
  | note entry =>
      simp only [killStep]
      split <;> exact hengaged

/-- While trading is stopped nothing is cleared; the one proposal that was cleared before stays so until
it is settled. -/
theorem cleared?_step (hcontrol : cfg.controlPlane)
    (hengaged : (getKillSwitch s.killSwitch.row).engaged) (e : WorkerEvent ω) :
    (cleared? (workerStep cfg s e) = none ∨ cleared? (workerStep cfg s e) = cleared? s) ∧
    ((workerStep cfg s e).executed = s.executed ∨
      ∃ x c, cleared? s = some (x.proposal, c) ∧ x.clearance = some c ∧
        (workerStep cfg s e).executed = s.executed ++ [x] ∧ cleared? (workerStep cfg s e) = none) := by
  constructor
  · cases e with
    | operator a => exact .inr rfl
    | evaluate around probes =>
        simp only [workerStep]
        split <;> exact .inr rfl
    | evaluateThrows plane =>
        simp only [workerStep]
        split <;> exact .inr rfl
    | begin tick =>
        simp only [workerStep]
        split
        · exact .inr rfl
        · split
          · exact .inr rfl
          · left
            unfold cleared?
            split
            · rename_i hflight
              cases hflight
            · rfl
    | readSwitch failure now =>
        simp only [workerStep]
        split
        · rw [if_pos hcontrol]
          split
          · rename_i happroved
            -- The switch that is read is engaged, or it could not be read.
            obtain ⟨⟨view, hview, hoff⟩, -⟩ := controlGate_approved happroved
            cases failure with
            | none =>
                cases hview
                rw [hoff] at hengaged
                cases hengaged
            | some message => cases hview
          · exact .inl cleared?_settle
        · exact .inr rfl
    | order quote disk =>
        simp only [workerStep]
        split
        · split
          · exact .inr rfl
          · exact .inl cleared?_settle
        · exact .inr rfl
    | finish now =>
        simp only [workerStep]
        split
        · split <;> exact .inl rfl
        · exact .inr rfl
  · rcases workerStep_executed e with hsame | hmore
    · exact .inl hsame
    · obtain ⟨tick, proposal, rest, progress, clearance, quote, disk, hflight, rfl, hclear, -, hadd, -⟩
        := hmore
      obtain ⟨c, rfl⟩ := Option.isSome_iff_exists.mp (hclear hcontrol)
      refine .inr ⟨_, c, by rw [cleared?, hflight], rfl, hadd, ?_⟩
      simp only [workerStep, hflight, Option.isNone_some, Bool.false_eq_true, and_false, if_false]
      exact cleared?_settle

/-- Since trading was stopped in `start` nothing was handed over, or the one order was that had been
cleared by then. -/
structure SinceStop (start s : WorkerState ω σ) : Prop where
  engaged : (getKillSwitch s.killSwitch.row).engaged
  handed : (s.executed = start.executed ∧ (cleared? s = none ∨ cleared? s = cleared? start)) ∨
    ∃ x c, cleared? start = some (x.proposal, c) ∧ x.clearance = some c ∧
      s.executed = start.executed ++ [x] ∧ cleared? s = none

theorem engaged_step (hengaged : (getKillSwitch s.killSwitch.row).engaged) {e : WorkerEvent ω}
    (hresume : ¬ Resumes s e) :
    (getKillSwitch (workerStep cfg s e).killSwitch.row).engaged := by
  cases e with
  | operator a =>
      apply engaged_killStep hengaged
      intro i outcome call ha hdone hcall
      cases hcommand : call.command with
      | kill => rfl
      | resume =>
          rw [ha] at hresume
          exact absurd ⟨hdone, call, hcall, hcommand⟩ hresume
  | evaluate around probes =>
      simp only [workerStep]
      split <;> exact hengaged
  | evaluateThrows plane =>
      simp only [workerStep]
      split <;> exact hengaged
  | begin tick =>
      simp only [workerStep]
      split
      · exact hengaged
      · split <;> exact hengaged
  | readSwitch failure now =>
      simp only [workerStep]
      split
      · split
        · split
          · exact hengaged
          · rw [settle_frame.1]
            exact hengaged
        · exact hengaged
      · exact hengaged
  | order quote disk =>
      simp only [workerStep]
      split
      · split
        · exact hengaged
        · unfold WorkerState.order
          dsimp only
          rw [settle_frame.1]
          exact hengaged
      · exact hengaged
  | finish now =>
      simp only [workerStep]
      split
      · split <;> exact hengaged
      · exact hengaged

theorem SinceStop.step {start : WorkerState ω σ} (hcontrol : cfg.controlPlane)
    (h : SinceStop start s) {e : WorkerEvent ω} (hresume : ¬ Resumes s e) :
    SinceStop start (workerStep cfg s e) := by
  obtain ⟨hcleared, hexecuted⟩ := cleared?_step hcontrol h.engaged e
  refine ⟨engaged_step h.engaged hresume, ?_⟩
  rcases h.handed with ⟨hsame, hstill⟩ | ⟨x, c, hstart, hx, hone, hnone⟩
  · rcases hexecuted with hkept | ⟨x, c, hx, hc, hadd, hnone⟩
    · refine .inl ⟨hkept.trans hsame, ?_⟩
      rcases hcleared with hgone | hthere
      · exact .inl hgone
      · rw [hthere]
        exact hstill
    · -- What is handed over now was cleared, so it is what was cleared at the stop.
      have hold : cleared? s = cleared? start := hstill.resolve_left (by simp [hx])
      exact .inr ⟨x, c, hold ▸ hx, hc, by rw [hadd, hsame], hnone⟩
  · have hnow : cleared? (workerStep cfg s e) = none := by
      rcases hcleared with hgone | hthere
      · exact hgone
      · exact hthere.trans hnone
    rcases hexecuted with hkept | ⟨y, d, hy, -⟩
    · exact .inr ⟨x, c, hstart, hx, hkept.trans hone, hnow⟩
    · rw [hnone] at hy
      cases hy

/-- From a state in which the kill switch is engaged, until a resume is committed, at most one more
order is handed to the adapter: that of the proposal that had passed the control hook by then. -/
theorem stop_lets_at_most_one_through (hcontrol : cfg.controlPlane)
    (hengaged : (getKillSwitch s.killSwitch.row).engaged) {events : List (WorkerEvent ω)}
    (hresume : RunMeets (workerStep cfg) (fun s e => ¬ Resumes s e) s events) :
    (run (workerStep cfg) s events).executed = s.executed ∨
    ∃ x c, cleared? s = some (x.proposal, c) ∧ x.clearance = some c ∧
      (run (workerStep cfg) s events).executed = s.executed ++ [x] := by
  have hstart : SinceStop s s := ⟨hengaged, .inl ⟨rfl, .inr rfl⟩⟩
  have hend : SinceStop s (run (workerStep cfg) s events) :=
    run_invariant (fun _ _ h hresume => h.step hcontrol hresume) hstart hresume
  rcases hend.handed with ⟨hsame, -⟩ | ⟨x, c, hstart, hx, hone, -⟩
  · exact .inl hsame
  · exact .inr ⟨x, c, hstart, hx, hone⟩

/-- A kill is committed after the clearance: the order goes out, the one of the next tick does not. -/
theorem stop_lets_at_most_one_through_sample :
    ∃ x, (run (workerStep sampleWorker) killedWorker
      ([sampleOrderEvent, .finish 103000] ++ clearedEvents ++ [sampleOrderEvent])).executed = [x] ∧
      ∃ c, cleared? killedWorker = some (x.proposal, c) := by
  have hone : (run (workerStep sampleWorker) killedWorker
      ([sampleOrderEvent, .finish 103000] ++ clearedEvents ++ [sampleOrderEvent])).executed.length =
        1 := by decide +kernel
  have hnone : killedWorker.executed = [] := List.length_eq_zero_iff.mp (by decide +kernel)
  rcases @stop_lets_at_most_one_through Unit Unit sampleWorker killedWorker rfl (by decide +kernel)
    ([sampleOrderEvent, .finish 103000] ++ clearedEvents ++ [sampleOrderEvent])
    ⟨id, id, id, id, id, id, trivial⟩ with hsame | ⟨x, c, hx, -, hadd⟩
  · rw [hsame, hnone] at hone
    cases hone
  · exact ⟨x, hadd.trans (by rw [hnone]; rfl), c, hx⟩

/-! ## A halt -/

/-- Nothing in the process moves a halted engine, and nothing is handed over past it. -/
theorem halted_step (hrisk : cfg.riskEngine) (hhalted : s.engine.state.halted = true)
    (e : WorkerEvent ω) :
    (workerStep cfg s e).engine = s.engine ∧ (workerStep cfg s e).executed = s.executed := by
  constructor
  · cases e with
    | operator a => rfl
    | evaluate around probes =>
        simp only [workerStep]
        split <;> rfl
    | evaluateThrows plane =>
        simp only [workerStep]
        split <;> rfl
    | begin tick =>
        simp only [workerStep]
        split
        · rfl
        · split <;> rfl
    | readSwitch failure now =>
        simp only [workerStep]
        split
        · split
          · split
            · rfl
            · exact settle_frame.2.2.1
          · rfl
        · rfl
    | order quote disk =>
        simp only [workerStep]
        split
        · split
          · rfl
          · unfold WorkerState.order
            dsimp only
            rw [settle_frame.2.2.1]
            dsimp only
            unfold riskDecision
            rw [if_pos hrisk]
            exact (riskGate_halted hhalted).2
        · rfl
    | finish now =>
        simp only [workerStep]
        split
        · split <;> rfl
        · rfl
  · rcases workerStep_executed e with hsame | hmore
    · exact hsame
    · obtain ⟨tick, proposal, rest, progress, clearance, quote, disk, -, -, -, hreaches, -⟩ := hmore
      obtain ⟨hdecision, -⟩ := reachesAdapter_approved hreaches
      unfold riskDecision at hdecision
      rw [if_pos hrisk] at hdecision
      exact absurd hdecision (riskGate_halted hhalted).1

/-- Once the risk engine is halted no order is handed to the adapter for the rest of the process: it has
no reset. -/
theorem no_order_after_halt (hrisk : cfg.riskEngine) (hhalted : s.engine.state.halted = true)
    (events : List (WorkerEvent ω)) :
    (run (workerStep cfg) s events).executed = s.executed := by
  have hinv : ∀ t : WorkerState ω σ, ∀ e,
      (t.engine = s.engine ∧ t.executed = s.executed) →
      (workerStep cfg t e).engine = s.engine ∧ (workerStep cfg t e).executed = s.executed := by
    intro t e ⟨hengine, hexecuted⟩
    obtain ⟨hsame, hnone⟩ := @halted_step ω σ cfg t hrisk (hengine ▸ hhalted) e
    exact ⟨hsame.trans hengine, hnone.trans hexecuted⟩
  exact (run_keeps hinv ⟨rfl, rfl⟩ events).2

/-- An engine that was halted by hand. -/
def haltedWorker : WorkerState Unit Unit :=
  { bootedWorker with
    engine := ⟨⟨[], none⟩, { initialRiskControlState with halted := true, trigger := some .manual }⟩ }

theorem no_order_after_halt_sample :
    (run (workerStep sampleWorker) haltedWorker (clearedEvents ++ [sampleOrderEvent])).executed = [] :=
  no_order_after_halt rfl rfl _

end NexusQuant.Runtime
