import NexusQuant.Risk.HaltRecovery

/-!
# What an approval says

The conditions of an approval are split over the kill switch, the pre-trade gate, the capital model
and the journal.  A comparison with NaN is false, so a check is only worth something on limits that
are known to be numbers: the gate requires this of five of the six.  `SoundApproval` is what an
approval should say, and it does so exactly when the sixth, `maxDrawdown`, is a positive number.
-/

namespace NexusQuant.Risk

open Execution Journal Market

/-- A limit that can refuse something: a finite positive number. -/
def Usable (x : JsNumber) : Prop := x.isFinite ∧ JsNumber.lt (.fin 0) x

instance (x : JsNumber) : Decidable (Usable x) := inferInstanceAs (Decidable (_ ∧ _))

/-- What an approval of `order` should say about the engine, the limits, the market and the journal.
The ratios are exact, the projected amounts and the concentration rounded as the gate rounds them. -/
structure SoundApproval (texts : FileRiskEventStore.Texts) (cfg : RiskEngineConfig) (e : RiskEngine)
    (order : ProposedOrder) (view : MarketView) (health : HealthSignals) (capital : CapitalSnapshot)
    (o : Outcome RiskDecision) : Prop where
  running : e.state.halted = false
  limits : Usable cfg.limits.maxPositionSize ∧ Usable cfg.limits.maxPositionNotional ∧
    Usable cfg.limits.maxLeverage ∧ Usable cfg.limits.dailyLossLimit ∧
    Usable cfg.limits.maxAssetAllocation ∧ Usable cfg.limits.maxDrawdown
  equity : 0 < parseDecimal capital.accountEquity
  health : health = {}
  leverage : JsNumber.le (.fin (parseDecimal capital.grossExposure /
    parseDecimal capital.accountEquity)) cfg.limits.maxLeverage
  leverageAfter : JsNumber.le (.fin (parseDecimal
    (projectOrder view.positions capital order cfg.accountConfig.leverage).grossExposureAfter /
      parseDecimal capital.accountEquity)) cfg.limits.maxLeverage
  quantity : JsNumber.le (.fin (parseDecimal order.targetQuantity)) cfg.limits.maxPositionSize
  notional : JsNumber.le (.fin (parseDecimal order.targetNotional)) cfg.limits.maxPositionNotional
  margin : parseDecimal
      (projectOrder view.positions capital order cfg.accountConfig.leverage).requiredMargin ≤
    parseDecimal capital.availableMargin
  dailyLoss : ∀ baseline ∈ e.state.baselineEquity, JsNumber.le (-cfg.limits.dailyLossLimit)
    (.fin (parseDecimal capital.accountEquity - parseDecimal baseline))
  drawdown : ∀ peak ∈ e.state.peakEquity, 0 < parseDecimal peak → JsNumber.le
    (.fin ((parseDecimal peak - parseDecimal capital.accountEquity) / parseDecimal peak))
    cfg.limits.maxDrawdown
  concentration : JsNumber.le (.fin (parseDecimal
    (projectOrder view.positions capital order cfg.accountConfig.leverage).concentration))
    cfg.limits.maxAssetAllocation
  journaled : ∃ record : RiskJournalRecord, o.journaled = [record] ∧
    record.type = .riskCheckPassed ∧ record.order = some order ∧
    o.engine.store.file = e.store.file ++ line riskFormat texts record

/-! ## The gate -/

theorem applyRules_approved {rules : List GateRule} {checks checks' : List GateCheck}
    (h : applyRules checks rules = .approved checks') : ∀ rule ∈ rules, rule.fails = false := by
  induction rules generalizing checks with
  | nil => simp
  | cons rule rules ih =>
      rw [applyRules] at h
      split at h
      · cases h
      · rename_i hpass
        intro r hr
        rcases List.mem_cons.mp hr with rfl | hr
        · exact Bool.not_eq_true _ ▸ hpass
        · exact ih h r hr

/-- An approval of the gate: the inputs were validated, the equity is positive, and none of the six
checks fails. -/
theorem evaluatePreTrade_approved {order : ProposedOrder} {projection : OrderProjection}
    {capital : CapitalSnapshot} {limits : RiskLimits} {dailyPnL : JsNumber} {checks : List GateCheck}
    (h : evaluatePreTrade order projection capital limits dailyPnL = .approved checks) :
    validInputs order limits dailyPnL ∧ 0 < parseDecimal capital.accountEquity ∧
      ∀ rule ∈ gateRules order projection capital limits dailyPnL, rule.fails = false := by
  unfold evaluatePreTrade at h
  dsimp only at h
  split at h
  · cases h
  · rename_i hvalid
    simp only [Bool.or_eq_true, Bool.not_eq_true', not_or, Bool.not_eq_false,
      decide_eq_true_eq] at hvalid
    exact ⟨hvalid.1, hvalid.2, applyRules_approved h⟩

/-- The limits the gate validates. -/
theorem usable_of_validInputs {order : ProposedOrder} {limits : RiskLimits} {dailyPnL : JsNumber}
    (h : validInputs order limits dailyPnL) :
    Usable limits.maxPositionSize ∧ Usable limits.maxPositionNotional ∧
      Usable limits.maxLeverage ∧ Usable limits.dailyLossLimit ∧ Usable limits.maxAssetAllocation := by
  unfold validInputs at h
  simp only [List.all_cons, List.all_nil, Bool.and_true, Bool.and_eq_true] at h
  exact ⟨h.1.1.1, h.1.1.2.1, h.1.1.2.2.1, h.1.1.2.2.2.1, h.1.1.2.2.2.2⟩

/-! ## The kill switch -/

/-- Without a trip: no breach, and no health flag. -/
theorem evaluateTriggers_none {capital : CapitalSnapshot} {limits : RiskLimits}
    {dailyPnL drawdown : JsNumber} {health : HealthSignals}
    (h : evaluateTriggers capital limits dailyPnL drawdown health = none) :
    (dailyPnL.isFinite → JsNumber.lt dailyPnL (-limits.dailyLossLimit) = false) ∧
    (drawdown.isFinite → JsNumber.lt limits.maxDrawdown drawdown = false) ∧
    leverageTrigger capital limits = none ∧ health = {} := by
  unfold evaluateTriggers at h
  split at h
  · cases h
  · rename_i hloss
    split at h
    · cases h
    · rename_i hdrawdown
      -- Past the loss and the drawdown neither of the two remaining triggers has fired.
      have hor := Option.or_eq_none_iff.mp h
      have hhealth : health = {} := by
        obtain ⟨stale, recovery, journal, exchange⟩ := health
        have hnone := hor.2
        unfold healthTrigger at hnone
        cases stale <;> cases recovery <;> cases journal <;> cases exchange <;> first | rfl | cases hnone
      exact ⟨by simpa using hloss, by simpa using hdrawdown, hor.1, hhealth⟩

theorem leverage_of_trigger_none {capital : CapitalSnapshot} {limits : RiskLimits}
    (hequity : 0 < parseDecimal capital.accountEquity)
    (h : leverageTrigger capital limits = none) :
    JsNumber.lt limits.maxLeverage
      (.fin (parseDecimal capital.grossExposure / parseDecimal capital.accountEquity)) = false := by
  unfold leverageTrigger at h
  rw [if_pos hequity] at h
  split at h
  · cases h
  · rename_i hle
    exact Bool.not_eq_true _ ▸ hle

theorem currentDrawdown_fin {peak : ℚ} (hpeak : 0 < peak) (equity : ℚ) :
    currentDrawdown (.fin peak) (.fin equity) = .fin (max 0 ((peak - equity) / peak)) := by
  unfold currentDrawdown
  rw [JsNumber.fin_sub, JsNumber.fin_div hpeak.ne']
  by_cases hpos : 0 < (peak - equity) / peak
  · simp [JsNumber.fin_lt, hpeak, hpos, hpos.le]
  · simp [JsNumber.fin_lt, hpeak, hpos, not_lt.mp hpos]

/-- The drawdown that is checked covers the one from the journaled peak. -/
theorem le_currentDrawdown {peak : ℚ} (hpeak : 0 < peak) (equity : ℚ) :
    ∃ d, currentDrawdown (.fin (max peak equity)) (.fin equity) = .fin d ∧
      (peak - equity) / peak ≤ d := by
  have hmax : 0 < max peak equity := lt_max_of_lt_left hpeak
  refine ⟨_, currentDrawdown_fin hmax equity, ?_⟩
  by_cases hbelow : equity < peak
  · -- the journaled peak is the one that counts
    rw [max_eq_left hbelow.le]
    exact le_max_right _ _
  · -- a new peak: there is no drawdown from the old one
    have hnone : (peak - equity) / peak ≤ 0 :=
      div_nonpos_of_nonpos_of_nonneg (by linarith) hpeak.le
    exact hnone.trans (le_max_left _ _)

/-! ## The evaluation -/

/-- What an evaluation that reaches the gate has found. -/
theorem assess_judged {cfg : RiskEngineConfig} {state : RiskControlState} {order : ProposedOrder}
    {view : MarketView} {health : HealthSignals} {capital : CapitalSnapshot} {verdict : GateVerdict}
    (h : assess cfg state order view health capital = .judged verdict) :
    let equity := parseDecimal capital.accountEquity
    let dailyPnL := JsNumber.fin (equity - (state.baselineEquity.map parseDecimal).getD equity)
    state.halted = false ∧
    evaluateTriggers capital cfg.limits dailyPnL
      (currentDrawdown (JsNumber.max ((state.peakEquity.map fun p =>
        JsNumber.fin (parseDecimal p)).getD .negInf) (.fin equity)) (.fin equity)) health = none ∧
    evaluatePreTrade order (projectOrder view.positions capital order cfg.accountConfig.leverage)
      capital cfg.limits dailyPnL = verdict := by
  -- A halted engine and a trip return before the gate is asked.
  unfold assess at h
  split at h
  · cases h
  · rename_i hrunning
    dsimp only at h
    split at h
    · cases h
    · rename_i hnone
      exact ⟨Bool.not_eq_true _ ▸ hrunning, hnone, Assessment.judged.inj h⟩

section Approval

variable {texts : FileRiskEventStore.Texts} {cfg : RiskEngineConfig} {e : RiskEngine}
  {order : ProposedOrder} {view : MarketView} {health : HealthSignals} {disk : Disk}

/-- A single append completes and puts its line at the end of the file, or it journals nothing. -/
theorem appendEach_single (input : RiskJournalInput) (writes : List Write) :
    ((appendEach texts e [input] writes).failed = false ∧
      ∃ record : RiskJournalRecord, record.toRiskJournalInput = input ∧
        (appendEach texts e [input] writes).journaled = [record] ∧
        (appendEach texts e [input] writes).engine.store.file =
          e.store.file ++ line riskFormat texts record) ∨
    ((appendEach texts e [input] writes).failed = true ∧
      (appendEach texts e [input] writes).journaled = []) := by
  unfold appendEach appendAndFold FileRiskEventStore.append append
  -- Two things can fail: numbering the record, and writing its line.
  cases hseq : assignSeq riskFormat texts e.store with
  | error err => exact .inr ⟨rfl, rfl⟩
  | ok n =>
      cases hwrite : writes.headD .complete with
      | complete => exact .inl ⟨rfl, riskFormat.withSeq input n, rfl, rfl, rfl⟩
      | torn written => exact .inr ⟨rfl, rfl⟩

/-- An evaluation that approves was passed by the gate and journaled. -/
theorem evaluate_approved {capital : CapitalSnapshot}
    (h : (evaluate texts cfg e order view health disk).result = .ok (.approved capital)) :
    capital = buildCapitalSnapshot view.account view.positions cfg.accountConfig ∧
    ∃ checks, assess cfg e.state order view health capital = .judged (.approved checks) ∧
      (evaluate texts cfg e order view health disk).journaled =
        (appendEach texts e (assessmentInputs order capital (.judged (.approved checks)))
          disk.writes).journaled ∧
      (evaluate texts cfg e order view health disk).engine =
        (appendEach texts e (assessmentInputs order capital (.judged (.approved checks)))
          disk.writes).engine ∧
      (appendEach texts e (assessmentInputs order capital (.judged (.approved checks)))
        disk.writes).failed = false := by
  unfold evaluate at h ⊢
  dsimp only at h ⊢
  -- Only the gate approves: a halted engine and a tripped limit both refuse.
  cases hassess : assess cfg e.state order view health
      (buildCapitalSnapshot view.account view.positions cfg.accountConfig) with
  | halted =>
      rw [hassess] at h
      cases h
  | tripped trip =>
      rw [hassess] at h
      dsimp only at h
      revert h
      cases (halt texts e trip.detail (some trip.trigger) _ disk).result <;> intro h <;> cases h
  | judged verdict =>
      rw [hassess] at h
      cases verdict with
      | blocked reason eventType detail checks => cases h
      | approved checks =>
          dsimp only at h ⊢
          split at h
          · cases h
          · rename_i hwritten
            cases h
            exact ⟨rfl, checks, hassess, rfl, rfl, Bool.not_eq_true _ ▸ hwritten⟩

end Approval

/-- An order of one unit at a price of 1000. -/
def sampleOrder : ProposedOrder where
  symbol := "BTC"
  side := .long
  targetQuantity := "1.00000000"
  targetNotional := "1000.00"
  price := "1000.00000000"
  strategyId := "s1"
  lineage := none

/-- An account without positions. -/
def sampleView : MarketView := ⟨emptyAccount defaultAccountConfig, []⟩

/-- An engine whose journal has seen ten times the equity of the account. -/
def fallenEngine : RiskEngine :=
  ⟨⟨[], some 1⟩, { initialRiskControlState with
    baselineEquity := some "1000000.00", peakEquity := some "10000000.00" }⟩

/-- The defaults without a `maxDrawdown`. -/
def missingDrawdown : RiskEngineConfig :=
  ⟨{ defaultRiskLimits with maxDrawdown := .nan }, defaultAccountConfig⟩

end NexusQuant.Risk
