import NexusQuant.ExecutionCore.Plan

/-!
# What a submittable trade guarantees

The submit gate reads the trade plan, the trade plan reads the decision, and the decision reads the
control and risk context.  `Guarded` lists what a trade that passes the gate should have behind it,
`Sheltered` what the inputs must satisfy for that: a healthy runtime, price levels far enough apart to
survive the rounding to cents, and a size that does not round to zero.
-/

namespace NexusQuant.ExecutionCore

open Rounding TradingPlan
open TradingDecision (DecisionInputs Decision buildTradingDecision mv defaultDecisionConfig
  computeLevels computeSizing readFeature)

/-- The plan of a decision, with the kill switch and the runtime state the decision was built
with. -/
def planInputsOf (inputs : DecisionInputs) (now : JsNumber) (dqScore : Option JsNumber)
    (config : TradePlanConfig) : TradePlanInputs where
  now := now
  decision := buildTradingDecision inputs
  dqScore := dqScore
  runtimeState := inputs.control.runtimeState
  killEngaged := inputs.control.killEngaged
  config := config

/-- The intent that is submitted for a set of decision inputs. -/
def intentOf (inputs : DecisionInputs) (now : JsNumber) (dqScore : Option JsNumber)
    (config : TradePlanConfig) (opts : BuildIntentOptions) : ExecutionIntent :=
  buildExecutionIntent (buildTradingDecision inputs)
    (buildTradePlan (planInputsOf inputs now dqScore config)) opts

/-- The served levels are positive and in the order of the direction. -/
def LevelsOrdered (d : Decision) : Prop :=
  ∃ entry stop tp1 tp2 tp3, mv d.entryPrice = some entry ∧ mv d.stopLoss = some stop ∧
    mv d.takeProfit1 = some tp1 ∧ mv d.takeProfit2 = some tp2 ∧ mv d.takeProfit3 = some tp3 ∧
    match d.direction with
    | .long => 0 < stop ∧ stop < entry ∧ entry < tp1 ∧ tp1 < tp2 ∧ tp2 < tp3
    | .short => 0 < tp3 ∧ tp3 < tp2 ∧ tp2 < tp1 ∧ tp1 < entry ∧ entry < stop
    | .flat => False

/-- What stands behind a trade that may be submitted. -/
structure Guarded (inputs : DecisionInputs) (d : Decision) : Prop where
  killDisengaged : inputs.control.killEngaged = false
  controlAllowed : d.controlStatus = .allowed
  runtimeHealthy : inputs.control.runtimeState = some "HEALTHY" ∧ d.executionStatus = .ready
  riskApproved : d.riskStatus.status = .approved
  sized : ∃ size, mv d.positionSize = some size ∧ 0 < size
  notional : ∃ notional, mv d.positionNotional = some notional ∧ notional ≤ inputs.risk.maxNotional
  riskBounded : ∀ size entry stop, mv d.positionSize = some size → mv d.entryPrice = some entry →
    mv d.stopLoss = some stop → size * |entry - stop| ≤
      inputs.risk.assumedEquity * inputs.risk.riskFraction + 1 / 2 / 10 ^ 8 * |entry - stop|
  levels : LevelsOrdered d

/-- The midpoint of two neighbouring cents lies between `x` and `y`. -/
def CrossesHalfCent (x y : ℚ) : Prop :=
  ∃ k : ℤ, x < (k + 1 / 2) / 10 ^ 2 ∧ (k + 1 / 2) / 10 ^ 2 ≤ y

/-- The five prices from `low` upwards in steps of `r`: the lowest does not round to zero and no two
neighbours round to the same cent. -/
def LadderApart (low r : ℚ) : Prop :=
  1 / 2 / 10 ^ 2 ≤ low ∧ CrossesHalfCent low (low + r) ∧
    CrossesHalfCent (low + r) (low + 2 * r) ∧ CrossesHalfCent (low + 2 * r) (low + 3 * r) ∧
    CrossesHalfCent (low + 3 * r) (low + 4 * r)

/-- The lowest of the levels that are `r` apart around the mark `p`. -/
def lowestLevel (direction : SignalDecision) (p r : ℚ) : ℚ :=
  if direction = .long then p - r else p - 3 * r

/-- The stop of the levels that are `r` apart around the mark `p`. -/
def stopLevel (direction : SignalDecision) (p r : ℚ) : ℚ :=
  if direction = .long then p - r else p + r

/-- The inputs under which a submittable trade is guarded: the runtime is healthy, the levels (one and
a half average true ranges apart) stay apart when rounded, and the risk amount buys at least half a
unit of the last place of a size. -/
def Sheltered (inputs : DecisionInputs) : Prop :=
  inputs.control.runtimeState = some "HEALTHY" ∧
  ∀ p ∈ inputs.price, ∀ a ∈ readFeature inputs.features "atr_14",
    LadderApart (lowestLevel inputs.signal.decision p.price (3 / 2 * a)) (3 / 2 * a) ∧
    1 / 2 / 10 ^ 8 * |roundTo 2 p.price -
      roundTo 2 (stopLevel inputs.signal.decision p.price (3 / 2 * a))| ≤
      inputs.risk.assumedEquity * inputs.risk.riskFraction

/-! ## The gate read backwards -/

section Gate

variable {inputs : DecisionInputs} {now : JsNumber} {dqScore : Option JsNumber}
  {config : TradePlanConfig} {opts : BuildIntentOptions}

theorem canTrade_of_submittable (h : checkSubmittable (intentOf inputs now dqScore config opts) =
    none) : (deriveFacts (planInputsOf inputs now dqScore config)).canTrade = true := by
  unfold checkSubmittable at h
  split at h
  · cases h
  · rename_i hgate
    by_contra hcan
    rw [Bool.not_eq_true] at hcan
    exact hgate (.inr (.inl hcan))

/-- A decision whose trade passes the gate is actionable and not blocked. -/
theorem actionable_of_submittable
    (h : checkSubmittable (intentOf inputs now dqScore config opts) = none) :
    (buildTradingDecision inputs).overallStatus = .actionable ∧
      inputs.control.killEngaged = false := by
  have hcan := canTrade_of_submittable h
  simp only [deriveFacts, planInputsOf, Bool.and_eq_true, beq_iff_eq, Bool.not_eq_true'] at hcan
  exact hcan.1

/-- The verdicts an actionable decision excludes. -/
theorem verdicts_of_actionable
    (h : (buildTradingDecision inputs).overallStatus = .actionable) :
    inputs.signal.decision ≠ .flat ∧ (buildTradingDecision inputs).controlStatus = .allowed ∧
    (buildTradingDecision inputs).riskStatus.status ≠ .blocked ∧
    (computeLevels inputs.signal.decision inputs.price (readFeature inputs.features "atr_14")
      inputs.config).stopLoss.value.isSome := by
  change TradingDecision.deriveOverallStatus _ _ _ _ _ = _ at h
  unfold TradingDecision.deriveOverallStatus at h
  split at h
  · cases h
  · rename_i hflat
    split at h
    · cases h
    · rename_i hblocked
      push Not at hblocked
      split at h
      · cases h
      · rename_i hexec
        push Not at hexec
        split at h
        · cases h
        · rename_i hlevels
          refine ⟨hflat, ?_, hblocked.2, not_not.mp hlevels⟩
          -- An unknown control status makes the execution status unknown.
          change TradingDecision.deriveControlStatus inputs.control = .allowed
          cases hc : TradingDecision.deriveControlStatus inputs.control with
          | allowed => rfl
          | blocked => exact absurd hc hblocked.1
          | unknown =>
              refine absurd ?_ hexec.2
              rw [hc]
              rfl

theorem executionStatus_ready_iff
    (h : (buildTradingDecision inputs).controlStatus = .allowed) :
    (buildTradingDecision inputs).executionStatus = .ready ↔
      inputs.control.runtimeState = some "HEALTHY" := by
  change TradingDecision.deriveControlStatus inputs.control = .allowed at h
  change TradingDecision.deriveExecutionStatus inputs.control
    (TradingDecision.deriveControlStatus inputs.control) = .ready ↔ _
  rw [h]
  unfold TradingDecision.deriveExecutionStatus
  cases hstate : inputs.control.runtimeState with
  | none => simp
  | some state =>
      simp only [Option.some.injEq]
      by_cases hhealthy : state = "HEALTHY"
      · simp [hhealthy]
      · simp only [hhealthy, if_false, iff_false]
        split <;> exact TradingDecision.ExecutionStatus.noConfusion

end Gate

/-! ## The served levels -/

/-- The five served levels, as the ladder around the mark. -/
theorem computeLevels_default {direction : SignalDecision}
    {price : Option TradingDecision.PriceObservation} {atr : Option ℚ}
    (hdir : direction ≠ .flat)
    (hstop : (computeLevels direction price atr defaultDecisionConfig).stopLoss.value.isSome) :
    ∃ p a, price = some p ∧ atr = some a ∧ 0 < a ∧
      mv (computeLevels direction price atr defaultDecisionConfig).entryPrice =
        some (roundTo 2 p.price) ∧
      mv (computeLevels direction price atr defaultDecisionConfig).stopLoss =
        some (roundTo 2 (stopLevel direction p.price (3 / 2 * a))) ∧
      mv (computeLevels direction price atr defaultDecisionConfig).takeProfit1 =
        some (roundTo 2 (2 * p.price - stopLevel direction p.price (3 / 2 * a))) ∧
      mv (computeLevels direction price atr defaultDecisionConfig).takeProfit2 =
        some (roundTo 2 (3 * p.price - 2 * stopLevel direction p.price (3 / 2 * a))) ∧
      mv (computeLevels direction price atr defaultDecisionConfig).takeProfit3 =
        some (roundTo 2 (4 * p.price - 3 * stopLevel direction p.price (3 / 2 * a))) := by
  unfold computeLevels at hstop ⊢
  rw [if_neg hdir] at hstop ⊢
  cases price with
  | none => cases hstop
  | some p =>
      cases atr with
      | none => cases hstop
      | some a =>
          -- A volatility that is not positive serves no stop, which the hypothesis excludes.
          by_cases ha : a ≤ 0
          · simp [ha, TradingDecision.unavailable] at hstop
          · refine ⟨p, a, rfl, rfl, not_le.mp ha, ?_⟩
            simp only [ha, if_false, TradingDecision.mv_measure, defaultDecisionConfig,
              Option.some.injEq, true_and]
            unfold stopLevel
            split
            · refine ⟨?_, ?_, ?_, ?_⟩ <;> congr 1 <;> ring
            · refine ⟨?_, ?_, ?_, ?_⟩ <;> congr 1 <;> ring

/-- Rounding keeps the ladder positive and in order exactly when its steps cross half cents. -/
theorem ladder_rounded_iff {low r : ℚ} (hr : 0 < r) :
    (0 < roundTo 2 low ∧ roundTo 2 low < roundTo 2 (low + r) ∧
      roundTo 2 (low + r) < roundTo 2 (low + 2 * r) ∧
      roundTo 2 (low + 2 * r) < roundTo 2 (low + 3 * r) ∧
      roundTo 2 (low + 3 * r) < roundTo 2 (low + 4 * r)) ↔ LadderApart low r := by
  unfold LadderApart CrossesHalfCent
  rw [roundTo_pos_iff]
  apply and_congr_right
  intro hlow
  have h₀ : 0 ≤ low := le_trans (by norm_num) hlow
  rw [roundTo_lt_roundTo_iff h₀ (by linarith),
    roundTo_lt_roundTo_iff (by linarith) (by linarith),
    roundTo_lt_roundTo_iff (by linarith) (by linarith),
    roundTo_lt_roundTo_iff (by linarith) (by linarith)]

/-- The served levels are positive and in order exactly when the ladder stays apart. -/
theorem levelsOrdered_iff {d : Decision} {p r : ℚ} (hr : 0 < r) (hdir : d.direction ≠ .flat)
    (hentry : mv d.entryPrice = some (roundTo 2 p))
    (hstop : mv d.stopLoss = some (roundTo 2 (stopLevel d.direction p r)))
    (htp1 : mv d.takeProfit1 = some (roundTo 2 (2 * p - stopLevel d.direction p r)))
    (htp2 : mv d.takeProfit2 = some (roundTo 2 (3 * p - 2 * stopLevel d.direction p r)))
    (htp3 : mv d.takeProfit3 = some (roundTo 2 (4 * p - 3 * stopLevel d.direction p r))) :
    LevelsOrdered d ↔ LadderApart (lowestLevel d.direction p r) r := by
  rw [← ladder_rounded_iff hr, LevelsOrdered, hentry, hstop, htp1, htp2, htp3]
  simp only [Option.some.injEq, exists_and_left, exists_eq_left']
  cases hd : d.direction with
  | flat => exact absurd hd hdir
  | long =>
      have hlow : lowestLevel .long p r = p - r := rfl
      have hst : stopLevel .long p r = p - r := rfl
      rw [hlow, hst, show p - r + r = p by ring, show p - r + 2 * r = 2 * p - (p - r) by ring,
        show p - r + 3 * r = 3 * p - 2 * (p - r) by ring,
        show p - r + 4 * r = 4 * p - 3 * (p - r) by ring]
  | short =>
      have hlow : lowestLevel .short p r = p - 3 * r := rfl
      have hst : stopLevel .short p r = p + r := rfl
      rw [hlow, hst, show p - 3 * r + r = 3 * p - 2 * (p + r) by ring,
        show p - 3 * r + 2 * r = 2 * p - (p + r) by ring, show p - 3 * r + 3 * r = p by ring,
        show p - 3 * r + 4 * r = p + r by ring, show p - 3 * r = 4 * p - 3 * (p + r) by ring]

/-! ## The size -/

section Sizing

variable {direction : SignalDecision} {entry stop : ℚ} {risk : TradingDecision.RiskContext}

theorem computeSizing_of_distance (hdir : direction ≠ .flat) (hequity : 0 < risk.assumedEquity)
    (hfrac : 0 < risk.riskFraction) (hdist : 0 < |entry - stop|) :
    mv (computeSizing direction (some entry) (some stop) risk).positionSize =
      some (roundTo 8 (risk.assumedEquity * risk.riskFraction / |entry - stop|)) ∧
    mv (computeSizing direction (some entry) (some stop) risk).positionNotional =
      some (roundTo 2 (risk.assumedEquity * risk.riskFraction / |entry - stop| * entry)) := by
  simp only [computeSizing, if_neg hdir, hequity, hfrac, hdist, not_true_eq_false, or_self,
    if_false, TradingDecision.mv_measure, and_self]

/-- A size is only computed over a positive stop distance. -/
theorem distance_of_size (hdir : direction ≠ .flat) {size : ℚ}
    (hsize : mv (computeSizing direction (some entry) (some stop) risk).positionSize = some size) :
    0 < |entry - stop| := by
  by_contra hdist
  simp [computeSizing, hdir, hdist] at hsize

/-- The rounded size risks at most half a unit of its last place more than the risk amount. -/
theorem roundTo_size_mul_le {amount dist : ℚ} (hdist : 0 < dist) :
    roundTo 8 (amount / dist) * dist ≤ amount + 1 / 2 / 10 ^ 8 * dist := by
  have hround := (abs_le.mp (abs_roundTo_sub_le 8 (amount / dist))).2
  calc roundTo 8 (amount / dist) * dist ≤ (amount / dist + 1 / 2 / 10 ^ 8) * dist :=
        mul_le_mul_of_nonneg_right (by linarith) hdist.le
    _ = amount + 1 / 2 / 10 ^ 8 * dist := by field_simp

theorem size_pos_iff {amount dist : ℚ} (hdist : 0 < dist) :
    0 < roundTo 8 (amount / dist) ↔ 1 / 2 / 10 ^ 8 * dist ≤ amount := by
  rw [roundTo_pos_iff, le_div_iff₀ hdist]

/-- A computed notional that is not blocked is approved and within the cap. -/
theorem approved_of_not_blocked (hdir : direction ≠ .flat) {notional : ℚ}
    (h : (TradingDecision.evaluateStaticRisk direction (some notional) risk).status ≠ .blocked) :
    (TradingDecision.evaluateStaticRisk direction (some notional) risk).status = .approved ∧
      notional ≤ risk.maxNotional := by
  unfold TradingDecision.evaluateStaticRisk at h ⊢
  split
  · rename_i hmode; simp [hmode] at h
  · rename_i hmode; simp [hmode] at h
  · rw [if_neg hdir]
    by_cases hcap : risk.maxNotional < notional
    · simp_all
    · simp only [if_neg hcap, true_and]
      exact not_lt.mp hcap

end Sizing

/-! ## The gate -/

section Decision

variable {inputs : DecisionInputs} {entry stop : ℚ}

theorem positionSize_eq : (buildTradingDecision inputs).positionSize =
    (computeSizing inputs.signal.decision (mv (buildTradingDecision inputs).entryPrice)
      (mv (buildTradingDecision inputs).stopLoss) inputs.risk).positionSize := rfl

theorem positionNotional_eq : (buildTradingDecision inputs).positionNotional =
    (computeSizing inputs.signal.decision (mv (buildTradingDecision inputs).entryPrice)
      (mv (buildTradingDecision inputs).stopLoss) inputs.risk).positionNotional := rfl

theorem riskStatus_eq : (buildTradingDecision inputs).riskStatus =
    TradingDecision.evaluateStaticRisk inputs.signal.decision
      (mv (buildTradingDecision inputs).positionNotional) inputs.risk := rfl

/-- A decision with levels is sized exactly when they are apart and the risk amount is large enough
for the distance. -/
theorem sized_iff (hdir : inputs.signal.decision ≠ .flat) (hequity : 0 < inputs.risk.assumedEquity)
    (hfrac : 0 < inputs.risk.riskFraction)
    (hentry : mv (buildTradingDecision inputs).entryPrice = some entry)
    (hstop : mv (buildTradingDecision inputs).stopLoss = some stop) :
    (∃ size, mv (buildTradingDecision inputs).positionSize = some size ∧ 0 < size) ↔
      0 < |entry - stop| ∧ 1 / 2 / 10 ^ 8 * |entry - stop| ≤
        inputs.risk.assumedEquity * inputs.risk.riskFraction := by
  rw [positionSize_eq, hentry, hstop]
  constructor
  · rintro ⟨size, hsize, hpos⟩
    have hdist := distance_of_size hdir hsize
    rw [(computeSizing_of_distance hdir hequity hfrac hdist).1, Option.some.injEq] at hsize
    rw [← hsize] at hpos
    exact ⟨hdist, (size_pos_iff hdist).mp hpos⟩
  · rintro ⟨hdist, hamount⟩
    exact ⟨_, (computeSizing_of_distance hdir hequity hfrac hdist).1,
      (size_pos_iff hdist).mpr hamount⟩

/-- What follows from a positive stop distance once the risk verdict is not a block. -/
theorem risk_of_distance (hdir : inputs.signal.decision ≠ .flat)
    (hequity : 0 < inputs.risk.assumedEquity) (hfrac : 0 < inputs.risk.riskFraction)
    (hentry : mv (buildTradingDecision inputs).entryPrice = some entry)
    (hstop : mv (buildTradingDecision inputs).stopLoss = some stop) (hdist : 0 < |entry - stop|)
    (hrisk : (buildTradingDecision inputs).riskStatus.status ≠ .blocked) :
    (buildTradingDecision inputs).riskStatus.status = .approved ∧
    (∃ notional, mv (buildTradingDecision inputs).positionNotional = some notional ∧
      notional ≤ inputs.risk.maxNotional) ∧
    ∀ size, mv (buildTradingDecision inputs).positionSize = some size →
      size * |entry - stop| ≤ inputs.risk.assumedEquity * inputs.risk.riskFraction +
        1 / 2 / 10 ^ 8 * |entry - stop| := by
  obtain ⟨hsize, hnotional⟩ := computeSizing_of_distance hdir hequity hfrac hdist
  rw [← hentry, ← hstop, ← positionSize_eq] at hsize
  rw [← hentry, ← hstop, ← positionNotional_eq] at hnotional
  rw [riskStatus_eq, hnotional] at hrisk ⊢
  obtain ⟨happroved, hcap⟩ := approved_of_not_blocked hdir hrisk
  refine ⟨happroved, ⟨_, rfl, hcap⟩, ?_⟩
  intro size hs
  rw [hsize, Option.some.injEq] at hs
  rw [← hs]
  exact roundTo_size_mul_le hdist

end Decision

/-- A trade that passes the submit gate is gated, protected and sized exactly when its inputs are
sheltered. -/
theorem submittable_guarded_iff (inputs : DecisionInputs) (now : JsNumber)
    (dqScore : Option JsNumber) (config : TradePlanConfig) (opts : BuildIntentOptions)
    (hconfig : inputs.config = defaultDecisionConfig) (hequity : 0 < inputs.risk.assumedEquity)
    (hfrac : 0 < inputs.risk.riskFraction)
    (hsubmit : checkSubmittable (intentOf inputs now dqScore config opts) = none) :
    Guarded inputs (buildTradingDecision inputs) ↔ Sheltered inputs := by
  obtain ⟨hactionable, hkill⟩ := actionable_of_submittable hsubmit
  obtain ⟨hdir, hallowed, hrisk, hcomplete⟩ := verdicts_of_actionable hactionable
  rw [hconfig] at hcomplete
  obtain ⟨p, a, hp, ha, hpos, hentry, hstop, htp1, htp2, htp3⟩ :=
    computeLevels_default hdir hcomplete
  have hr : 0 < 3 / 2 * a := by linarith
  rw [← hconfig] at hentry hstop htp1 htp2 htp3
  change mv (buildTradingDecision inputs).entryPrice = _ at hentry
  change mv (buildTradingDecision inputs).stopLoss = _ at hstop
  have hlevels : LevelsOrdered (buildTradingDecision inputs) ↔
      LadderApart (lowestLevel inputs.signal.decision p.price (3 / 2 * a)) (3 / 2 * a) :=
    levelsOrdered_iff hr hdir hentry hstop htp1 htp2 htp3
  have hsized := sized_iff hdir hequity hfrac hentry hstop
  -- The condition at the mark and the range the levels were computed from.
  have hsheltered : Sheltered inputs ↔ inputs.control.runtimeState = some "HEALTHY" ∧
      LadderApart (lowestLevel inputs.signal.decision p.price (3 / 2 * a)) (3 / 2 * a) ∧
      1 / 2 / 10 ^ 8 * |roundTo 2 p.price -
        roundTo 2 (stopLevel inputs.signal.decision p.price (3 / 2 * a))| ≤
        inputs.risk.assumedEquity * inputs.risk.riskFraction := by
    simp only [Sheltered, hp, ha, Option.mem_some_iff, forall_eq']
  rw [hsheltered]
  constructor
  · intro g
    exact ⟨g.runtimeHealthy.1, hlevels.mp g.levels, (hsized.mp g.sized).2⟩
  · rintro ⟨hhealthy, hladder, hamount⟩
    have hordered := hlevels.mpr hladder
    -- The served entry and stop are apart because the ladder is in order.
    have hdist : 0 < |roundTo 2 p.price -
        roundTo 2 (stopLevel inputs.signal.decision p.price (3 / 2 * a))| := by
      obtain ⟨e, t, _, _, _, he, ht, _, _, _, horder⟩ := hordered
      rw [hentry, Option.some.injEq] at he
      rw [hstop, Option.some.injEq] at ht
      rw [he, ht, abs_pos, sub_ne_zero]
      have hsame : (buildTradingDecision inputs).direction = inputs.signal.decision := rfl
      rw [hsame] at horder
      cases hdirection : inputs.signal.decision with
      | long => rw [hdirection] at horder; exact horder.2.1.ne'
      | short => rw [hdirection] at horder; exact horder.2.2.2.2.ne
      | flat => exact absurd hdirection hdir
    obtain ⟨happroved, hnotional, hbound⟩ :=
      risk_of_distance hdir hequity hfrac hentry hstop hdist hrisk
    exact
      { killDisengaged := hkill
        controlAllowed := hallowed
        runtimeHealthy := ⟨hhealthy, (executionStatus_ready_iff hallowed).mpr hhealthy⟩
        riskApproved := happroved
        sized := hsized.mpr ⟨hdist, hamount⟩
        notional := hnotional
        riskBounded := by
          intro size e t hs he ht
          rw [hentry, Option.some.injEq] at he
          rw [hstop, Option.some.injEq] at ht
          rw [← he, ← ht]
          exact hbound size hs
        levels := hordered }

/-- A fresh long signal at the given mark and average true range, with trading permitted in the given
runtime state. -/
def sampleInputs (mark atr : ℚ) (runtimeState : String) : DecisionInputs where
  now := .fin 0
  signal :=
    { id := "sig-1", symbol := "BTC-PERP", side := .long, decision := .long
      confidence := .fin (4 / 5), featureHash := "fh", datasetHash := "dh"
      strategyVersionId := "sv-1", strategyParams := ⟨.fin 55, .fin 45, .fin (2 / 100)⟩
      createdAt := ⟨"1970-01-01T00:00:00.000Z", .fin 0⟩ }
  features := fun key => if key = "atr_14" then some (.fin atr) else none
  featureTs := some ⟨"1970-01-01T00:00:00.000Z", .fin 0⟩
  timeframe := .m5
  dqScore := .fin 100
  price := some ⟨mark, "1970-01-01T00:00:00.000Z", "book"⟩
  liquidity := none
  risk :=
    { assumedEquity := 10000, riskFraction := 1 / 100, leverage := 1, maxNotional := 100000
      systemRiskMode := some .normal }
  control :=
    { permission := some .allowed, runtimeState := some runtimeState, killEngaged := false
      blockedReasons := [] }

theorem submittable_guarded_iff_sample :
    Guarded (sampleInputs 100 2 "HEALTHY") (buildTradingDecision (sampleInputs 100 2 "HEALTHY")) ↔
      Sheltered (sampleInputs 100 2 "HEALTHY") :=
  submittable_guarded_iff (sampleInputs 100 2 "HEALTHY") (.fin 0) (some (.fin 100)) {} ⟨0, none, none⟩
    rfl (by decide +kernel) (by decide +kernel) (by decide +kernel)

/-- A trade passes the gate while the runtime is stopped; and with levels closer than a cent one passes
without a size. -/
theorem submittable_unguarded :
    (checkSubmittable (intentOf (sampleInputs 100 2 "STOPPED") (.fin 0) (some (.fin 100)) {}
        ⟨0, none, none⟩) = none ∧
      (buildTradingDecision (sampleInputs 100 2 "STOPPED")).executionStatus = .blocked) ∧
    (checkSubmittable (intentOf (sampleInputs (100002 / 1000) (2 / 1000) "HEALTHY") (.fin 0)
        (some (.fin 100)) {} ⟨0, none, none⟩) = none ∧
      mv (buildTradingDecision (sampleInputs (100002 / 1000) (2 / 1000) "HEALTHY")).positionSize =
        none) := by
  decide +kernel

end NexusQuant.ExecutionCore
