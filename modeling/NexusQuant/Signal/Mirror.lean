import NexusQuant.Lib.Fallible
import NexusQuant.Signal.Rule
import NexusQuant.TradingDecision.SignalRule

/-!
# The mirror against the sealed rule

The two rules share their text, not their clamp: the sealed one passes what is not finite on (an
infinite quotient becomes 1), the mirror sends it to 0.  The rule divides twice, by the slow average
and by the volatility ceiling, so the copies agree as long as the divisor that counts is not zero.
-/

namespace NexusQuant.Signal

open Fallible
open TradingDecision (SignalParams RuleResult applyRule ruleResult)

/-- The features hold `x`, every one of the five a finite number. -/
structure HasInputs (features : Features) (x : RuleInputs) : Prop where
  ema20 : num (features "ema_20") = some x.ema20
  ema50 : num (features "ema_50") = some x.ema50
  ema200 : num (features "ema_200") = some x.ema200
  rsi : num (features "rsi_14") = some x.rsi
  realizedVol : num (features "realized_vol_30") = some x.realizedVol

/-- The averages are stacked one way, and the strength index confirms it. -/
def Confirmed (x : RuleInputs) (params : SignalParams) : Prop :=
  (x.ema50 < x.ema20 ∧ x.ema200 < x.ema50 ∧ JsNumber.le params.rsiLongMin (.fin x.rsi)) ∨
    (x.ema20 < x.ema50 ∧ x.ema50 < x.ema200 ∧ JsNumber.le (.fin x.rsi) params.rsiShortMax)

/-- The divisor that the confidence depends on is not zero: the ceiling where the volatility is above
it, the slow average where a direction is taken. -/
def DivisorNonzero (x : RuleInputs) (params : SignalParams) : Prop :=
  if JsNumber.lt params.maxRealizedVol (.fin x.realizedVol) then params.maxRealizedVol ≠ .fin 0
  else Confirmed x params → x.ema200 ≠ 0

/-- The mirror has nothing exactly where the sealed rule throws, and otherwise its side, its decision
and its confidence. -/
structure RulesAgree (features : Features) (params : SignalParams) : Prop where
  refused : applyRule features params = none ↔ ∃ message, decideSignal features params = .error message
  same : ∀ r m, decideSignal features params = .ok r → applyRule features params = some m →
    m.side = r.side ∧ m.decision = r.decision ∧ r.confidence = .fin m.confidence

/-! ## The two clamps -/

theorem clamp01_fin (q : ℚ) : clamp01 (.fin q) = .fin (TradingDecision.clamp01 (.fin q)) := by
  simp only [clamp01, TradingDecision.clamp01, JsNumber.fin_lt, decide_eq_true_eq]
  split
  · rfl
  · split <;> rfl

theorem clamp01_posInf : clamp01 .posInf = .fin 1 := rfl

theorem mirrorClamp_fin (q : ℚ) :
    TradingDecision.clamp01 (.fin q) = if q < 0 then 0 else if 1 < q then 1 else q := rfl

theorem mirrorClamp_bounds (x : JsNumber) :
    0 ≤ TradingDecision.clamp01 x ∧ TradingDecision.clamp01 x ≤ 1 := by
  cases x with
  | fin q =>
      rw [mirrorClamp_fin]
      split
      · norm_num
      · split
        · norm_num
        · rename_i hneg hone
          exact ⟨not_lt.mp hneg, not_lt.mp hone⟩
  | nan | posInf | negInf => norm_num [TradingDecision.clamp01]

theorem mirrorClamp_of_bounds {q : ℚ} (hnonneg : 0 ≤ q) (hone : q ≤ 1) :
    TradingDecision.clamp01 (.fin q) = q := by
  rw [mirrorClamp_fin, if_neg (not_lt.mpr hnonneg), if_neg (not_lt.mpr hone)]

theorem fin_div_zero {q : ℚ} (hq : 0 < q) : JsNumber.fin q / JsNumber.fin 0 = .posInf := by
  show JsNumber.div (.fin q) (.fin 0) = .posInf
  rw [JsNumber.div, if_pos rfl, if_neg hq.ne', JsNumber.infOfSign, if_neg (not_lt.mpr hq.le)]

/-! ## One input -/

theorem directional_ne_flat_iff {x : RuleInputs} {params : SignalParams} :
    directional x params ≠ .flat ↔ Confirmed x params := by
  unfold directional Confirmed bull bear
  simp only [Bool.and_eq_true, decide_eq_true_eq]
  constructor
  · intro h
    split at h
    · rename_i hlong
      exact .inl ⟨hlong.1.1, hlong.1.2, hlong.2⟩
    · split at h
      · rename_i hshort
        exact .inr ⟨hshort.1.1, hshort.1.2, hshort.2⟩
      · exact absurd rfl h
  · rintro (hlong | hshort)
    · rw [if_pos ⟨⟨hlong.1, hlong.2.1⟩, hlong.2.2⟩]
      decide
    · rw [if_neg (fun h => absurd h.1.1 (not_lt.mpr hshort.1.le)),
        if_pos ⟨⟨hshort.1, hshort.2.1⟩, hshort.2.2⟩]
      decide

/-- A direction with the slow average at zero: the fast one is not there. -/
theorem abs_sub_pos_of_confirmed {x : RuleInputs} {params : SignalParams}
    (h : Confirmed x params) : 0 < |x.ema20 - x.ema200| := by
  rw [abs_pos, sub_ne_zero]
  rcases h with hlong | hshort
  · exact (hlong.2.1.trans hlong.1).ne'
  · exact (hshort.1.trans hshort.2.1).ne

section OneInput

variable {x : RuleInputs} {params : SignalParams}

/-- The mirror on the features of the sealed rule. -/
def mirrored (x : RuleInputs) (params : SignalParams) : RuleResult :=
  ruleResult x.ema20 x.ema50 x.ema200 x.rsi x.realizedVol params

theorem decision_volFiltered (hvol : volFiltered x params) :
    (decideInputs x params).decision = .flat := if_pos hvol

theorem decision_of_not_volFiltered (hvol : ¬volFiltered x params) :
    (decideInputs x params).decision = directional x params := if_neg hvol

/-- Above the ceiling both confidences are the excess over it, relative to it. -/
theorem confidence_volFiltered (hvol : volFiltered x params) :
    (decideInputs x params).confidence =
        clamp01 ((.fin x.realizedVol - params.maxRealizedVol) / params.maxRealizedVol) ∧
      (mirrored x params).confidence =
        TradingDecision.clamp01 ((.fin x.realizedVol - params.maxRealizedVol) /
          params.maxRealizedVol) := by
  have hflat : ¬((decideInputs x params).decision = .long ∨
      (decideInputs x params).decision = .short) := by
    rw [decision_volFiltered hvol]
    decide
  exact ⟨(if_neg hflat).trans (if_pos hvol), (if_neg hflat).trans (if_pos hvol)⟩

/-- With a direction both are the mean of the trend and of the strength index. -/
theorem confidence_directional (hvol : ¬volFiltered x params) (h : directional x params ≠ .flat) :
    (decideInputs x params).confidence =
        clamp01 (.fin (1 / 2) * clamp01 (.fin |x.ema20 - x.ema200| / .fin |x.ema200|) +
          .fin (1 / 2) * clamp01 (.fin |x.rsi - 50| / .fin 50)) ∧
      (mirrored x params).confidence =
        TradingDecision.clamp01
          (.fin (1 / 2 * TradingDecision.clamp01 (.fin |x.ema20 - x.ema200| / .fin |x.ema200|) +
            1 / 2 * TradingDecision.clamp01 (.fin |x.rsi - 50| / .fin 50))) := by
  have hdir : (decideInputs x params).decision = .long ∨
      (decideInputs x params).decision = .short := by
    rw [decision_of_not_volFiltered hvol]
    revert h
    cases directional x params <;> decide
  exact ⟨if_pos hdir, if_pos hdir⟩

theorem confidence_flat (hvol : ¬volFiltered x params) (h : directional x params = .flat) :
    (decideInputs x params).confidence = .fin 0 ∧ (mirrored x params).confidence = 0 := by
  have hflat : ¬((decideInputs x params).decision = .long ∨
      (decideInputs x params).decision = .short) := by
    rw [decision_of_not_volFiltered hvol, h]
    decide
  exact ⟨(if_neg hflat).trans (if_neg hvol), (if_neg hflat).trans (if_neg hvol)⟩

/-- Above the ceiling the two agree exactly where the ceiling is not zero. -/
theorem volFiltered_agree_iff (hfinite : FiniteParams params) (hvol : volFiltered x params) :
    (decideInputs x params).confidence = .fin (mirrored x params).confidence ↔
      params.maxRealizedVol ≠ .fin 0 := by
  obtain ⟨hsealed, hmirror⟩ := confidence_volFiltered hvol
  rw [hsealed, hmirror]
  obtain ⟨ceiling, hceiling⟩ := JsNumber.eq_fin_of_isFinite hfinite.maxRealizedVol
  unfold volFiltered at hvol
  rw [hceiling] at hvol ⊢
  rw [JsNumber.fin_sub]
  by_cases hzero : ceiling = 0
  · subst hzero
    have hpos : 0 < x.realizedVol := by simpa using hvol
    -- One clamp gives 1, the other one 0.
    rw [sub_zero, fin_div_zero hpos, clamp01_posInf]
    exact iff_of_false (by decide) (fun h => h rfl)
  · rw [JsNumber.fin_div hzero, clamp01_fin]
    exact iff_of_true rfl (fun h => hzero (JsNumber.fin.inj h))

/-- With a direction the two agree exactly where the slow average is not zero. -/
theorem directional_agree_iff (hvol : ¬volFiltered x params) (h : Confirmed x params) :
    (decideInputs x params).confidence = .fin (mirrored x params).confidence ↔ x.ema200 ≠ 0 := by
  obtain ⟨hsealed, hmirror⟩ := confidence_directional hvol (directional_ne_flat_iff.mpr h)
  rw [hsealed, hmirror, JsNumber.fin_div (by norm_num : (50 : ℚ) ≠ 0), clamp01_fin]
  -- The strength index is the same on both sides; call it `r`.
  obtain ⟨hr0, hr1⟩ := mirrorClamp_bounds (.fin (|x.rsi - 50| / 50))
  generalize TradingDecision.clamp01 (.fin (|x.rsi - 50| / 50)) = r at hr0 hr1 ⊢
  by_cases hzero : x.ema200 = 0
  · have htrend : JsNumber.fin |x.ema20 - x.ema200| / JsNumber.fin |x.ema200| = .posInf := by
      have habs : |x.ema200| = 0 := by rw [hzero, abs_zero]
      rw [habs]
      exact fin_div_zero (abs_sub_pos_of_confirmed h)
    have hnone : TradingDecision.clamp01 .posInf = 0 := rfl
    rw [htrend, clamp01_posInf, hnone, JsNumber.fin_mul, JsNumber.fin_mul, JsNumber.fin_add,
      clamp01_fin, mirrorClamp_of_bounds (by linarith) (by linarith),
      mirrorClamp_of_bounds (by linarith) (by linarith)]
    refine iff_of_false (fun heq => ?_) (fun hne => hne hzero)
    have hhalf := JsNumber.fin.inj heq
    linarith
  · have habs : |x.ema200| ≠ 0 := abs_ne_zero.mpr hzero
    rw [JsNumber.fin_div habs, clamp01_fin, JsNumber.fin_mul, JsNumber.fin_mul, JsNumber.fin_add,
      clamp01_fin]
    exact iff_of_true rfl hzero

/-- The confidences agree exactly where the divisor that counts is not zero. -/
theorem confidence_agree_iff (hfinite : FiniteParams params) :
    (decideInputs x params).confidence = .fin (mirrored x params).confidence ↔
      DivisorNonzero x params := by
  unfold DivisorNonzero
  change _ ↔ if volFiltered x params then params.maxRealizedVol ≠ .fin 0
    else Confirmed x params → x.ema200 ≠ 0
  by_cases hvol : volFiltered x params
  · rw [volFiltered_agree_iff hfinite hvol, if_pos hvol]
  · rw [if_neg hvol]
    by_cases hconfirmed : Confirmed x params
    · rw [directional_agree_iff hvol hconfirmed]
      exact ⟨fun h _ => h, fun h => h hconfirmed⟩
    · have hflat : directional x params = .flat := by
        by_contra hne
        exact hconfirmed (directional_ne_flat_iff.mp hne)
      obtain ⟨hsealed, hmirror⟩ := confidence_flat hvol hflat
      rw [hsealed, hmirror]
      exact iff_of_true rfl fun h => absurd h hconfirmed

end OneInput

/-! ## Every feature record -/

theorem readInputs_ok_iff {features : Features} {x : RuleInputs} :
    readInputs features = .ok x ↔ HasInputs features x := by
  constructor
  · intro h
    obtain ⟨ema20, h20, h⟩ := bind_eq_ok.mp h
    obtain ⟨ema50, h50, h⟩ := bind_eq_ok.mp h
    obtain ⟨ema200, h200, h⟩ := bind_eq_ok.mp h
    obtain ⟨rsi, hrsi, h⟩ := bind_eq_ok.mp h
    obtain ⟨realizedVol, hvol, h⟩ := bind_eq_ok.mp h
    cases h
    exact ⟨feature_ok_iff.mp h20, feature_ok_iff.mp h50, feature_ok_iff.mp h200,
      feature_ok_iff.mp hrsi, feature_ok_iff.mp hvol⟩
  · intro h
    unfold readInputs
    rw [feature_ok_iff.mpr h.ema20, feature_ok_iff.mpr h.ema50, feature_ok_iff.mpr h.ema200,
      feature_ok_iff.mpr h.rsi, feature_ok_iff.mpr h.realizedVol]
    rfl

theorem applyRule_of_inputs {features : Features} {x : RuleInputs} (h : HasInputs features x)
    (params : SignalParams) : applyRule features params = some (mirrored x params) := by
  unfold applyRule TradingDecision.readFeature
  rw [h.ema20, h.ema50, h.ema200, h.rsi, h.realizedVol]
  rfl

/-- What the mirror reads is complete. -/
theorem inputs_of_applyRule {features : Features} {params : SignalParams} {m : RuleResult}
    (h : applyRule features params = some m) : ∃ x, HasInputs features x := by
  unfold applyRule at h
  split at h
  · rename_i ema20 ema50 ema200 rsi realizedVol h20 h50 h200 hrsi hvol
    exact ⟨⟨ema20, ema50, ema200, rsi, realizedVol⟩, h20, h50, h200, hrsi, hvol⟩
  · cases h

theorem refused_agree (features : Features) (params : SignalParams) :
    applyRule features params = none ↔ ∃ message, decideSignal features params = .error message := by
  unfold decideSignal
  cases hread : readInputs features with
  | ok x =>
      rw [applyRule_of_inputs (readInputs_ok_iff.mp hread)]
      exact iff_of_false (by simp) (fun ⟨message, h⟩ => by cases h)
  | error message =>
      refine iff_of_true ?_ ⟨message, rfl⟩
      cases hrule : applyRule features params with
      | none => rfl
      | some m =>
          obtain ⟨x, hx⟩ := inputs_of_applyRule hrule
          rw [readInputs_ok_iff.mpr hx] at hread
          cases hread

theorem rulesAgree_iff {features : Features} {params : SignalParams}
    (hfinite : FiniteParams params) :
    RulesAgree features params ↔ ∀ x, HasInputs features x → DivisorNonzero x params := by
  constructor
  · intro h x hx
    have hsealed : decideSignal features params = .ok (decideInputs x params) := by
      unfold decideSignal
      rw [readInputs_ok_iff.mpr hx]
      rfl
    exact (confidence_agree_iff hfinite).mp
      (h.same _ _ hsealed (applyRule_of_inputs hx params)).2.2
  · intro h
    refine ⟨refused_agree features params, fun r m hsealed hmirror => ?_⟩
    obtain ⟨x, hread, rfl⟩ := map_eq_ok.mp hsealed
    have hx := readInputs_ok_iff.mp hread
    rw [applyRule_of_inputs hx] at hmirror
    cases hmirror
    exact ⟨rfl, rfl, (confidence_agree_iff hfinite).mpr (h x hx)⟩

/-! ## The parameters -/

/-- The two readings of a parameter record agree on every object. -/
theorem resolveSignalParams_agree (members : Dict JsValue) :
    resolveSignalParams (.obj members) =
      .ok (TradingDecision.resolveSignalParams (.obj members)) := rfl

/-- The mirror refines the sealed rule exactly where every readable input has a nonzero divisor; the
two copies of `resolveSignalParams` agree on every object. -/
theorem mirror_refines_iff (features : Features) (params : SignalParams)
    (hfinite : FiniteParams params) :
    (RulesAgree features params ↔ ∀ x, HasInputs features x → DivisorNonzero x params) ∧
      ∀ members : Dict JsValue, resolveSignalParams (.obj members) =
        .ok (TradingDecision.resolveSignalParams (.obj members)) :=
  ⟨rulesAgree_iff hfinite, resolveSignalParams_agree⟩

/-! ## A ceiling of zero -/

/-- The feature record that holds `x`. -/
def featuresOf (x : RuleInputs) : Features := fun key =>
  Dict.get? [("ema_20", JsNumber.fin x.ema20), ("ema_50", .fin x.ema50), ("ema_200", .fin x.ema200),
    ("rsi_14", .fin x.rsi), ("realized_vol_30", .fin x.realizedVol)] key

theorem hasInputs_featuresOf (x : RuleInputs) : HasInputs (featuresOf x) x :=
  ⟨rfl, rfl, rfl, rfl, rfl⟩

theorem HasInputs.unique {features : Features} {x y : RuleInputs} (hx : HasInputs features x)
    (hy : HasInputs features y) : x = y := by
  have hread := readInputs_ok_iff.mpr hx
  rw [readInputs_ok_iff.mpr hy] at hread
  exact (Except.ok.inj hread).symm

/-- A rising market with the index at 60 and little volatility. -/
def risingInputs : RuleInputs := ⟨270, 256, 198, 60, 1 / 100⟩

theorem mirror_refines_iff_rising : RulesAgree (featuresOf risingInputs) defaultSignalParams := by
  refine (mirror_refines_iff (featuresOf risingInputs) defaultSignalParams
    ⟨rfl, rfl, rfl⟩).1.mpr fun x hx => ?_
  rw [hx.unique (hasInputs_featuresOf risingInputs)]
  have hbelow : JsNumber.lt defaultSignalParams.maxRealizedVol (.fin risingInputs.realizedVol) =
      false := by decide +kernel
  unfold DivisorNonzero
  rw [hbelow]
  intro _
  norm_num [risingInputs]

/-- A strategy that stands aside at any volatility. -/
def zeroCeiling : SignalParams := ⟨.fin 55, .fin 45, .fin 0⟩

/-- The sealed rule is certain that it should stand aside, the mirror not at all. -/
theorem zero_ceiling_disagrees :
    (∃ r, decideSignal (featuresOf risingInputs) zeroCeiling = .ok r ∧ r.confidence = .fin 1) ∧
      (∃ m, applyRule (featuresOf risingInputs) zeroCeiling = some m ∧ m.confidence = 0) ∧
      ¬RulesAgree (featuresOf risingInputs) zeroCeiling := by
  have hsealed : ∃ r, decideSignal (featuresOf risingInputs) zeroCeiling = .ok r ∧
      r.confidence = .fin 1 := ⟨_, rfl, by decide +kernel⟩
  have hmirror : ∃ m, applyRule (featuresOf risingInputs) zeroCeiling = some m ∧
      m.confidence = 0 := ⟨_, rfl, by decide +kernel⟩
  refine ⟨hsealed, hmirror, fun h => ?_⟩
  obtain ⟨r, hr, hone⟩ := hsealed
  obtain ⟨m, hm, hzero⟩ := hmirror
  have hsame := (h.same r m hr hm).2.2
  rw [hone, hzero] at hsame
  exact absurd hsame (by decide)

end NexusQuant.Signal
