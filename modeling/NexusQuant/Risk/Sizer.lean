import NexusQuant.Lib.Binary64
import NexusQuant.Risk.Types

/-!
# The position sizer

`services/workers/src/risk/sizer.ts`.  Each mode forms a notional out of the equity, the price and the
options of its own; an input it cannot be formed from gives the zero size, with the reason as its
detail.  The arithmetic is exact until it overflows.  `Budget` says what each mode is for, without the
formula it is computed by: a sizing that is not zero meets the budget up to rounding, and every budget
that can be met without an overflow is met.
-/

namespace NexusQuant.Risk

open Binary64 (overflowBound overflowing overflowing_eq_fin overflowing_fin)
open Execution Market Rounding

/-- `SIZING_MODES`. -/
inductive RiskSizingMode where
  | fixedQuantity | fixedNotional | percentOfEquity | volatilityAdjusted | riskPerTrade
deriving DecidableEq, Repr

/-- Only the options of its mode are read. -/
structure SizingConfig where
  mode : RiskSizingMode
  leverage : JsNumber
  fixedQuantity : Option JsNumber := none
  fixedNotional : Option JsNumber := none
  equityFraction : Option JsNumber := none
  volTargetFraction : Option JsNumber := none
  riskFraction : Option JsNumber := none
  stopLossFraction : Option JsNumber := none
deriving DecidableEq, Repr

structure SizingInput where
  config : SizingConfig
  equity : JsNumber
  price : JsNumber
  volatility : Option JsNumber := none
deriving DecidableEq, Repr

structure PositionSizing where
  mode : RiskSizingMode
  targetQuantity : String
  targetNotional : String
  estimatedMargin : String
  detail : String
deriving DecidableEq, Repr

/-- A finite positive number, when it is one. -/
def isPos (n : JsNumber) : Option ℚ := n.finite?.filter fun q => 0 < q

/-- An option that is there, finite and not negative. -/
def unsigned (option : Option JsNumber) : Option ℚ :=
  (option.bind JsNumber.finite?).filter fun q => 0 ≤ q

def zeroSize (mode : RiskSizingMode) (detail : String) : PositionSizing :=
  ⟨mode, quantizeQty 0, quantizeNotional 0, quantizeNotional 0, detail⟩

/-- What a size is formed from, or why it is not formed. -/
def need (x : Option ℚ) (missing : String) : Except String ℚ :=
  x.elim (.error missing) .ok

/-- The text of a number inside a template. -/
def shown (x : ℚ) : String := DecimalText.numberText (.fin x)

/-- The notional of the mode and its detail, or why there is none. -/
def sizedNotional (input : SizingInput) (price : ℚ) : Except String (JsNumber × String) :=
  let config := input.config
  match config.mode with
  | .fixedQuantity => do
      let qty ← need (unsigned config.fixedQuantity) "fixedQuantity missing or negative"
      return (overflowing (.fin (qty * price)), "FIXED_QUANTITY qty=" ++ shown qty ++ " @ " ++ shown price)
  | .fixedNotional => do
      let notional ← need (unsigned config.fixedNotional) "fixedNotional missing or negative"
      return (.fin notional, "FIXED_NOTIONAL notional=" ++ shown notional)
  | .percentOfEquity => do
      let fraction ← need (unsigned config.equityFraction) "equityFraction missing or negative"
      let equity ← need input.equity.finite? "equity is non-finite"
      return (overflowing (.fin (max 0 equity * fraction)),
        "PERCENT_OF_EQUITY " ++ shown fraction ++ " * equity " ++ shown equity)
  | .volatilityAdjusted => do
      let target ← need (unsigned config.volTargetFraction) "volTargetFraction missing or negative"
      let volatility ←
        need (isPos (input.volatility.getD .nan)) "volatility missing or non-positive"
      let equity ← need input.equity.finite? "equity is non-finite"
      return (overflowing (overflowing (.fin (max 0 equity * target)) / .fin volatility),
        "VOLATILITY_ADJUSTED riskBudget=" ++ shown target ++ " vol=" ++ shown volatility)
  | .riskPerTrade => do
      let risk ← need (unsigned config.riskFraction) "riskFraction missing or negative"
      let stop ←
        need (isPos (config.stopLossFraction.getD .nan)) "stopLossFraction missing or non-positive"
      let equity ← need input.equity.finite? "equity is non-finite"
      let stopDistance := overflowing (.fin (price * stop))
      let qty := overflowing (overflowing (.fin (max 0 equity * risk)) / stopDistance)
      return (overflowing (qty * .fin price),
        "RISK_PER_TRADE risk=" ++ shown risk ++ " stop=" ++ shown stop)

/-- A leverage that is no finite positive number counts as none. -/
def SizingConfig.lev (config : SizingConfig) : ℚ := (isPos config.leverage).getD 1

/-- The size of a notional, rounded at the border, where a quantity or a margin that overflows is given
as zero. -/
def sized (config : SizingConfig) (price notional : ℚ) (detail : String) : PositionSizing where
  mode := config.mode
  targetQuantity := quantizeQty ((overflowing (.fin (notional / price))).finite?.getD 0)
  targetNotional := quantizeNotional notional
  estimatedMargin := quantizeNotional ((overflowing (.fin (notional / config.lev))).finite?.getD 0)
  detail := detail

def sizePosition (input : SizingInput) : PositionSizing :=
  let mode := input.config.mode
  match isPos input.price with
  | none =>
      zeroSize mode ("non-positive reference price " ++ DecimalText.numberText input.price)
  | some price =>
      match sizedNotional input price with
      | .error detail => zeroSize mode detail
      | .ok (.fin notional, detail) =>
          if notional ≤ 0 then zeroSize mode (detail ++ " -> non-positive notional")
          else sized input.config price notional detail
      | .ok (_, detail) => zeroSize mode (detail ++ " -> non-positive notional")

def sizingNotional (sizing : PositionSizing) : ℚ := parseDecimal sizing.targetNotional

/-! ## What the modes are for -/

/-- The budget of a mode, for a notional at a price: the quantity or the notional that was given, the
share of the equity that was asked for, the loss of one deviation, the loss at the stop. -/
def Budget (input : SizingInput) (price notional : ℚ) : Prop :=
  let config := input.config
  match config.mode with
  | .fixedQuantity => config.fixedQuantity = some (.fin (notional / price))
  | .fixedNotional => config.fixedNotional = some (.fin notional)
  | .percentOfEquity => ∃ equity, input.equity = .fin equity ∧ 0 < equity ∧
      config.equityFraction = some (.fin (notional / equity))
  | .volatilityAdjusted => ∃ equity volatility, input.equity = .fin equity ∧ 0 < equity ∧
      input.volatility = some (.fin volatility) ∧ 0 < volatility ∧
      config.volTargetFraction = some (.fin (notional * volatility / equity))
  | .riskPerTrade => ∃ equity stop, input.equity = .fin equity ∧ 0 < equity ∧
      config.stopLossFraction = some (.fin stop) ∧ 0 < stop ∧
      config.riskFraction = some (.fin (notional / price * (price * stop) / equity))

/-- The numbers that a notional is computed through do not overflow. -/
def Computable (input : SizingInput) (price notional : ℚ) : Prop :=
  let config := input.config
  match config.mode with
  | .fixedQuantity | .percentOfEquity => notional < overflowBound
  | .fixedNotional => True
  | .volatilityAdjusted => notional < overflowBound ∧
      ∀ volatility, input.volatility = some (.fin volatility) → notional * volatility < overflowBound
  | .riskPerTrade => notional < overflowBound ∧ notional / price < overflowBound ∧
      ∀ stop, config.stopLossFraction = some (.fin stop) → price * stop < overflowBound ∧
        notional / price * (price * stop) < overflowBound

/-- A positive notional that meets the budget at a positive price and can be computed. -/
structure Sizes (input : SizingInput) (price notional : ℚ) : Prop where
  atPrice : input.price = .fin price
  pricePos : 0 < price
  notionalPos : 0 < notional
  budget : Budget input price notional
  computable : Computable input price notional

theorem bind_need_eq_ok {α : Type} {x : Option ℚ} {missing : String} {f : ℚ → Except String α}
    {b : α} : (need x missing >>= f) = .ok b ↔ ∃ a, x = some a ∧ f a = .ok b := by
  cases x with
  | none => simp [need, bind, Except.bind]
  | some a => simp [need, bind, Except.bind]

theorem isPos_eq_some {n : JsNumber} {q : ℚ} : isPos n = some q ↔ n = .fin q ∧ 0 < q := by
  cases n with
  | fin x =>
      simp only [isPos, JsNumber.finite?_fin, Option.filter_eq_some_iff, Option.some.injEq,
        decide_eq_true_eq, JsNumber.fin.injEq]
  | nan | posInf | negInf => simp [isPos, JsNumber.finite?]

theorem unsigned_eq_some {option : Option JsNumber} {q : ℚ} :
    unsigned option = some q ↔ option = some (.fin q) ∧ 0 ≤ q := by
  cases option with
  | none => simp [unsigned]
  | some n =>
      cases n with
      | fin x =>
          simp only [unsigned, Option.bind_some, JsNumber.finite?_fin, Option.filter_eq_some_iff,
            Option.some.injEq, decide_eq_true_eq, JsNumber.fin.injEq]
      | nan | posInf | negInf => simp [unsigned, JsNumber.finite?]

theorem finite?_eq_some {n : JsNumber} {q : ℚ} : n.finite? = some q ↔ n = .fin q := by
  cases n <;> simp [JsNumber.finite?]

/-- A share of the equity, which is negative for no equity, is a notional exactly when the equity is
positive and the share is the notional over the equity. -/
theorem share_eq_iff {equity fraction notional : ℚ} (hpos : 0 < notional) :
    max 0 equity * fraction = notional ↔ 0 < equity ∧ fraction = notional / equity := by
  constructor
  · intro h
    have hequity : 0 < equity := by
      by_contra hneg
      rw [max_eq_left (not_lt.mp hneg), zero_mul] at h
      exact absurd h hpos.ne
    rw [max_eq_right hequity.le] at h
    exact ⟨hequity, by rw [← h]; field_simp⟩
  · rintro ⟨hequity, rfl⟩
    rw [max_eq_right hequity.le]
    field_simp

/-- A quotient is kept when neither the dividend nor it overflows. -/
theorem overflowing_div {a d n : ℚ} (ha : 0 ≤ a) (hd : 0 < d) :
    overflowing (overflowing (.fin a) / .fin d) = .fin n ↔
      a / d = n ∧ a < overflowBound ∧ n < overflowBound := by
  rw [overflowing_fin ha]
  split
  · rename_i hlt
    rw [JsNumber.fin_div hd.ne', overflowing_eq_fin, JsNumber.fin.injEq]
    refine and_congr_right fun heq => ?_
    rw [abs_of_nonneg (heq ▸ div_nonneg ha hd.le)]
    exact (and_iff_right hlt).symm
  · rename_i hge
    have hinf : JsNumber.posInf / JsNumber.fin d = .posInf := if_neg (not_lt.mpr hd.le)
    rw [hinf]
    exact iff_of_false JsNumber.noConfusion fun h => hge h.2.1

/-- The notional of a quotient at a price is positive only where nothing before it overflows: over an
infinite divisor the quotient is zero or not a number. -/
theorem overflowing_mul_div {a d p n : ℚ} (ha : 0 ≤ a) (hd : 0 < d) (hp : 0 < p) (hn : 0 < n) :
    overflowing (overflowing (overflowing (.fin a) / overflowing (.fin d)) * .fin p) = .fin n ↔
      a / d * p = n ∧ d < overflowBound ∧ a < overflowBound ∧ a / d < overflowBound ∧
        n < overflowBound := by
  rw [overflowing_fin hd.le]
  split
  · rename_i hdlt
    by_cases hkept : a < overflowBound ∧ a / d < overflowBound
    · rw [(overflowing_div ha hd).mpr ⟨rfl, hkept⟩, JsNumber.fin_mul, overflowing_eq_fin,
        JsNumber.fin.injEq]
      constructor
      · rintro ⟨heq, hlt⟩
        exact ⟨heq, hdlt, hkept.1, hkept.2, (abs_lt.mp hlt).2⟩
      · rintro ⟨heq, -, -, -, hlt⟩
        exact ⟨heq, by rwa [abs_of_pos hn]⟩
    · have hinf : overflowing (overflowing (.fin a) / .fin d) = .posInf := by
        rw [overflowing_fin ha]
        split
        · rename_i halt
          rw [JsNumber.fin_div hd.ne', overflowing_fin (div_nonneg ha hd.le),
            if_neg fun hlt => hkept ⟨halt, hlt⟩]
        · have hquotient : JsNumber.posInf / JsNumber.fin d = .posInf := if_neg (not_lt.mpr hd.le)
          rw [hquotient]
          rfl
      have hproduct : JsNumber.posInf * JsNumber.fin p = .posInf := by
        show (if p = 0 then JsNumber.nan else JsNumber.infOfSign p) = _
        rw [if_neg hp.ne']
        exact if_neg (not_lt.mpr hp.le)
      rw [hinf, hproduct]
      exact iff_of_false JsNumber.noConfusion fun h => hkept ⟨h.2.2.1, h.2.2.2.1⟩
  · rename_i hdge
    refine iff_of_false ?_ fun h => hdge h.2.1
    have hzero : overflowing (overflowing (.fin a) / .posInf) = .fin 0 ∨
        overflowing (overflowing (.fin a) / .posInf) = .nan := by
      rw [overflowing_fin ha]
      split
      · rename_i halt
        left
        show overflowing (.fin 0) = .fin 0
        rw [overflowing_fin le_rfl, if_pos (ha.trans_lt halt)]
      · exact .inr rfl
    rcases hzero with h | h
    · rw [h, JsNumber.fin_mul, zero_mul, overflowing_eq_fin]
      rintro ⟨heq, -⟩
      exact hn.ne (JsNumber.fin.inj heq)
    · rw [h]
      exact JsNumber.noConfusion

/-- An option that is missing reads as NaN, so one that is read is there. -/
theorem getD_nan_eq_fin {option : Option JsNumber} {q : ℚ} :
    option.getD .nan = .fin q ↔ option = some (.fin q) := by
  cases option with
  | none => simp
  | some n => simp

/-- The notional whose loss at one deviation is the share of the equity. -/
theorem volatilityAdjusted_eq_iff {equity target volatility n : ℚ} (htarget : 0 ≤ target)
    (hvolatility : 0 < volatility) (hn : 0 < n) :
    overflowing (overflowing (.fin (max 0 equity * target)) / .fin volatility) = .fin n ↔
      (0 < equity ∧ target = n * volatility / equity) ∧ n < overflowBound ∧
        n * volatility < overflowBound := by
  have hbudget : 0 ≤ max 0 equity * target := mul_nonneg (le_max_left 0 equity) htarget
  rw [overflowing_div hbudget hvolatility, div_eq_iff hvolatility.ne',
    ← share_eq_iff (mul_pos hn hvolatility)]
  refine and_congr_right fun hshare => ?_
  rw [hshare]
  exact And.comm

/-- The notional whose loss at the stop is the share of the equity. -/
theorem riskPerTrade_eq_iff {equity risk stop price n : ℚ} (hrisk : 0 ≤ risk) (hprice : 0 < price)
    (hstop : 0 < stop) (hn : 0 < n) :
    overflowing (overflowing (overflowing (.fin (max 0 equity * risk)) /
        overflowing (.fin (price * stop))) * .fin price) = .fin n ↔
      (0 < equity ∧ risk = n / price * (price * stop) / equity) ∧ n < overflowBound ∧
        n / price < overflowBound ∧ price * stop < overflowBound ∧
        n / price * (price * stop) < overflowBound := by
  have hdistance := mul_pos hprice hstop
  have hbudget : 0 ≤ max 0 equity * risk := mul_nonneg (le_max_left 0 equity) hrisk
  rw [overflowing_mul_div hbudget hdistance hprice hn, ← eq_div_iff hprice.ne',
    div_eq_iff hdistance.ne', ← share_eq_iff (mul_pos (div_pos hn hprice) hdistance)]
  refine and_congr_right fun hshare => ?_
  -- The quantity is the share of the equity over the distance to the stop.
  have hqty : max 0 equity * risk / (price * stop) = n / price := by
    rw [hshare, mul_div_cancel_right₀ _ hdistance.ne']
  rw [hqty, hshare]
  constructor
  · rintro ⟨hdistanceLt, hbudgetLt, hqtyLt, hlt⟩
    exact ⟨hlt, hqtyLt, hdistanceLt, hbudgetLt⟩
  · rintro ⟨hlt, hqtyLt, hdistanceLt, hbudgetLt⟩
    exact ⟨hdistanceLt, hbudgetLt, hqtyLt, hlt⟩

section Budget

variable {input : SizingInput} {price notional : ℚ}

/-- A positive notional is formed exactly when it meets the budget of its mode and can be computed. -/
theorem sizedNotional_iff_budget (hprice : 0 < price) (hpos : 0 < notional) :
    (∃ detail, sizedNotional input price = .ok (.fin notional, detail)) ↔
      Budget input price notional ∧ Computable input price notional := by
  cases hmode : input.config.mode with
  | fixedQuantity =>
      simp only [sizedNotional, Budget, Computable, hmode, bind_need_eq_ok, unsigned_eq_some, pure,
        Except.pure, Except.ok.injEq, Prod.mk.injEq, overflowing_eq_fin, JsNumber.fin.injEq]
      constructor
      · rintro ⟨detail, qty, ⟨hqty, -⟩, ⟨rfl, hlt⟩, -⟩
        rw [mul_div_assoc, div_self hprice.ne', mul_one]
        exact ⟨hqty, (abs_lt.mp hlt).2⟩
      · rintro ⟨h, hlt⟩
        refine ⟨_, notional / price, ⟨h, (div_pos hpos hprice).le⟩, ?_, rfl⟩
        rw [div_mul_cancel₀ notional hprice.ne', abs_of_pos hpos]
        exact ⟨rfl, hlt⟩
  | fixedNotional =>
      simp only [sizedNotional, Budget, Computable, hmode, bind_need_eq_ok, unsigned_eq_some, pure,
        Except.pure, Except.ok.injEq, Prod.mk.injEq, JsNumber.fin.injEq, and_true]
      constructor
      · rintro ⟨detail, value, ⟨hvalue, -⟩, rfl, -⟩
        exact hvalue
      · intro h
        exact ⟨_, notional, ⟨h, hpos.le⟩, rfl, rfl⟩
  | percentOfEquity =>
      simp only [sizedNotional, Budget, Computable, hmode, bind_need_eq_ok, unsigned_eq_some,
        finite?_eq_some, pure, Except.pure, Except.ok.injEq, Prod.mk.injEq, overflowing_eq_fin,
        JsNumber.fin.injEq]
      constructor
      · rintro ⟨detail, fraction, ⟨hfraction, -⟩, equity, hequity, ⟨hshare, hlt⟩, -⟩
        obtain ⟨hequityPos, rfl⟩ := (share_eq_iff hpos).mp hshare
        exact ⟨⟨equity, hequity, hequityPos, hfraction⟩, (abs_lt.mp hlt).2⟩
      · rintro ⟨⟨equity, hequity, hequityPos, hfraction⟩, hlt⟩
        have hshare := (share_eq_iff hpos).mpr ⟨hequityPos, rfl⟩
        refine ⟨_, _, ⟨hfraction, (div_pos hpos hequityPos).le⟩, equity, hequity, ⟨hshare, ?_⟩, rfl⟩
        rwa [abs_of_pos hpos]
  | volatilityAdjusted =>
      simp only [sizedNotional, Budget, Computable, hmode, bind_need_eq_ok, unsigned_eq_some,
        isPos_eq_some, getD_nan_eq_fin, finite?_eq_some, pure, Except.pure, Except.ok.injEq,
        Prod.mk.injEq]
      constructor
      · rintro ⟨detail, target, ⟨htarget, hnonneg⟩, volatility, ⟨hthere, hvolPos⟩, equity, hequity,
          hformed, -⟩
        obtain ⟨⟨hequityPos, rfl⟩, hlt, hlossLt⟩ :=
          (volatilityAdjusted_eq_iff hnonneg hvolPos hpos).mp hformed
        refine ⟨⟨equity, volatility, hequity, hequityPos, hthere, hvolPos, htarget⟩, hlt, ?_⟩
        intro volatility' hthere'
        cases hthere.symm.trans hthere'
        exact hlossLt
      · rintro ⟨⟨equity, volatility, hequity, hequityPos, hthere, hvolPos, htarget⟩, hlt, hlossLt⟩
        have hnonneg := (div_pos (mul_pos hpos hvolPos) hequityPos).le
        exact ⟨_, _, ⟨htarget, hnonneg⟩, volatility, ⟨hthere, hvolPos⟩, equity, hequity,
          (volatilityAdjusted_eq_iff hnonneg hvolPos hpos).mpr
            ⟨⟨hequityPos, rfl⟩, hlt, hlossLt volatility hthere⟩, rfl⟩
  | riskPerTrade =>
      simp only [sizedNotional, Budget, Computable, hmode, bind_need_eq_ok, unsigned_eq_some,
        isPos_eq_some, getD_nan_eq_fin, finite?_eq_some, pure, Except.pure, Except.ok.injEq,
        Prod.mk.injEq]
      constructor
      · rintro ⟨detail, risk, ⟨hrisk, hnonneg⟩, stop, ⟨hthere, hstopPos⟩, equity, hequity, hformed, -⟩
        obtain ⟨⟨hequityPos, rfl⟩, hlt, hqtyLt, hstopLt⟩ :=
          (riskPerTrade_eq_iff hnonneg hprice hstopPos hpos).mp hformed
        refine ⟨⟨equity, stop, hequity, hequityPos, hthere, hstopPos, hrisk⟩, hlt, hqtyLt, ?_⟩
        intro stop' hthere'
        cases hthere.symm.trans hthere'
        exact hstopLt
      · rintro ⟨⟨equity, stop, hequity, hequityPos, hthere, hstopPos, hrisk⟩, hlt, hqtyLt, hstopLt⟩
        have hloss := mul_pos (div_pos hpos hprice) (mul_pos hprice hstopPos)
        have hnonneg := (div_pos hloss hequityPos).le
        exact ⟨_, _, ⟨hrisk, hnonneg⟩, stop, ⟨hthere, hstopPos⟩, equity, hequity,
          (riskPerTrade_eq_iff hnonneg hprice hstopPos hpos).mpr
            ⟨⟨hequityPos, rfl⟩, hlt, hqtyLt, hstopLt stop hthere⟩, rfl⟩

/-- A notional that meets the budget is the one that is sized. -/
theorem sizePosition_of_sizes (h : Sizes input price notional) :
    ∃ detail, sizePosition input = sized input.config price notional detail := by
  have hprice : isPos input.price = some price := isPos_eq_some.mpr ⟨h.atPrice, h.pricePos⟩
  obtain ⟨detail, hsized⟩ :=
    (sizedNotional_iff_budget h.pricePos h.notionalPos).mpr ⟨h.budget, h.computable⟩
  refine ⟨detail, ?_⟩
  unfold sizePosition
  simp only [hprice, hsized]
  exact if_neg (not_le.mpr h.notionalPos)

/-- Where no notional meets the budget the size is zero. -/
theorem sizePosition_of_not_sizes (h : ¬ ∃ price notional, Sizes input price notional) :
    ∃ detail, sizePosition input = zeroSize input.config.mode detail := by
  unfold sizePosition
  dsimp only
  cases hprice : isPos input.price with
  | none => exact ⟨_, rfl⟩
  | some price =>
      obtain ⟨hat, hpricePos⟩ := isPos_eq_some.mp hprice
      dsimp only
      cases hsized : sizedNotional input price with
      | error detail => exact ⟨detail, rfl⟩
      | ok formed =>
          obtain ⟨number, detail⟩ := formed
          cases number with
          | fin notional =>
              dsimp only
              -- A positive notional that is formed would meet the budget.
              have hpos : notional ≤ 0 := by
                by_contra hpos
                obtain ⟨hbudget, hcomputable⟩ :=
                  (sizedNotional_iff_budget hpricePos (not_le.mp hpos)).mp ⟨detail, hsized⟩
                exact h ⟨price, notional, hat, hpricePos, not_le.mp hpos, hbudget, hcomputable⟩
              rw [if_pos hpos]
              exact ⟨_, rfl⟩
          | nan | posInf | negInf => exact ⟨_, rfl⟩

end Budget

/-- What the texts of a sizing are worth. -/
theorem parseDecimal_sized (config : SizingConfig) (price notional : ℚ) (detail : String) :
    parseDecimal (sized config price notional detail).targetQuantity =
        (overflowing (.fin (notional / price))).round qtyDp ∧
      parseDecimal (sized config price notional detail).targetNotional =
        roundTo notionalDp notional ∧
      parseDecimal (sized config price notional detail).estimatedMargin =
        (overflowing (.fin (notional / config.lev))).round notionalDp := by
  have hround : ∀ (dp : ℕ) (x : JsNumber), roundTo dp (x.finite?.getD 0) = x.round dp := by
    intro dp x
    cases x with
    | fin q => rfl
    | nan | posInf | negInf => exact roundTo_zero dp
  exact ⟨(parseDecimal_quantize (by decide) _).trans (hround _ _), parseDecimal_quantize (by decide) _,
    (parseDecimal_quantize (by decide) _).trans (hround _ _)⟩

theorem round_overflowing_nonneg {q : ℚ} (hq : 0 ≤ q) (dp : ℕ) :
    0 ≤ (overflowing (.fin q)).round dp := by
  rw [overflowing_fin hq]
  split
  · exact roundTo_nonneg hq
  · exact le_rfl

theorem lev_pos (config : SizingConfig) : 0 < config.lev := by
  unfold SizingConfig.lev
  cases h : isPos config.leverage with
  | none => exact one_pos
  | some q => exact (isPos_eq_some.mp h).2

/-- A sizing is the rounding of a notional that meets the budget of its mode and can be computed, and it
is zero exactly where there is none or the one there is rounds to zero; no amount of it is negative. -/
theorem sizePosition_meets_budget (input : SizingInput) :
    let s := sizePosition input
    (∀ price notional, Sizes input price notional →
      parseDecimal s.targetQuantity = (overflowing (.fin (notional / price))).round qtyDp ∧
      parseDecimal s.targetNotional = roundTo notionalDp notional ∧
      parseDecimal s.estimatedMargin =
        (overflowing (.fin (notional / input.config.lev))).round notionalDp) ∧
    (0 < parseDecimal s.targetNotional ↔
      ∃ price notional, Sizes input price notional ∧ 1 / 2 / 10 ^ notionalDp ≤ notional) ∧
    0 ≤ parseDecimal s.targetQuantity ∧ 0 ≤ parseDecimal s.targetNotional ∧
      0 ≤ parseDecimal s.estimatedMargin := by
  dsimp only
  have hzero : ∀ mode detail, parseDecimal (zeroSize mode detail).targetNotional = 0 ∧
      parseDecimal (zeroSize mode detail).targetQuantity = 0 ∧
      parseDecimal (zeroSize mode detail).estimatedMargin = 0 := by
    intro mode detail
    refine ⟨?_, ?_, ?_⟩
    · exact (parseDecimal_quantize (by decide) 0).trans (roundTo_zero _)
    · exact (parseDecimal_quantize (by decide) 0).trans (roundTo_zero _)
    · exact (parseDecimal_quantize (by decide) 0).trans (roundTo_zero _)
  by_cases hsizes : ∃ price notional, Sizes input price notional
  · obtain ⟨price, notional, h⟩ := hsizes
    obtain ⟨detail, hsized⟩ := sizePosition_of_sizes h
    obtain ⟨hqty, hnotional, hmargin⟩ := parseDecimal_sized input.config price notional detail
    rw [hsized, hqty, hnotional, hmargin]
    refine ⟨?_, ?_, ?_, ?_, ?_⟩
    · intro price' notional' h'
      -- The budget fixes the notional: both are the one that is sized.
      obtain ⟨detail', hsized'⟩ := sizePosition_of_sizes h'
      have htexts := parseDecimal_sized input.config price' notional' detail'
      rw [← hsized', hsized, hqty, hnotional, hmargin] at htexts
      exact htexts
    · rw [roundTo_pos_iff]
      constructor
      · exact fun hhalf => ⟨price, notional, h, hhalf⟩
      · rintro ⟨price', notional', h', hhalf⟩
        obtain ⟨detail', hsized'⟩ := sizePosition_of_sizes h'
        have htext := (parseDecimal_sized input.config price' notional' detail').2.1
        rw [← hsized', hsized, hnotional] at htext
        exact roundTo_pos_iff.mp (htext ▸ roundTo_pos_iff.mpr hhalf)
    · exact round_overflowing_nonneg (div_pos h.notionalPos h.pricePos).le _
    · exact roundTo_nonneg h.notionalPos.le
    · exact round_overflowing_nonneg (div_pos h.notionalPos (lev_pos _)).le _
  · obtain ⟨detail, hsized⟩ := sizePosition_of_not_sizes hsizes
    obtain ⟨hnotional, hqty, hmargin⟩ := hzero input.config.mode detail
    rw [hsized, hnotional, hqty, hmargin]
    refine ⟨fun price notional h => absurd ⟨price, notional, h⟩ hsizes, ?_, le_rfl, le_rfl, le_rfl⟩
    constructor
    · intro h
      exact absurd h (lt_irrefl _)
    · rintro ⟨price, notional, h, -⟩
      exact absurd ⟨price, notional, h⟩ hsizes

end NexusQuant.Risk
