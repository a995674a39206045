import Mathlib.Tactic.LinearCombination
import NexusQuant.Market.TargetConvergence

/-!
# Executing an intent again

A call leaves the difference between the target and what is held after the fill, and the next call
at the same quote orders that difference, rounded.  It is rounded to nothing when it is less than half
a unit of the last place.  In exact decimals it always is, unless the target is halfway between two
decimals: then it is rounded up to a whole unit each time, first on one side of the target and then on
the other.  In doubles the sum of the held and the filled quantity adds its own rounding.
-/

namespace NexusQuant.Market

open Execution Fallible Rounding Run

/-- Executing the intent a second time at the same quote moves nothing, orders nothing and journals
nothing. -/
def Reexecutes [A : Arithmetic] (cfg : AdapterConfig) (e : Surroundings) (s : AdapterState)
    (intent : ExecutionIntent) (price : ℚ) : Prop :=
  let first := stepCall cfg s (worldOf .paper e, intent)
  let second := stepCall cfg first (worldOf .paper e, intent)
  second.marketState = first.marketState ∧ isNoOp first intent price ∧
    second.journal = first.journal

/-- Nothing is missing of the target, or the order for what is missing is committed and leaves nothing
missing. -/
def OrderSettles [A : Arithmetic] (cfg : AdapterConfig) (s : AdapterState) (intent : ExecutionIntent)
    (price : ℚ) : Prop :=
  Reached (targetQty intent price) (s.heldQty intent.symbol) ∨
    A.finite (positionNotional (paperPosition cfg s intent price)) ∧
      Reached (targetQty intent price)
        (tradedTo (targetQty intent price) (s.heldQty intent.symbol))

instance [Arithmetic] (cfg : AdapterConfig) (s : AdapterState) (intent : ExecutionIntent) (price : ℚ) :
    Decidable (OrderSettles cfg s intent price) := inferInstanceAs (Decidable (_ ∨ _))

section Again

variable [A : Arithmetic] [A.Lawful] {cfg : AdapterConfig} {e : Surroundings} {s : AdapterState}
  {intent : ExecutionIntent} {quote : Quote}

/-- The first call leaves nothing to order exactly when it settles. -/
theorem Reconciled.isNoOp_stepCall_iff (h : Reconciled s) (htolerance : CoversCents cfg.tolerance)
    (hfinite : A.finite cfg.tolerance) (he : e.Quiet)
    (hquote : e.quote intent.symbol = .ok (some quote)) (hprice : 0 < parseDecimal quote.price) :
    isNoOp (stepCall cfg s (worldOf .paper e, intent)) intent (parseDecimal quote.price) ↔
      OrderSettles cfg s intent (parseDecimal quote.price) := by
  rw [isNoOp_iff_reached]
  unfold OrderSettles AdapterState.heldQty
  by_cases hnoop : isNoOp s intent (parseDecimal quote.price)
  · rw [(stepCall_noOp he hquote hprice hnoop).1]
    have hreached := isNoOp_iff_reached.mp hnoop
    exact ⟨fun _ => .inl hreached, fun _ => hreached⟩
  · have hmissing : ¬Reached (targetQty intent (parseDecimal quote.price))
        (s.heldQty intent.symbol) := fun hreached => hnoop (isNoOp_iff_reached.mpr hreached)
    by_cases hfits : A.finite (positionNotional (paperPosition cfg s intent (parseDecimal quote.price)))
    · rw [h.stepCall_trades htolerance he hquote hprice hnoop hfits, netQty_paperPosition]
      exact ⟨fun hreached => .inr ⟨hfits, hreached⟩, fun hsettles =>
        (hsettles.resolve_left hmissing).2⟩
    · -- The reconciliation refuses the order, and all of it is still missing.
      rw [h.toMirrored.stepCall_overflow htolerance.nonneg hfinite he hquote hprice hnoop hfits]
      constructor
      · exact fun hreached => absurd hreached hmissing
      · rintro (hreached | ⟨hcommitted, -⟩)
        · exact absurd hreached hmissing
        · exact absurd hcommitted hfits

theorem Reconciled.reexecutes_iff_orderSettles (h : Reconciled s) (htolerance : CoversCents cfg.tolerance)
    (hfinite : A.finite cfg.tolerance) (he : e.Quiet)
    (hquote : e.quote intent.symbol = .ok (some quote)) (hprice : 0 < parseDecimal quote.price) :
    Reexecutes cfg e s intent (parseDecimal quote.price) ↔
      OrderSettles cfg s intent (parseDecimal quote.price) := by
  rw [← h.isNoOp_stepCall_iff htolerance hfinite he hquote hprice]
  constructor
  · exact fun hagain => hagain.2.1
  · intro hnoop
    obtain ⟨hmarket, hjournal⟩ := @stepCall_noOp _ cfg _ _ _ _ he hquote hprice hnoop
    exact ⟨hmarket, hnoop, hjournal⟩

end Again

/-! ## Ties -/

/-- The target is halfway between two decimals of eight places. -/
def TiedTarget (intent : ExecutionIntent) (price : ℚ) : Prop :=
  ∃ k : ℤ, targetQty intent price = (k + 1 / 2) / 10 ^ qtyDp

theorem TiedTarget.half_le {intent : ExecutionIntent} {price x : ℚ} (h : TiedTarget intent price)
    (hx : x ∈ grid qtyDp) : 1 / 2 / 10 ^ qtyDp ≤ |targetQty intent price - x| := by
  obtain ⟨k, hk⟩ := h
  obtain ⟨m, rfl⟩ := mem_grid.mp hx
  have hp := pow_ten_pos qtyDp
  rw [hk, ← sub_div, abs_div, abs_of_pos hp]
  apply div_le_div_of_nonneg_right _ hp.le
  -- A half-integer is not closer than a half to an integer.
  rcases le_or_gt m k with hle | hgt
  · have hcast : (m : ℚ) ≤ k := by exact_mod_cast hle
    rw [le_abs]
    left
    linarith
  · have hcast : (k : ℚ) + 1 ≤ m := by exact_mod_cast hgt
    rw [le_abs]
    right
    linarith

theorem tiedTarget_of_half {intent : ExecutionIntent} {price x : ℚ} (hx : x ∈ grid qtyDp)
    (h : |targetQty intent price - x| = 1 / 2 / 10 ^ qtyDp) : TiedTarget intent price := by
  obtain ⟨m, rfl⟩ := mem_grid.mp hx
  rcases abs_choice (targetQty intent price - m / 10 ^ qtyDp) with heq | heq
  · refine ⟨m, ?_⟩
    rw [heq] at h
    linear_combination h
  · refine ⟨m - 1, ?_⟩
    rw [heq] at h
    push_cast
    linear_combination -h

/-- With nothing rounded, the call settles unless the target is a tie. -/
theorem orderSettles_exact_iff {cfg : AdapterConfig} {s : AdapterState} {intent : ExecutionIntent}
    {price : ℚ} (hheld : s.heldQty intent.symbol ∈ grid qtyDp) :
    OrderSettles cfg s intent price ↔ ¬TiedTarget intent price := by
  have hreached (x : ℚ) : Reached (targetQty intent price) x ↔
      |targetQty intent price - x| < 1 / 2 / 10 ^ qtyDp := by
    unfold Reached
    rw [quantizeQty_eq_zero_iff, Arithmetic.finiteOrZero_exact, roundTo_eq_zero_iff, abs_abs,
      Arithmetic.rounded_exact]
  -- What is left of the missing quantity is its rounding error, at most half a unit.
  have hafter := (grid qtyDp).add_mem hheld
    (roundTo_mem_grid qtyDp (targetQty intent price - s.heldQty intent.symbol))
  have herror := abs_roundTo_sub_le qtyDp (targetQty intent price - s.heldQty intent.symbol)
  rw [abs_sub_comm, sub_sub] at herror
  unfold OrderSettles
  rw [tradedTo_exact hheld, hreached, hreached]
  constructor
  · rintro (hless | ⟨-, hless⟩) htied
    · exact absurd hless (not_lt.mpr (htied.half_le hheld))
    · exact absurd hless (not_lt.mpr (htied.half_le hafter))
  · intro hfree
    refine .inr ⟨rfl, lt_of_le_of_ne herror ?_⟩
    exact fun hhalf => hfree (tiedTarget_of_half hafter hhalf)

theorem reexecutes_exact_iff {cfg : AdapterConfig} (htolerance : 1 / 200 ≤ cfg.tolerance)
    (calls : List (Surroundings × ExecutionIntent)) {e : Surroundings} (he : e.Quiet)
    {intent : ExecutionIntent} {quote : Quote} (hquote : e.quote intent.symbol = .ok (some quote))
    (hprice : 0 < parseDecimal quote.price) :
    Reexecutes cfg e (paperRun cfg calls) intent (parseDecimal quote.price) ↔
      ¬TiedTarget intent (parseDecimal quote.price) := by
  have hmirrored := mirrored_paperRun cfg calls
  have hreconciled : Reconciled (paperRun cfg calls) := ⟨hmirrored, fun _ => rfl⟩
  rw [hreconciled.reexecutes_iff_orderSettles (coversCents_exact htolerance) rfl he hquote hprice]
  exact orderSettles_exact_iff (netQty_mem_grid hmirrored.wellFormed _)

/-- From every state that calls over the paper broker reach, executing an intent a second time at the
same quote is a no-op exactly when, in doubles, the first execution settles; with nothing rounded it
is one exactly when the target is no tie. -/
theorem reexecutes_iff (cfg : AdapterConfig)
    (htolerance : defaultReconciliationTolerance (A := .doubles) ≤ cfg.tolerance)
    (hfinite : Arithmetic.doubles.finite cfg.tolerance)
    (calls : List (Surroundings × ExecutionIntent)) (s : AdapterState)
    (hs : s = paperRun (A := .doubles) cfg calls) {e : Surroundings} (he : e.Quiet)
    {intent : ExecutionIntent} {quote : Quote}
    (hquote : e.quote intent.symbol = .ok (some quote))
    (hprice : 0 < parseDecimal (A := .doubles) quote.price) :
    (Reexecutes (A := .doubles) cfg e s intent (parseDecimal (A := .doubles) quote.price) ↔
      OrderSettles (A := .doubles) cfg s intent (parseDecimal (A := .doubles) quote.price)) ∧
    (Reexecutes (A := .exact) cfg e (paperRun (A := .exact) cfg calls) intent
        (parseDecimal (A := .exact) quote.price) ↔
      ¬TiedTarget intent (parseDecimal (A := .exact) quote.price)) := by
  have hcovers := @coversCents_of_le .doubles _ _ htolerance
  have hreconciled : Reconciled (A := .doubles) s := by
    rw [hs]
    exact @reconciled_paperRun .doubles _ _ (@CoversCents.nonneg .doubles _ _ hcovers) hfinite calls
  constructor
  · exact @Reconciled.reexecutes_iff_orderSettles .doubles _ _ _ _ _ _ hreconciled hcovers hfinite he
      hquote hprice
  · have hcents : 1 / 200 ≤ defaultReconciliationTolerance (A := .doubles) := by decide +kernel
    exact reexecutes_exact_iff (hcents.trans htolerance) calls he hquote
      (@pos_of_parseDecimal_pos .doubles _ _ hprice)

/-- A target of 150.00 at 100 is one and a half. -/
theorem reexecutes_iff_sample :
    Reexecutes (A := .doubles) doublesConfig (quietSurroundings "100.00000000")
      (paperRun (A := .doubles) doublesConfig []) sampleIntent
      (parseDecimal (A := .doubles) "100.00000000") := by
  apply (@reexecutes_iff doublesConfig le_rfl (by decide +kernel) [] _ rfl _
    (quiet_quietSurroundings "100.00000000") sampleIntent
    ⟨"BTC", "2026-01-01T00:00:00.000Z", "100.00000000"⟩ rfl (by decide +kernel)).1.mpr
  decide +kernel

/-- 500000.00 at 1.37 is no tie, and yet in doubles half a unit is missing after the first call. -/
example : ¬OrderSettles (A := .doubles) doublesConfig (initialAdapterState doublesConfig)
    { sampleIntent with targetNotional := "500000.00" } (parseDecimal (A := .doubles) "1.37000000") := by
  decide +kernel

/-- 1.25 at 128 is 0.009765625. -/
def tiedIntent : ExecutionIntent := { sampleIntent with targetNotional := "1.25" }

/-- The first call buys 0.00976563 and the second one sells a unit of the last place again. -/
theorem reexecution_at_tie :
    let first := stepCall (A := .doubles) doublesConfig (paperRun (A := .doubles) doublesConfig [])
      (worldOf (A := .doubles) .paper (quietSurroundings "128.00000000"), tiedIntent)
    let second := stepCall (A := .doubles) doublesConfig first
      (worldOf (A := .doubles) .paper (quietSurroundings "128.00000000"), tiedIntent)
    (first.marketState.position "BTC").netQty = "0.00976563" ∧
      (second.marketState.position "BTC").netQty = "0.00976562" ∧
      first.journal.length = 1 ∧ second.journal.length = 2 ∧
      ¬Reexecutes (A := .doubles) doublesConfig (quietSurroundings "128.00000000")
        (paperRun (A := .doubles) doublesConfig []) tiedIntent
        (parseDecimal (A := .doubles) "128.00000000") := by
  intro first second
  have hjournals : first.journal.length = 1 ∧ second.journal.length = 2 := by decide +kernel
  refine ⟨by decide +kernel, by decide +kernel, hjournals.1, hjournals.2, ?_⟩
  intro hagain
  have hsame := congrArg List.length hagain.2.2
  change second.journal.length = first.journal.length at hsame
  rw [hjournals.1, hjournals.2] at hsame
  exact absurd hsame (by decide)

end NexusQuant.Market
