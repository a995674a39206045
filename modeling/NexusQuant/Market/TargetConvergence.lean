import NexusQuant.Market.PaperCalls

/-!
# Delta orders

An execution orders what its symbol is short of its target, rounded to eight decimals.  The target
is not rounded and the position is, so an executed intent leaves a residual of up to half a unit of
the last place.  Executing the intent again rounds that residual: to nothing, unless it is a half.
-/

namespace NexusQuant.Market

open Execution Fallible Rounding Run

/-! ## The delta -/

section Delta

variable {s : AdapterState} {intent : ExecutionIntent} {price : ℚ}

theorem roundTo_eq_zero_iff {dp : ℕ} {x : ℚ} : roundTo dp x = 0 ↔ |x| < 1 / 2 / 10 ^ dp := by
  have main (y : ℚ) (hy : 0 ≤ y) : roundTo dp y = 0 ↔ y < 1 / 2 / 10 ^ dp := by
    rw [← not_le, ← roundTo_pos_iff, not_lt]
    exact ⟨fun h => h.le, fun h => le_antisymm h (roundTo_nonneg hy)⟩
  rcases abs_choice x with heq | heq
  · rw [heq]
    exact main x (heq ▸ abs_nonneg x)
  · rw [heq, ← main (-x) (heq ▸ abs_nonneg x), roundTo_neg, neg_eq_zero]

/-- The adapter orders nothing exactly when less than half a unit is missing. -/
theorem isNoOp_iff : isNoOp s intent price ↔
    |targetQty intent price - s.heldQty intent.symbol| < 1 / 2 / 10 ^ qtyDp := by
  unfold isNoOp
  rw [quantizeQty_eq_zero_iff, Arithmetic.finiteOrZero_exact, roundTo_eq_zero_iff, abs_abs,
    deltaSignedQty_eq, Arithmetic.rounded_exact]

/-- What is ordered is the rounded delta. -/
theorem orderedQty_eq (target held : ℚ) : orderedQty target held = roundTo qtyDp (target - held) := by
  unfold orderedQty
  dsimp only
  rw [Arithmetic.rounded_exact, quantizeQty, parseDecimal_quantize (by decide)]
  by_cases hpos : target - held ≥ 0
  · rw [if_pos hpos, abs_of_nonneg hpos]
  · rw [if_neg hpos, abs_of_neg (not_le.mp hpos), roundTo_neg]
    exact neg_neg _

theorem tradedTo_exact {target held : ℚ} (hheld : held ∈ grid qtyDp) :
    tradedTo target held = held + roundTo qtyDp (target - held) := by
  rw [tradedTo, orderedQty_eq, heldAfter_eq hheld (roundTo_mem_grid _ _)]

end Delta

/-! ## A call that nothing outside fails -/

section Call

variable {cfg : AdapterConfig} {e : Surroundings} {s : AdapterState} {intent : ExecutionIntent}
  {quote : Quote}

/-- The two ways a call can return a filled result. -/
theorem execute_filled {w : World} {result : ExecutionResult} {s' : AdapterState}
    (h : execute cfg w s intent = (.returned result, s')) (hfilled : result.status = .filled) :
    (attempt cfg w s intent = .ok (.noOp result) ∧
        s' = { s with portfolioMirror := applyResult s.portfolioMirror result }) ∨
      ∃ c, attempt cfg w s intent = .ok (.commit c) ∧ result = c.result ∧ s' = c.state s intent := by
  unfold execute at h
  split at h
  · cases h
    cases hfilled
  · cases h
  · rename_i hattempt
    cases h
    exact .inl ⟨hattempt, rfl⟩
  · rename_i c hattempt
    split at h
    · cases h
      cases hfilled
    · dsimp only at h
      split at h
      · cases h
      · cases h
        exact .inr ⟨c, hattempt, rfl, rfl⟩

/-- What a committed order leaves: the position moved by the rounded delta and marked at the quote,
and the other symbols as they were. -/
theorem Mirrored.commit_spec (h : Mirrored s) (he : e.Quiet)
    (hquote : e.quote intent.symbol = .ok (some quote))
    (hcanonical : isCanonicalDecimalString quote.price priceDp)
    (hprice : 0 < parseDecimal quote.price) {c : Commit}
    (hattempt : attempt cfg (worldOf .paper e) s intent = .ok (.commit c)) :
    ¬isNoOp s intent (parseDecimal quote.price) ∧
      (c.state s intent).heldQty intent.symbol = s.heldQty intent.symbol +
        roundTo qtyDp (targetQty intent (parseDecimal quote.price) - s.heldQty intent.symbol) ∧
      (∀ other, other ≠ intent.symbol →
        c.candidate.positions.get? other = s.marketState.positions.get? other) ∧
      c.candidate.position intent.symbol = c.position ∧
      parseDecimal c.position.markPrice = parseDecimal quote.price ∧
      ∃ detail, c.result = filledResult cfg intent c.position detail := by
  obtain ⟨quote', hplaced⟩ := placed_of_attempt hattempt
  have hsame : quote' = quote := by
    have hreference := hplaced.reference
    rw [referenceQuote_quiet he hquote hprice] at hreference
    exact (Except.ok.inj hreference).symm
  subst hsame
  have hposition : c.candidate.position intent.symbol = c.position :=
    position_of_get? hplaced.position
  -- The candidate is the one fill of the paper broker, folded into the position.
  have hpaper : c.position = paperPosition cfg s intent (parseDecimal quote'.price) := by
    rw [← hposition, hplaced.candidate, hplaced.events]
    exact position_paperFill cfg s intent _
  have hmark : parseDecimal (paperPosition cfg s intent (parseDecimal quote'.price)).markPrice =
      parseDecimal quote'.price := by
    rw [markPrice_paperPosition, parseDecimal_quantizePrice, parseDecimal_quantizePrice,
      roundTo_eq_self (roundTo_mem_grid _ _), roundTo_eq_self (parseDecimal_mem_grid hcanonical)]
  refine ⟨hplaced.traded, ?_, ?_, hposition, ?_, hplaced.result⟩
  · show parseDecimal (c.candidate.position intent.symbol).netQty = _
    rw [hposition, hpaper, netQty_paperPosition]
    exact tradedTo_exact (netQty_mem_grid h.wellFormed _)
  · intro other hother
    rw [hplaced.candidate]
    exact applyFills_get?_of_ne hother hplaced.own s.marketState
  · rw [hpaper]
    exact hmark

end Call

/-! ## Convergence -/

section Converge

variable {intent : ExecutionIntent} {price : ℚ} {p : Position}

theorem abs_targetQty (htarget : 0 < parseDecimal intent.targetNotional) (hprice : 0 < price) :
    |targetQty intent price| = parseDecimal intent.targetNotional / price := by
  have hquotient := div_pos htarget hprice
  unfold targetQty
  cases intent.side with
  | long => exact abs_of_pos hquotient
  | short => exact (abs_neg _).trans (abs_of_pos hquotient)

/-- Half a unit from a target there is no position on the other side of zero. -/
theorem side_of_near {cfg : AdapterConfig} (htarget : 0 < parseDecimal intent.targetNotional)
    (hprice : 0 < price) (hmem : parseDecimal p.netQty ∈ grid qtyDp)
    (hnear : |parseDecimal p.netQty - targetQty intent price| ≤ 1 / 2 / 10 ^ qtyDp)
    (detail : String) : (filledResult cfg intent p detail).side = intent.side := by
  have hquotient := div_pos htarget hprice
  have hbounds := abs_le.mp hnear
  have hhalf : (1 : ℚ) / 2 / 10 ^ qtyDp < 1 / 10 ^ qtyDp := by norm_num [qtyDp]
  have heps : (0 : ℚ) < qtyEpsilon := by norm_num [qtyEpsilon]
  unfold filledResult positionSide
  dsimp only
  unfold targetQty at hbounds
  cases hside : intent.side with
  | long =>
      rw [hside] at hbounds
      simp only [Arithmetic.rounded_exact] at hbounds
      have hnonneg : 0 ≤ parseDecimal p.netQty := by
        by_contra hneg
        have hunit := le_of_pos_of_mem_grid ((grid qtyDp).neg_mem hmem) (by linarith)
        linarith
      by_cases hlong : parseDecimal p.netQty > qtyEpsilon
      · rw [if_pos hlong]
      · rw [if_neg hlong, if_neg (by linarith)]
  | short =>
      rw [hside] at hbounds
      simp only [Arithmetic.rounded_exact] at hbounds
      have hnonpos : parseDecimal p.netQty ≤ 0 := by
        by_contra hpos
        have hunit := le_of_pos_of_mem_grid hmem (not_le.mp hpos)
        linarith
      rw [if_neg (by linarith)]
      by_cases hshort : parseDecimal p.netQty < -qtyEpsilon
      · rw [if_pos hshort]
      · rw [if_neg hshort]

/-- Below a price of a million, half a unit of quantity is worth less than half a cent. -/
theorem filledNotional_of_near {cfg : AdapterConfig}
    (hquantized : isCanonicalDecimalString intent.targetNotional notionalDp)
    (htarget : 0 < parseDecimal intent.targetNotional) (hprice : 0 < price)
    (hsmall : price < 10 ^ 6) (hmark : parseDecimal p.markPrice = price)
    (hnear : |parseDecimal p.netQty - targetQty intent price| ≤ 1 / 2 / 10 ^ qtyDp)
    (detail : String) :
    parseDecimal (filledResult cfg intent p detail).filledNotional =
      parseDecimal intent.targetNotional := by
  have htext : parseDecimal (filledResult cfg intent p detail).filledNotional =
      roundTo notionalDp (|parseDecimal p.netQty| * price) := by
    rw [← hmark]
    exact parseDecimal_quantize (by decide) _
  rw [htext]
  apply roundTo_eq_of_abs_lt (parseDecimal_mem_grid hquantized)
  have hsizes : |(|parseDecimal p.netQty| - parseDecimal intent.targetNotional / price)| ≤
      1 / 2 / 10 ^ qtyDp := by
    rw [← abs_targetQty htarget hprice]
    exact (abs_abs_sub_abs_le _ _).trans hnear
  have hworth : |parseDecimal p.netQty| * price - parseDecimal intent.targetNotional =
      (|parseDecimal p.netQty| - parseDecimal intent.targetNotional / price) * price := by
    rw [sub_mul, div_mul_cancel₀ _ hprice.ne']
  calc |(|parseDecimal p.netQty| * price - parseDecimal intent.targetNotional)|
      ≤ 1 / 2 / 10 ^ qtyDp * price := by
        rw [hworth, abs_mul, abs_of_pos hprice]
        exact mul_le_mul_of_nonneg_right hsizes hprice.le
    _ < 1 / 2 / 10 ^ qtyDp * 10 ^ 6 := mul_lt_mul_of_pos_left hsmall (by norm_num [qtyDp])
    _ = 1 / 2 / 10 ^ notionalDp := by norm_num [qtyDp, notionalDp]

end Converge

theorem mirrored_paperRun (cfg : AdapterConfig) (calls : List (Surroundings × ExecutionIntent)) :
    Mirrored (paperRun cfg calls) := by
  apply run_invariant (P := fun _ call => FillsOwnSymbol call.1)
    (fun s call h hown => h.step hown) (mirrored_initial cfg)
  exact runMeets_of_forall fun call hcall _ => fillsOwnSymbol_paperCalls call hcall

section Executed

variable {cfg : AdapterConfig} {e : Surroundings} {s : AdapterState} {intent : ExecutionIntent}
  {quote : Quote}

/-- A filled call has moved its symbol to the target, and nothing else. -/
theorem Mirrored.execute_filled_spec (h : Mirrored s) (he : e.Quiet)
    (hquote : e.quote intent.symbol = .ok (some quote))
    (hcanonical : isCanonicalDecimalString quote.price priceDp)
    (hprice : 0 < parseDecimal quote.price)
    (hquantized : isCanonicalDecimalString intent.targetNotional notionalDp)
    (htarget : 0 < parseDecimal intent.targetNotional) {result : ExecutionResult}
    {s' : AdapterState} (hexecute : execute cfg (worldOf .paper e) s intent = (.returned result, s'))
    (hfilled : result.status = .filled) :
    |s'.heldQty intent.symbol - targetQty intent (parseDecimal quote.price)| ≤ 1 / 2 / 10 ^ 8 ∧
      (∀ other, other ≠ intent.symbol →
        s'.marketState.positions.get? other = s.marketState.positions.get? other) ∧
      result.side = intent.side ∧
      (¬isNoOp s intent (parseDecimal quote.price) → parseDecimal quote.price < 10 ^ 6 →
        parseDecimal result.filledNotional = parseDecimal intent.targetNotional) := by
  rcases execute_filled hexecute hfilled with ⟨hattempt, rfl⟩ | ⟨c, hattempt, rfl, rfl⟩
  · -- already at the target: less than half a unit was missing
    obtain ⟨quote', hreference, ⟨hnoop, heq⟩ | ⟨-, c, -, heq⟩⟩ := attempt_ok hattempt
    · rw [referenceQuote_quiet he hquote hprice] at hreference
      cases hreference
      cases heq
      have hnear := (isNoOp_iff.mp hnoop).le
      rw [abs_sub_comm] at hnear
      exact ⟨hnear, fun _ _ => rfl,
        side_of_near htarget hprice (netQty_mem_grid h.wellFormed _) hnear _,
        fun htraded => absurd hnoop htraded⟩
    · cases heq
  · obtain ⟨-, hheld, hothers, hposition, hmark, detail, hresult⟩ :=
      h.commit_spec he hquote hcanonical hprice hattempt
    have hnear : |(c.state s intent).heldQty intent.symbol -
        targetQty intent (parseDecimal quote.price)| ≤ 1 / 2 / 10 ^ qtyDp := by
      rw [hheld]
      have hrounded := abs_roundTo_sub_le qtyDp
        (targetQty intent (parseDecimal quote.price) - s.heldQty intent.symbol)
      rwa [show s.heldQty intent.symbol + roundTo qtyDp (targetQty intent (parseDecimal quote.price) -
          s.heldQty intent.symbol) - targetQty intent (parseDecimal quote.price) =
        roundTo qtyDp (targetQty intent (parseDecimal quote.price) - s.heldQty intent.symbol) -
          (targetQty intent (parseDecimal quote.price) - s.heldQty intent.symbol) by ring]
    have hnet : (c.state s intent).heldQty intent.symbol = parseDecimal c.position.netQty := by
      show parseDecimal (c.candidate.position intent.symbol).netQty = _
      rw [hposition]
    have hmem : parseDecimal c.position.netQty ∈ grid qtyDp := by
      rw [← hnet, hheld]
      exact (grid qtyDp).add_mem (netQty_mem_grid h.wellFormed _) (roundTo_mem_grid _ _)
    refine ⟨hnear, hothers, ?_, ?_⟩
    · rw [hresult]
      exact side_of_near htarget hprice hmem (hnet ▸ hnear) detail
    · intro _ hsmall
      rw [hresult]
      exact filledNotional_of_near hquantized htarget hprice hsmall hmark (hnet ▸ hnear) detail

end Executed

/-- From every state that calls over the paper broker reach, a call at a quote returns a filled
result, and then the symbol is within half a unit of its target, the other symbols are as they were,
the side is that of the intent, and the notional of an order at a price below a million is the
target. -/
theorem execute_converges (cfg : AdapterConfig) (calls : List (Surroundings × ExecutionIntent))
    (s : AdapterState) (hs : s = paperRun cfg calls) {e : Surroundings} (he : e.Quiet)
    {intent : ExecutionIntent} {quote : Quote}
    (hquote : e.quote intent.symbol = .ok (some quote))
    (hcanonical : isCanonicalDecimalString quote.price priceDp)
    (hprice : 0 < parseDecimal quote.price)
    (hquantized : isCanonicalDecimalString intent.targetNotional notionalDp)
    (htarget : 0 < parseDecimal intent.targetNotional) :
    (1 / 200 ≤ cfg.tolerance → ∃ result,
      (execute cfg (worldOf .paper e) s intent).1 = .returned result ∧ result.status = .filled) ∧
    ∀ result s', execute cfg (worldOf .paper e) s intent = (.returned result, s') →
      result.status = .filled →
      |s'.heldQty intent.symbol - targetQty intent (parseDecimal quote.price)| ≤ 1 / 2 / 10 ^ 8 ∧
      (∀ other, other ≠ intent.symbol →
        s'.marketState.positions.get? other = s.marketState.positions.get? other) ∧
      result.side = intent.side ∧
      (¬isNoOp s intent (parseDecimal quote.price) → parseDecimal quote.price < 10 ^ 6 →
        parseDecimal result.filledNotional = parseDecimal intent.targetNotional) := by
  have hmirrored : Mirrored s := by
    rw [hs]
    exact mirrored_paperRun cfg calls
  constructor
  · intro htolerance
    by_cases hnoop : isNoOp s intent (parseDecimal quote.price)
    · rw [execute_noOp he hquote hprice hnoop]
      exact ⟨_, rfl, rfl⟩
    · -- Nothing overflows in exact decimals, and half a cent passes the reconciliation.
      have hreconciled : Reconciled s := ⟨hmirrored, fun _ => rfl⟩
      obtain ⟨c, hattempt, hexecute⟩ :=
        hreconciled.execute_trades (coversCents_exact htolerance) he hquote hprice hnoop rfl
      rw [hexecute]
      exact ⟨c.result, rfl, attempt_commit_status hattempt⟩
  · intro result s' hexecute hfilled
    exact hmirrored.execute_filled_spec he hquote hcanonical hprice hquantized htarget hexecute
      hfilled

/-- From a long of 150.00 at 100 to a short of 20.01 at 30.30303030. -/
theorem execute_converges_flip :
    ∃ s result, s = paperRun sampleConfig [(quietSurroundings "100.00000000", sampleIntent)] ∧
      (execute sampleConfig (worldOf .paper (quietSurroundings "30.30303030")) s
        { sampleIntent with side := .short, targetNotional := "20.01" }).1 = .returned result ∧
      result.side = .short ∧ parseDecimal result.filledNotional = 2001 / 100 := by
  have hspec := @execute_converges sampleConfig
    [(quietSurroundings "100.00000000", sampleIntent)] _ rfl (quietSurroundings "30.30303030")
    (quiet_quietSurroundings "30.30303030")
    { sampleIntent with side := .short, targetNotional := "20.01" }
    ⟨"BTC", "2026-01-01T00:00:00.000Z", "30.30303030"⟩ rfl (by decide +kernel) (by decide +kernel)
    (by decide +kernel) (by decide +kernel)
  obtain ⟨result, hreturned, hfilled⟩ := hspec.1 (by decide +kernel)
  obtain ⟨-, -, hside, hnotional⟩ := hspec.2 result _ (Prod.ext hreturned rfl) hfilled
  have htraded : ¬isNoOp (paperRun sampleConfig [(quietSurroundings "100.00000000", sampleIntent)])
      { sampleIntent with side := .short, targetNotional := "20.01" }
      (parseDecimal "30.30303030") := by decide +kernel
  refine ⟨paperRun sampleConfig [(quietSurroundings "100.00000000", sampleIntent)], result, rfl,
    hreturned, hside, ?_⟩
  rw [hnotional htraded (by decide +kernel)]
  decide +kernel

end NexusQuant.Market
