import NexusQuant.Market.BrokerCaps

/-!
# Book identities

The positions and the account are two folds over the same fills: a position is quantized after every
fill, and the account moves by the difference of two quantized totals, if that exceeds an epsilon.
Because the fills are decimals of the same precision, neither rounding nor epsilon loses anything:
`BookSound` holds after every fill, and with it the books agree after any number of them.
-/

namespace NexusQuant.Market

open Execution Rounding

/-! ## The cost basis -/

section Basis

variable {cur a realized f price : ℚ}

/-- A cost basis averages prices, so it stays above any bound they share. -/
theorem le_average {x y bound : ℚ} (hx : 0 < x) (hy : 0 < y) (ha : bound ≤ a)
    (hprice : bound ≤ price) : bound ≤ (x * a + y * price) / (x + y) := by
  rw [le_div_iff₀ (add_pos hx hy)]
  have hleft := mul_le_mul_of_nonneg_left ha hx.le
  have hright := mul_le_mul_of_nonneg_left hprice hy.le
  linarith

/-- As long as something is held after the fill, the basis is at least one unit of the last place:
each branch but the closing one takes the old basis, the price or their average. -/
theorem le_basisAfter (hbasis : cur ≠ 0 → 1 / 10 ^ priceDp ≤ a) (hf : f ≠ 0)
    (hprice : 1 / 10 ^ priceDp ≤ price) (hnext : cur + f ≠ 0)
    (hflat : |cur| ≤ qtyEpsilon → cur = 0) :
    1 / 10 ^ priceDp ≤ (basisAfter cur a realized f price).1 := by
  unfold basisAfter
  by_cases hcur : |cur| ≤ qtyEpsilon
  · rw [if_pos hcur]
    exact hprice
  · rw [if_neg hcur]
    have hne : cur ≠ 0 := by
      rintro rfl
      apply hcur
      norm_num [qtyEpsilon]
    by_cases hsign : mathSign cur = mathSign f
    · rw [if_pos hsign]
      exact le_average (abs_pos.mpr hne) (abs_pos.mpr hf) (hbasis hne) hprice
    · rw [if_neg hsign]
      dsimp only
      by_cases hreduce : |f| < |cur|
      · rw [if_pos hreduce]
        exact hbasis hne
      · rw [if_neg hreduce]
        by_cases hflip : |f| > |cur|
        · rw [if_pos hflip]
          exact hprice
        · -- Opposite signs and the same size: the fill would have closed the position.
          exfalso
          apply hnext
          have hsize : |f| = |cur| := le_antisymm (not_lt.mp hflip) (not_lt.mp hreduce)
          rcases abs_eq_abs.mp hsize with heq | heq
          · rw [heq] at hsign
            exact absurd rfl hsign
          · rw [heq, add_neg_cancel]

end Basis

/-! ## Fills in decimals -/

/-- A fill of a positive quantity at a positive price, both decimals with eight places. -/
structure PositiveFill (fill : Fill) : Prop where
  qty : isCanonicalDecimalString fill.qty qtyDp
  qty_pos : 0 < parseDecimal fill.qty
  price : isCanonicalDecimalString fill.price priceDp
  price_pos : 0 < parseDecimal fill.price

theorem PositiveFill.signed_ne_zero {fill : Fill} (h : PositiveFill fill) :
    signedFillQty fill ≠ 0 := by
  have hpos := h.qty_pos
  unfold signedFillQty
  cases fill.side with
  | buy => exact hpos.ne'
  | sell => exact neg_ne_zero.mpr hpos.ne'

/-- A position is flat exactly when it has no cost basis, and a basis is never negative. -/
structure BasisSound (p : Position) : Prop where
  flat_iff : parseDecimal p.netQty = 0 ↔ parseDecimal p.avgEntryPrice = 0
  nonneg : 0 ≤ parseDecimal p.avgEntryPrice

theorem parseDecimal_quantizeQty {x : ℚ} (hx : x ∈ grid qtyDp) :
    parseDecimal (quantizeQty x) = x := by
  rw [quantizeQty, parseDecimal_quantize (by decide), roundTo_eq_self hx]

/-- A position counts as flat when its quantity is zero: the threshold is below one unit of the last
decimal place. -/
theorem eq_zero_of_le_qtyEpsilon {x : ℚ} (hx : x ∈ grid qtyDp) (h : |x| ≤ qtyEpsilon) : x = 0 := by
  apply eq_zero_of_abs_lt hx
  calc |x| ≤ qtyEpsilon := h
    _ < 1 / 10 ^ qtyDp := by norm_num [qtyEpsilon, qtyDp]

theorem heldAfter_eq {held signed : ℚ} (hheld : held ∈ grid qtyDp) (hsigned : signed ∈ grid qtyDp) :
    heldAfter held signed = held + signed := by
  have hnext := (grid qtyDp).add_mem hheld hsigned
  unfold heldAfter
  dsimp only
  rw [Arithmetic.rounded_exact]
  -- A quantity under the threshold is written as zero; on the grid it is zero already.
  by_cases hflat : |held + signed| ≤ qtyEpsilon
  · rw [if_pos hflat, eq_zero_of_le_qtyEpsilon hnext hflat,
      parseDecimal_quantizeQty (grid qtyDp).zero_mem]
  · rw [if_neg hflat, parseDecimal_quantizeQty hnext]

theorem applyFill_netQty {p : Position} {fill : Fill} (hnet : parseDecimal p.netQty ∈ grid qtyDp)
    (hqty : parseDecimal fill.qty ∈ grid qtyDp) :
    parseDecimal (applyFill p fill).netQty = parseDecimal p.netQty + signedFillQty fill := by
  have hsigned : signedFillQty fill ∈ grid qtyDp := by
    unfold signedFillQty
    split
    · exact hqty
    · exact (grid qtyDp).neg_mem hqty
  rw [netQty_applyFill, heldAfter_eq hnet hsigned]

theorem netQty_mem_grid {state : MarketState} (h : state.WellFormed) (symbol : String) :
    parseDecimal (state.position symbol).netQty ∈ grid qtyDp := by
  unfold MarketState.position
  cases hget : state.positions.get? symbol with
  | none => exact parseDecimal_mem_grid (isCanonical_quantizeQty 0)
  | some p => exact parseDecimal_mem_grid (h.positions symbol p hget).1.netQty

theorem parseDecimal_quantizePrice (x : ℚ) : parseDecimal (quantizePrice x) = roundTo priceDp x := by
  rw [quantizePrice, parseDecimal_quantize (by decide)]

theorem parseDecimal_quantizePnl (x : ℚ) : parseDecimal (quantizePnl x) = roundTo notionalDp x := by
  rw [quantizePnl, quantizeNotional, parseDecimal_quantize (by decide)]

theorem basisSound_flatPosition (symbol : String) : BasisSound (flatPosition symbol) := by
  have hqty : parseDecimal (flatPosition symbol).netQty = 0 :=
    parseDecimal_quantizeQty (grid qtyDp).zero_mem
  have havg : parseDecimal (flatPosition symbol).avgEntryPrice = 0 := by
    show parseDecimal (quantizePrice 0) = 0
    rw [parseDecimal_quantizePrice, roundTo_zero]
  constructor
  · rw [hqty, havg]
  · rw [havg]

theorem BasisSound.applyFill {p : Position} (h : BasisSound p) (hp : p.Canonical) {fill : Fill}
    (hfill : PositiveFill fill) : BasisSound (applyFill p fill) := by
  have hnet := parseDecimal_mem_grid hp.netQty
  have hqty := parseDecimal_mem_grid hfill.qty
  have hnext := applyFill_netQty hnet hqty
  have hmem : parseDecimal (Market.applyFill p fill).netQty ∈ grid qtyDp :=
    parseDecimal_mem_grid (canonical_applyFill p fill).netQty
  -- What is written as the basis is nothing, or at least one unit of the last place.
  have havg : parseDecimal (Market.applyFill p fill).avgEntryPrice =
      roundTo priceDp (if |parseDecimal p.netQty + signedFillQty fill| ≤ qtyEpsilon then 0
        else (basisAfter (parseDecimal p.netQty) (parseDecimal p.avgEntryPrice)
          (parseDecimal p.realizedPnl) (signedFillQty fill) (parseDecimal fill.price)).1) :=
    parseDecimal_quantizePrice _
  rw [hnext] at hmem
  by_cases hflat : |parseDecimal p.netQty + signedFillQty fill| ≤ qtyEpsilon
  · rw [if_pos hflat, roundTo_zero] at havg
    have hzero := eq_zero_of_le_qtyEpsilon hmem hflat
    constructor
    · rw [hnext, havg, hzero]
    · rw [havg]
  · rw [if_neg hflat] at havg
    have hheld : parseDecimal p.netQty + signedFillQty fill ≠ 0 := by
      intro hzero
      apply hflat
      rw [hzero]
      norm_num [qtyEpsilon]
    have hbasis : parseDecimal p.netQty ≠ 0 → 1 / 10 ^ priceDp ≤ parseDecimal p.avgEntryPrice := by
      intro hne
      apply le_of_pos_of_mem_grid (parseDecimal_mem_grid hp.avgEntryPrice)
      exact lt_of_le_of_ne h.nonneg fun hzero => hne (h.flat_iff.mpr hzero.symm)
    have hle := @le_basisAfter _ _ (parseDecimal p.realizedPnl) _ _ hbasis hfill.signed_ne_zero
      (le_of_pos_of_mem_grid (parseDecimal_mem_grid hfill.price) hfill.price_pos) hheld
      (eq_zero_of_le_qtyEpsilon hnet)
    -- Rounding is monotone and keeps the unit itself.
    have hunit : (1 : ℚ) / 10 ^ priceDp ∈ grid priceDp := mem_grid.mpr ⟨1, by norm_num⟩
    have hround := roundTo_mono priceDp hle
    rw [roundTo_eq_self hunit, ← havg] at hround
    have hpos := lt_of_lt_of_le (one_div_pos.mpr (pow_ten_pos priceDp)) hround
    constructor
    · rw [hnext]
      constructor
      · intro hzero
        exact absurd hzero hheld
      · intro hzero
        exact absurd hzero hpos.ne'
    · exact hpos.le

/-! ## The market state after any fills -/

/-- The books of a market state whose fills so far are `fills`, in this order. -/
structure BookSound (config : AccountConfig) (fills : List Fill) (state : MarketState) : Prop where
  wellFormed : state.WellFormed
  netQty : ∀ symbol, parseDecimal (state.position symbol).netQty =
    ((fills.filter fun f => f.symbol = symbol).map signedFillQty).sum
  realized : parseDecimal state.account.realizedPnl =
    Dict.total (fun p => parseDecimal p.realizedPnl) state.positions
  cash : parseDecimal state.account.cashBalance =
    parseDecimal (quantizePnl config.initialCash) + parseDecimal state.account.realizedPnl
  basis : ∀ symbol, BasisSound (state.position symbol)

theorem bookSound_emptyMarketState (config : AccountConfig) :
    BookSound config [] (emptyMarketState config) where
  wellFormed := wellFormed_emptyMarketState config
  netQty _ := parseDecimal_quantizeQty (grid qtyDp).zero_mem
  realized := by
    show parseDecimal (quantizePnl 0) = 0
    rw [parseDecimal_quantizePnl, roundTo_zero]
  cash := by
    have hzero : parseDecimal (quantizePnl 0) = 0 := by rw [parseDecimal_quantizePnl, roundTo_zero]
    show _ = _ + parseDecimal (quantizePnl 0)
    rw [hzero, add_zero]
    rfl
  basis := basisSound_flatPosition

theorem canonical_flatPosition (symbol : String) : (flatPosition symbol).Canonical where
  netQty := isCanonical_quantizeQty 0
  avgEntryPrice := isCanonical_quantizePrice 0
  realizedPnl := isCanonical_quantizeNotional 0
  markPrice := isCanonical_quantizePrice 0

theorem MarketState.WellFormed.canonical_position {state : MarketState} (h : state.WellFormed)
    (symbol : String) : (state.position symbol).Canonical := by
  unfold MarketState.position
  cases hget : state.positions.get? symbol with
  | none => exact canonical_flatPosition symbol
  | some p => exact (h.positions symbol p hget).1

theorem position_applyFill_of_ne (state : MarketState) {fill : Fill} {symbol : String}
    (hne : symbol ≠ fill.symbol) :
    (applyFillToMarketState state fill).position symbol = state.position symbol := by
  unfold MarketState.position
  have hget : (applyFillToMarketState state fill).positions.get? symbol =
      state.positions.get? symbol := Dict.get?_set_of_ne hne
  rw [hget]

/-- A delta the account skips is no delta: two amounts of capital differ by nothing or by at least
a cent. -/
theorem account_applyFill {state : MarketState} (h : state.WellFormed) (fill : Fill) :
    let delta := parseDecimal (applyFill (state.position fill.symbol) fill).realizedPnl -
      parseDecimal (state.position fill.symbol).realizedPnl
    parseDecimal (applyFillToMarketState state fill).account.realizedPnl =
        parseDecimal state.account.realizedPnl + delta ∧
      parseDecimal (applyFillToMarketState state fill).account.cashBalance =
        parseDecimal state.account.cashBalance + delta := by
  intro delta
  have hdelta : delta ∈ grid notionalDp := by
    apply (grid notionalDp).sub_mem
    · exact parseDecimal_mem_grid (canonical_applyFill _ _).realizedPnl
    · exact parseDecimal_mem_grid (h.canonical_position _).realizedPnl
  have haccount : (applyFillToMarketState state fill).account =
      if |delta| > realizedEpsilon then applyRealized state.account delta else state.account := rfl
  rw [haccount]
  by_cases hmoves : |delta| > realizedEpsilon
  · rw [if_pos hmoves]
    have hmoved : ∀ text, isCanonicalDecimalString text notionalDp →
        parseDecimal (quantizePnl (parseDecimal text + delta)) = parseDecimal text + delta := by
      intro text htext
      rw [parseDecimal_quantizePnl,
        roundTo_eq_self ((grid notionalDp).add_mem (parseDecimal_mem_grid htext) hdelta)]
    exact ⟨hmoved _ h.account.realizedPnl, hmoved _ h.account.cashBalance⟩
  · rw [if_neg hmoves]
    have hsmall : |delta| < 1 / 10 ^ notionalDp := by
      calc |delta| ≤ realizedEpsilon := not_lt.mp hmoves
        _ < 1 / 10 ^ notionalDp := by norm_num [realizedEpsilon, notionalDp]
    rw [eq_zero_of_abs_lt hdelta hsmall, add_zero, add_zero]
    exact ⟨rfl, rfl⟩

/-- One more fill keeps the books. -/
theorem BookSound.applyFill {config : AccountConfig} {fills : List Fill} {state : MarketState}
    (h : BookSound config fills state) {fill : Fill} (hfill : PositiveFill fill) :
    BookSound config (fills ++ [fill]) (applyFillToMarketState state fill) where
  wellFormed := h.wellFormed.applyFillToMarketState fill
  netQty symbol := by
    rw [List.filter_append, List.map_append, List.sum_append, ← h.netQty symbol]
    by_cases hsymbol : fill.symbol = symbol
    · rw [← hsymbol, position_applyFillToMarketState,
        applyFill_netQty (netQty_mem_grid h.wellFormed _) (parseDecimal_mem_grid hfill.qty)]
      simp
    · rw [position_applyFill_of_ne state (Ne.symm hsymbol)]
      simp [hsymbol]
  realized := by
    rw [(account_applyFill h.wellFormed fill).1, h.realized]
    -- Writing the position replaces its old total by the new one.
    have htotal := @Dict.total_set Position state.positions fill.symbol
      (Market.applyFill (state.position fill.symbol) fill) ℚ _ (fun p => parseDecimal p.realizedPnl)
    have hold : ((state.positions.get? fill.symbol).map fun p => parseDecimal p.realizedPnl).getD 0 =
        parseDecimal (state.position fill.symbol).realizedPnl := by
      unfold MarketState.position
      cases state.positions.get? fill.symbol with
      | none =>
          show 0 = parseDecimal (quantizePnl 0)
          rw [parseDecimal_quantizePnl, roundTo_zero]
      | some p => rfl
    rw [hold] at htotal
    show _ = Dict.total _ (Dict.set state.positions fill.symbol _)
    linarith
  cash := by
    rw [(account_applyFill h.wellFormed fill).1, (account_applyFill h.wellFormed fill).2, h.cash,
      add_assoc]
  basis symbol := by
    by_cases hsymbol : fill.symbol = symbol
    · rw [← hsymbol, position_applyFillToMarketState]
      exact (h.basis fill.symbol).applyFill (h.wellFormed.canonical_position _) hfill
    · rw [position_applyFill_of_ne state (Ne.symm hsymbol)]
      exact h.basis symbol

theorem bookSound_reconstruct (config : AccountConfig) {fills : List Fill}
    (hfills : ∀ f ∈ fills, PositiveFill f) :
    BookSound config fills (reconstructMarketState fills config) := by
  induction fills using List.reverseRecOn with
  | nil => exact bookSound_emptyMarketState config
  | append_singleton fills fill ih =>
      rw [reconstructMarketState_append]
      apply (ih fun f hf => hfills f (List.mem_append_left _ hf)).applyFill
      exact hfills fill (List.mem_append_right _ List.mem_cons_self)

/-- After any fills, every net quantity is the signed sum of the fills of its symbol, the account
has realized what all positions have, its cash is the opening cash and that, and a position is flat
exactly when it has no cost basis. -/
theorem book_identities (config : AccountConfig) (fills : List Fill)
    (hfills : ∀ f ∈ fills, PositiveFill f) :
    let state := reconstructMarketState fills config
    (∀ symbol, parseDecimal (state.position symbol).netQty =
      ((fills.filter fun f => f.symbol = symbol).map signedFillQty).sum) ∧
    parseDecimal state.account.realizedPnl =
      Dict.total (fun p => parseDecimal p.realizedPnl) state.positions ∧
    parseDecimal state.account.cashBalance =
      parseDecimal (quantizePnl config.initialCash) + parseDecimal state.account.realizedPnl ∧
    ∀ symbol p, state.positions.get? symbol = some p →
      (parseDecimal p.netQty = 0 ↔ parseDecimal p.avgEntryPrice = 0) := by
  intro state
  have hbooks := bookSound_reconstruct config hfills
  refine ⟨hbooks.netQty, hbooks.realized, hbooks.cash, ?_⟩
  intro symbol p hget
  have hbasis := (hbooks.basis symbol).flat_iff
  have hposition : state.position symbol = p := by
    unfold MarketState.position
    rw [hget]
    rfl
  rw [hposition] at hbasis
  exact hbasis

def fillOf (symbol : String) (side : OrderSide) (qty price : String) : Fill :=
  ⟨"order", "intent", symbol, side, qty, price, sampleLineage⟩

/-- An open, an add at another price, a flip and a close in one symbol, a short in another. -/
def mixedFills : List Fill :=
  [fillOf "BTC" .buy "1.00000000" "100.00000000", fillOf "BTC" .buy "0.00000003" "0.00000001",
    fillOf "ETH" .sell "2.50000000" "10.00000000", fillOf "BTC" .sell "3.00000000" "90.12345678",
    fillOf "BTC" .buy "1.99999997" "80.00000001"]

theorem positiveFill_mixedFills : ∀ f ∈ mixedFills, PositiveFill f := by
  intro f hf
  simp only [mixedFills, List.mem_cons, List.not_mem_nil, or_false] at hf
  rcases hf with rfl | rfl | rfl | rfl | rfl <;> constructor <;> decide +kernel

theorem book_identities_mixedFills :
    let state := reconstructMarketState mixedFills defaultAccountConfig
    parseDecimal (state.position "BTC").netQty = 0 ∧
      parseDecimal (state.position "ETH").netQty = -5 / 2 ∧
      parseDecimal state.account.cashBalance =
        parseDecimal (quantizePnl 1000000) + parseDecimal state.account.realizedPnl := by
  intro state
  obtain ⟨hnet, -, hcash, -⟩ :=
    book_identities defaultAccountConfig mixedFills positiveFill_mixedFills
  refine ⟨?_, ?_, hcash⟩
  · rw [hnet]
    decide +kernel
  · rw [hnet]
    decide +kernel

end NexusQuant.Market
