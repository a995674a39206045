import NexusQuant.PortfolioIntelligence.Allocation
import NexusQuant.PortfolioIntelligence.Book
import NexusQuant.PortfolioIntelligence.Heat

/-!
# Totals by symbol

What the maps of `allocation.ts`, `heat.ts` and `warnings.ts` hold under a symbol, in terms of the items.
-/

namespace NexusQuant.PortfolioIntelligence

open TradingDecision

variable {inputs : PortfolioInputs} {s : String} {q : ℚ}

/-- The open positions of a symbol, added up. -/
theorem sumFinite_open_symbol (f : PortfolioPosition → Option ℚ) :
    sumFinite (((derivePortfolioFacts inputs).open.filter fun p => p.symbol = s).map f) =
      openTotal inputs (fun item => f (positionOf inputs item)) s :=
  sumFinite_open inputs f fun p => p.symbol == s

theorem exists_open_symbol (p : PortfolioPosition → Bool) :
    (∃ x ∈ (derivePortfolioFacts inputs).open, p x = true ∧ x.symbol = s) ↔
      ∃ item ∈ openItems inputs, p (positionOf inputs item) = true ∧ item.decision.symbol = s := by
  simp only [(open_perm inputs).mem_iff, List.mem_map, exists_exists_and_eq_and]
  rfl

theorem exists_open_sourced (f : PortfolioPosition → Option ℚ) :
    (∃ p ∈ (derivePortfolioFacts inputs).open, (f p).isSome = true ∧ p.symbol = s) ↔
      s ∈ sourcedSymbols inputs fun item => f (positionOf inputs item) := by
  rw [mem_sourcedSymbols]
  exact exists_open_symbol fun p => (f p).isSome

/-! ## The map of the notionals -/

theorem foldl_addNotional (l : List PortfolioPosition) :
    l.foldl addNotional 0 = sumFinite (l.map (·.notional)) := by
  have h := @Dict.weight_foldl _ _ addNotional l 0 ℚ _ id (fun p => p.notional.getD 0) fun _ _ => rfl
  rw [sumFinite, List.map_map]
  exact h.trans (zero_add _)

theorem foldl_symbol_notional :
    (((derivePortfolioFacts inputs).open.filter fun p => p.notional.isSome).filter fun p =>
      p.symbol = s).foldl addNotional 0 = openTotal inputs itemNotional s := by
  rw [foldl_addNotional, List.filter_filter, List.filter_congr fun _ _ => Bool.and_comm _ _,
    ← List.filter_filter, sumFinite_filter_isSome]
  exact sumFinite_open_symbol (·.notional)

theorem exists_sourced_notional :
    (∃ p ∈ (derivePortfolioFacts inputs).open.filter fun p => p.notional.isSome, p.symbol = s) ↔
      s ∈ sourcedSymbols inputs itemNotional := by
  simp only [List.mem_filter, and_assoc]
  exact exists_open_sourced (·.notional)

theorem mem_notionalBySymbol :
    (s, q) ∈ notionalBySymbol (derivePortfolioFacts inputs) ↔
      s ∈ sourcedSymbols inputs itemNotional ∧ q = openTotal inputs itemNotional s := by
  rw [notionalBySymbol, Dict.mem_collect, foldl_symbol_notional, exists_sourced_notional]

/-- The weights of the notionals, symbol by symbol. -/
theorem total_notionalBySymbol (w : ℚ → ℚ) :
    Dict.total w (notionalBySymbol (derivePortfolioFacts inputs)) =
      ∑ s ∈ sourcedSymbols inputs itemNotional, w (openTotal inputs itemNotional s) := by
  rw [notionalBySymbol, Dict.total_collect_eq_sum]
  apply Finset.sum_congr
  · ext s
    rw [List.mem_toFinset, List.mem_map, exists_sourced_notional]
  · intro s _
    rw [foldl_symbol_notional]

/-! ## The map of the allocation -/

section Aggregate

variable {a : SymAgg} {l : List PortfolioPosition}

theorem foldl_addToSymbol_gross :
    (l.foldl addToSymbol a).gross = a.gross + sumFinite (l.map (·.notional)) := by
  rw [sumFinite, List.map_map]
  exact Dict.weight_foldl fun _ _ => rfl

theorem foldl_addToSymbol_risk :
    (l.foldl addToSymbol a).risk = a.risk + sumFinite (l.map (·.maxLoss)) := by
  rw [sumFinite, List.map_map]
  exact Dict.weight_foldl fun _ _ => rfl

theorem foldl_addToSymbol_grossHasSource :
    (l.foldl addToSymbol a).grossHasSource = (a.grossHasSource || l.any (·.notional.isSome)) :=
  Dict.flag_foldl fun _ _ => rfl

theorem foldl_addToSymbol_riskHasSource :
    (l.foldl addToSymbol a).riskHasSource = (a.riskHasSource || l.any (·.maxLoss.isSome)) :=
  Dict.flag_foldl fun _ _ => rfl

/-- A figure of the allocation and its source, as the items have them. -/
structure FigureOf (inputs : PortfolioInputs) (figure : SymAgg → ℚ) (source : SymAgg → Bool)
    (f : PortfolioItem → Option ℚ) : Prop where
  figure_eq : ∀ e ∈ aggregateBySymbol (derivePortfolioFacts inputs), figure e.2 = openTotal inputs f e.1
  source_iff : ∀ e ∈ aggregateBySymbol (derivePortfolioFacts inputs),
    source e.2 = true ↔ e.1 ∈ sourcedSymbols inputs f

theorem any_open_symbol (f : PortfolioPosition → Option ℚ) :
    ((derivePortfolioFacts inputs).open.filter fun p => p.symbol = s).any (fun p => (f p).isSome) = true ↔
      s ∈ sourcedSymbols inputs fun item => f (positionOf inputs item) := by
  rw [← exists_open_sourced, List.any_eq_true]
  simp only [List.mem_filter, decide_eq_true_eq, and_assoc]
  apply exists_congr
  intro p
  rw [and_comm (a := p.symbol = s)]

theorem figureOf_gross (inputs : PortfolioInputs) :
    FigureOf inputs SymAgg.gross SymAgg.grossHasSource itemNotional where
  figure_eq e he := by
    rw [(Dict.mem_collect.mp he).2, foldl_addToSymbol_gross]
    exact (zero_add _).trans (sumFinite_open_symbol (·.notional))
  source_iff e he := by
    rw [(Dict.mem_collect.mp he).2, foldl_addToSymbol_grossHasSource]
    exact any_open_symbol (·.notional)

theorem figureOf_risk (inputs : PortfolioInputs) :
    FigureOf inputs SymAgg.risk SymAgg.riskHasSource itemMaxLoss where
  figure_eq e he := by
    rw [(Dict.mem_collect.mp he).2, foldl_addToSymbol_risk]
    exact (zero_add _).trans (sumFinite_open_symbol (·.maxLoss))
  source_iff e he := by
    rw [(Dict.mem_collect.mp he).2, foldl_addToSymbol_riskHasSource]
    exact any_open_symbol (·.maxLoss)

/-- Every symbol with a source has an entry. -/
theorem exists_mem_aggregate {f : PortfolioItem → Option ℚ} (h : s ∈ sourcedSymbols inputs f) :
    ∃ a, (s, a) ∈ aggregateBySymbol (derivePortfolioFacts inputs) := by
  obtain ⟨item, hitem, -, hs⟩ := mem_sourcedSymbols.mp h
  have hkey : ∃ p ∈ (derivePortfolioFacts inputs).open, true = true ∧ p.symbol = s :=
    (exists_open_symbol fun _ => true).mpr ⟨item, hitem, rfl, hs⟩
  obtain ⟨p, hp, -, hsymbol⟩ := hkey
  exact ⟨_, Dict.mem_collect.mpr ⟨⟨p, hp, hsymbol⟩, rfl⟩⟩

end Aggregate

/-- The symbols stand in order. -/
theorem pairwise_aggregate :
    (aggregateBySymbol (derivePortfolioFacts inputs)).Pairwise fun e e' =>
      Utf16.encode e.1 < Utf16.encode e'.1 :=
  Dict.pairwise_collect (open_sorted inputs)

theorem pairwise_notionalBySymbol :
    (notionalBySymbol (derivePortfolioFacts inputs)).Pairwise fun e e' =>
      Utf16.encode e.1 < Utf16.encode e'.1 :=
  Dict.pairwise_collect ((open_sorted inputs).filter _)

end NexusQuant.PortfolioIntelligence
