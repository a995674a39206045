import Mathlib.Data.List.MinMax
import NexusQuant.PortfolioIntelligence.Allocation
import NexusQuant.PortfolioIntelligence.Book
import NexusQuant.PortfolioIntelligence.Exposure
import NexusQuant.PortfolioIntelligence.Statistics
import NexusQuant.PortfolioIntelligence.Warnings

/-!
# Aggregation

The builders conserve what they regroup, and the order of the items does not matter to them.
-/

namespace NexusQuant.PortfolioIntelligence

open Rounding TradingDecision

/-- Items told apart by their symbol and their signal, with whole cents. -/
structure ExactItems (items : List PortfolioItem) : Prop where
  distinct : (items.map fun item => (item.decision.symbol, item.decision.signalId)).Nodup
  notional : ∀ item ∈ items, ∀ q, itemNotional item = some q → 0 ≤ q ∧ q ∈ grid 2
  maxLoss : ∀ item ∈ items, ∀ q, itemMaxLoss item = some q → 0 ≤ q ∧ q ∈ grid 2

/-- Two portfolios that are told apart by none of the builders. -/
structure SameOutputs (a b : PortfolioInputs) : Prop where
  facts : derivePortfolioFacts a = derivePortfolioFacts b
  exposure : buildPortfolioExposure a = buildPortfolioExposure b
  allocation : buildCapitalAllocation a = buildCapitalAllocation b
  heat : buildRiskHeat a = buildRiskHeat b
  warnings : buildPortfolioWarnings a = buildPortfolioWarnings b
  statistics : buildPortfolioStatistics a = buildPortfolioStatistics b

/-- The groups of the open book, added up. -/
structure AddsUp (facts : PortfolioFacts) (groups : List ExposureGroup) : Prop where
  notional : (groups.map (·.notional)).sum = facts.grossExposure
  count : (groups.map (·.count)).sum = facts.openCount

/-- The same exposure and the same risk in use. -/
structure SameExposure (a b : PortfolioInputs) : Prop where
  longExposure : (derivePortfolioFacts a).longExposure = (derivePortfolioFacts b).longExposure
  shortExposure : (derivePortfolioFacts a).shortExposure = (derivePortfolioFacts b).shortExposure
  grossExposure : (derivePortfolioFacts a).grossExposure = (derivePortfolioFacts b).grossExposure
  netExposure : (derivePortfolioFacts a).netExposure = (derivePortfolioFacts b).netExposure
  riskUsedAbs : (derivePortfolioFacts a).riskUsedAbs = (derivePortfolioFacts b).riskUsedAbs
  bySymbol : (buildPortfolioExposure a).bySymbol = (buildPortfolioExposure b).bySymbol
  bySide : (buildPortfolioExposure a).bySide = (buildPortfolioExposure b).bySide
  byRegime : (buildPortfolioExposure a).byRegime = (buildPortfolioExposure b).byRegime
  byConfidence :
    (buildPortfolioExposure a).buckets.byConfidence = (buildPortfolioExposure b).buckets.byConfidence
  byRisk : (buildPortfolioExposure a).buckets.byRisk = (buildPortfolioExposure b).buckets.byRisk

/-- An item that is blocked, stale, flat or not to be traded. -/
def Idle (inputs : PortfolioInputs) (item : PortfolioItem) : Prop :=
  isHardBlocked item inputs.killEngaged = true ∨ isStale item (resolveConfig inputs.config) = true ∨
    item.decision.direction = .flat ∨ item.decision.overallStatus = .noTrade ∨
    item.plan.summary.canTrade = false

/-- What the aggregation of a portfolio conserves. -/
structure Conserves (inputs : PortfolioInputs) : Prop where
  order : ∀ items, items.Perm inputs.items → SameOutputs { inputs with items } inputs
  partition :
    (derivePortfolioFacts inputs).openCount + (derivePortfolioFacts inputs).waitingCount +
      (derivePortfolioFacts inputs).blockedCount + (derivePortfolioFacts inputs).flatCount =
        inputs.items.length
  gross : (derivePortfolioFacts inputs).grossExposure = sumFinite ((openItems inputs).map itemNotional)
  net : |(derivePortfolioFacts inputs).netExposure| ≤ (derivePortfolioFacts inputs).grossExposure
  bySymbol : AddsUp (derivePortfolioFacts inputs) (buildPortfolioExposure inputs).bySymbol
  bySide : AddsUp (derivePortfolioFacts inputs) (buildPortfolioExposure inputs).bySide
  byRegime : AddsUp (derivePortfolioFacts inputs) (buildPortfolioExposure inputs).byRegime
  byConfidence : AddsUp (derivePortfolioFacts inputs) (buildPortfolioExposure inputs).buckets.byConfidence
  byRisk : AddsUp (derivePortfolioFacts inputs) (buildPortfolioExposure inputs).buckets.byRisk
  /-- Leaving out idle items, all of them or some, changes nothing. -/
  idle : ∀ keep : PortfolioItem → Bool,
    (∀ item ∈ inputs.items, keep item = false → Idle inputs item) →
      SameExposure { inputs with items := inputs.items.filter keep } inputs

/-! ## Order -/

section Order

/-- Positions of the same symbol and signal come from the same item. -/
theorem positions_apart (inputs : PortfolioInputs) {items : List PortfolioItem}
    (h : (items.map fun item => (item.decision.symbol, item.decision.signalId)).Nodup) :
    ∀ p ∈ items.map (positionOf inputs), ∀ q ∈ items.map (positionOf inputs),
      comparePositions p q = 0 → p = q := by
  intro p hp q hq hzero
  obtain ⟨a, ha, rfl⟩ := List.mem_map.mp hp
  obtain ⟨b, hb, rfl⟩ := List.mem_map.mp hq
  rw [comparePositions, Comparator.lex_eq_zero] at hzero
  have hsymbol : a.decision.symbol = b.decision.symbol :=
    Utf16.encode_injective (Comparator.separates_ofOrder _ _ (hzero _ List.mem_cons_self))
  have hsignal : a.decision.signalId = b.decision.signalId :=
    Utf16.encode_injective
      (Comparator.separates_ofOrder _ _ (hzero _ (List.mem_cons_of_mem _ List.mem_cons_self)))
  rw [List.inj_on_of_nodup_map h ha hb (Prod.ext hsymbol hsignal)]

variable {inputs : PortfolioInputs}

theorem facts_of_perm (h : ExactItems inputs.items) {items : List PortfolioItem}
    (hperm : items.Perm inputs.items) :
    derivePortfolioFacts { inputs with items } = derivePortfolioFacts inputs := by
  have hpositions :
      Comparator.sort comparePositions
          (items.map fun item => toPosition item inputs.killEngaged (resolveConfig inputs.config)) =
        Comparator.sort comparePositions
          (inputs.items.map fun item => toPosition item inputs.killEngaged (resolveConfig inputs.config)) := by
    symm
    apply consistent_comparePositions.sort_eq_of_perm_of_apart (positions_apart inputs h.distinct)
    exact (hperm.map _).symm
  -- The equity is the greatest of all, and the other two read the items for their number alone.
  have hequity (d : ℚ) :
      ((items.filterMap fun item => item.decision.assumedEquity.finite?).filter (0 < ·)).max?.getD d =
        ((inputs.items.filterMap fun item => item.decision.assumedEquity.finite?).filter
          (0 < ·)).max?.getD d := by
    rw [List.getD_max?_eq_unbotD_maximum, List.getD_max?_eq_unbotD_maximum,
      ((hperm.filterMap _).filter _).maximum_eq]
  have hlength (p : PortfolioItem → Bool) : (items.filter p).length = (inputs.items.filter p).length :=
    (hperm.filter p).length_eq
  simp only [derivePortfolioFacts, hpositions, hequity, hlength]

theorem sameOutputs_of_perm (h : ExactItems inputs.items) {items : List PortfolioItem}
    (hperm : items.Perm inputs.items) : SameOutputs { inputs with items } inputs := by
  have hfacts := facts_of_perm h hperm
  constructor
  · exact hfacts
  · simp only [buildPortfolioExposure, hfacts]
  · simp only [buildCapitalAllocation, hfacts]
  · simp only [buildRiskHeat, hfacts]
  · simp only [buildPortfolioWarnings, hfacts]
  · simp only [buildPortfolioStatistics, hfacts]

end Order

/-! ## Counts and sums -/

/-- Every element is in one of the four states. -/
theorem length_states {α : Type*} (state : α → PositionState) (l : List α) :
    (l.filter fun x => state x == .open).length + (l.filter fun x => state x == .waiting).length +
      (l.filter fun x => state x == .blocked).length + (l.filter fun x => state x == .flat).length =
        l.length := by
  induction l with
  | nil => rfl
  | cons x l ih =>
      rw [List.length_cons, ← ih]
      cases h : state x <;> simp [h] <;> omega

theorem counts_partition (inputs : PortfolioInputs) :
    (derivePortfolioFacts inputs).openCount + (derivePortfolioFacts inputs).waitingCount +
      (derivePortfolioFacts inputs).blockedCount + (derivePortfolioFacts inputs).flatCount =
        inputs.items.length := by
  show ((derivePortfolioFacts inputs).positions.filter (inState .open)).length +
      ((derivePortfolioFacts inputs).positions.filter (inState .waiting)).length +
      ((derivePortfolioFacts inputs).positions.filter (inState .blocked)).length +
      ((derivePortfolioFacts inputs).positions.filter (inState .flat)).length = _
  rw [length_inState, length_inState, length_inState, length_inState]
  exact length_states (stateOf inputs) inputs.items

section Groups

variable {positions : List PortfolioPosition} {keyFn : PortfolioPosition → String}

/-- What a position adds to the notional of its group. -/
def contribution (p : PortfolioPosition) : ℚ := if p.contributesExposure then p.notional.getD 0 else 0

theorem addToGroup_notional (g : GroupAgg) (p : PortfolioPosition) :
    (addToGroup g p).notional = g.notional + contribution p := by
  unfold addToGroup contribution
  dsimp only
  split_ifs
  · rfl
  · rw [add_zero]

theorem sum_group {β : Type*} [AddCommMonoid β] (f : ExposureGroup → β) :
    ((group positions keyFn).map f).sum =
      ((Dict.collect keyFn emptyGroup addToGroup positions).map fun e =>
        f { key := e.1
            notional := roundTo 2 e.2.notional
            sharePct := if 0 < Dict.total GroupAgg.notional
                (Dict.collect keyFn emptyGroup addToGroup positions) then
              roundTo 2 (e.2.notional / Dict.total GroupAgg.notional
                (Dict.collect keyFn emptyGroup addToGroup positions) * 100) else 0
            count := e.2.count
            provenance := groupProvenance e.2 }).sum := by
  unfold group
  rw [((Comparator.perm_sort _ _).map f).sum_eq, List.map_map]
  rfl

theorem sum_group_count : ((group positions keyFn).map (·.count)).sum = positions.length := by
  rw [sum_group]
  -- Every position counts for one.
  have h := @Dict.total_collect _ _ keyFn emptyGroup addToGroup positions ℕ _ GroupAgg.count
    (fun _ => 1) rfl (fun _ _ => rfl)
  rw [Dict.total, List.map_const', List.sum_replicate, smul_eq_mul, mul_one] at h
  exact h

theorem sum_group_notional (h : ∀ p ∈ positions, contribution p ∈ grid 2) :
    ((group positions keyFn).map (·.notional)).sum = (positions.map contribution).sum := by
  rw [sum_group, ← @Dict.total_collect _ _ keyFn emptyGroup addToGroup positions ℚ _ GroupAgg.notional
    contribution rfl addToGroup_notional, Dict.total]
  congr 1
  apply List.map_congr_left
  intro e he
  apply roundTo_eq_self
  -- Every group is a sum of whole cents.
  obtain ⟨-, heq⟩ := Dict.mem_collect.mp he
  rw [heq, Dict.weight_foldl addToGroup_notional]
  apply (grid 2).add_mem (grid 2).zero_mem
  apply list_sum_mem
  intro q hq
  obtain ⟨p, hp, rfl⟩ := List.mem_map.mp hq
  exact h p (List.mem_filter.mp hp).1

end Groups

section Exact

variable {inputs : PortfolioInputs} (h : ExactItems inputs.items)

include h

theorem mem_grid_openNotionalOf (side : SignalDecision) : openNotionalOf inputs side ∈ grid 2 := by
  apply sumFinite_mem_grid
  intro item hitem q hq
  exact (h.notional item (mem_items_of_open_side hitem) q hq).2

theorem openNotionalOf_nonneg (side : SignalDecision) : 0 ≤ openNotionalOf inputs side := by
  apply sumFinite_nonneg
  intro item hitem q hq
  exact (h.notional item (mem_items_of_open_side hitem) q hq).1

theorem gross_eq :
    (derivePortfolioFacts inputs).grossExposure = sumFinite ((openItems inputs).map itemNotional) := by
  rw [grossExposure_eq, roundTo_eq_self (mem_grid_openNotionalOf h .long),
    roundTo_eq_self (mem_grid_openNotionalOf h .short), openNotional_sides]

theorem net_le_gross :
    |(derivePortfolioFacts inputs).netExposure| ≤ (derivePortfolioFacts inputs).grossExposure := by
  have hlong : 0 ≤ roundTo 2 (openNotionalOf inputs .long) := roundTo_nonneg (openNotionalOf_nonneg h .long)
  have hshort : 0 ≤ roundTo 2 (openNotionalOf inputs .short) :=
    roundTo_nonneg (openNotionalOf_nonneg h .short)
  rw [netExposure_eq, grossExposure_eq]
  apply abs_le.mpr
  constructor <;> linarith

theorem addsUp (keyFn : PortfolioPosition → String) :
    AddsUp (derivePortfolioFacts inputs) (group (derivePortfolioFacts inputs).open keyFn) := by
  -- An open position adds its notional.
  have hcontribution : ∀ p ∈ (derivePortfolioFacts inputs).open, contribution p = p.notional.getD 0 := by
    intro p hp
    rw [contribution, if_pos (contributes_of_open inputs hp)]
  constructor
  · rw [sum_group_notional, List.map_congr_left hcontribution, gross_eq h]
    · have hsum := sumFinite_perm (f := PortfolioPosition.notional) (open_perm inputs)
      rw [List.map_map, sumFinite, List.map_map] at hsum
      exact hsum
    · intro p hp
      rw [hcontribution p hp]
      obtain ⟨item, hitem, rfl⟩ := List.mem_map.mp ((open_perm inputs).mem_iff.mp hp)
      show (itemNotional item).getD 0 ∈ grid 2
      cases hq : itemNotional item with
      | none => exact (grid 2).zero_mem
      | some q => exact (h.notional item (mem_items_of_open hitem) q hq).2
  · exact sum_group_count

/-! ## Idle items -/

/-- The open positions are the open items in order. -/
theorem open_eq_sort {keep : PortfolioItem → Bool} :
    (derivePortfolioFacts { inputs with items := inputs.items.filter keep }).open =
      Comparator.sort comparePositions
        (((inputs.items.filter keep).filter fun item => stateOf inputs item == .open).map
          (positionOf inputs)) := by
  have hdistinct := h.distinct.sublist ((List.filter_sublist (p := keep)).map _)
  have hfilter := consistent_comparePositions.filter_sort (positions_apart inputs hdistinct)
    (inState .open)
  rw [List.filter_map] at hfilter
  exact hfilter

end Exact

theorem not_idle_of_open {inputs : PortfolioInputs} {item : PortfolioItem}
    (h : stateOf inputs item = .open) : ¬ Idle inputs item := by
  obtain ⟨hflat, hnoTrade, hblocked, hcan, hstale⟩ := of_classify_eq_open h
  unfold Idle
  simp [hflat, hnoTrade, hblocked, hcan, hstale]

theorem sameExposure_of_open {a b : PortfolioInputs}
    (h : (derivePortfolioFacts a).open = (derivePortfolioFacts b).open) : SameExposure a b := by
  -- The five figures and the five groupings are functions of the open positions.
  have hlong (f : PortfolioInputs) : (derivePortfolioFacts f).longExposure =
      roundTo 2 (sumFinite (((derivePortfolioFacts f).open.filter (hasDirection .long)).map
        PortfolioPosition.notional)) := rfl
  have hshort (f : PortfolioInputs) : (derivePortfolioFacts f).shortExposure =
      roundTo 2 (sumFinite (((derivePortfolioFacts f).open.filter (hasDirection .short)).map
        PortfolioPosition.notional)) := rfl
  have hgross (f : PortfolioInputs) : (derivePortfolioFacts f).grossExposure =
      roundTo 2 ((derivePortfolioFacts f).longExposure + (derivePortfolioFacts f).shortExposure) := rfl
  have hnet (f : PortfolioInputs) : (derivePortfolioFacts f).netExposure =
      roundTo 2 ((derivePortfolioFacts f).longExposure - (derivePortfolioFacts f).shortExposure) := rfl
  have hrisk (f : PortfolioInputs) : (derivePortfolioFacts f).riskUsedAbs =
      roundTo 2 (sumFinite ((derivePortfolioFacts f).open.map PortfolioPosition.maxLoss)) := rfl
  constructor
  · rw [hlong, hlong, h]
  · rw [hshort, hshort, h]
  · rw [hgross, hgross, hlong, hlong, hshort, hshort, h]
  · rw [hnet, hnet, hlong, hlong, hshort, hshort, h]
  · rw [hrisk, hrisk, h]
  all_goals simp only [buildPortfolioExposure, h]

theorem sameExposure_of_idle {inputs : PortfolioInputs} (h : ExactItems inputs.items)
    {keep : PortfolioItem → Bool} (hkeep : ∀ item ∈ inputs.items, keep item = false → Idle inputs item) :
    SameExposure { inputs with items := inputs.items.filter keep } inputs := by
  apply sameExposure_of_open
  have hall : inputs = { inputs with items := inputs.items.filter fun _ => true } := by
    rw [List.filter_true]
  rw [open_eq_sort h]
  conv_rhs => rw [hall, open_eq_sort h]
  -- No open item is left out.
  congr 2
  rw [List.filter_filter, List.filter_filter]
  apply List.filter_congr
  intro item hitem
  by_cases hopen : stateOf inputs item = .open
  · cases hk : keep item with
    | true => rfl
    | false => exact absurd (hkeep item hitem hk) (not_idle_of_open hopen)
  · simp [hopen]

/-- A portfolio of whole cents is conserved by its aggregation, in any order. -/
theorem aggregation_conserves (inputs : PortfolioInputs) (h : ExactItems inputs.items) :
    Conserves inputs where
  order _ hperm := sameOutputs_of_perm h hperm
  partition := counts_partition inputs
  gross := gross_eq h
  net := net_le_gross h
  bySymbol := addsUp h _
  bySide := addsUp h _
  byRegime := addsUp h _
  byConfidence := addsUp h _
  byRisk := addsUp h _
  idle _ hkeep := sameExposure_of_idle h hkeep

/-- Two long items of one symbol, and one of another. -/
def sampleBook : PortfolioInputs :=
  makeInputs [makeItem (makeDecision "sig-2" "ETH-PERP" (12345 / 100)) 50,
    makeItem (makeDecision "sig-1" "ETH-PERP" 10000) 100,
    makeItem (makeDecision "sig-3" "BTC-PERP" (1 / 100)) (25 / 10)]

theorem aggregation_conserves_sample : Conserves sampleBook := by
  apply aggregation_conserves
  constructor
  · decide
  · simp only [sampleBook, makeInputs, List.forall_mem_cons, List.not_mem_nil, false_implies, implies_true,
      and_true, itemNotional_makeItem, Option.some.injEq, forall_eq']
    exact ⟨⟨by norm_num, mem_grid.mpr ⟨12345, by norm_num⟩⟩,
      ⟨by norm_num, mem_grid.mpr ⟨1000000, by norm_num⟩⟩,
      ⟨by norm_num, mem_grid.mpr ⟨1, by norm_num⟩⟩⟩
  · simp only [sampleBook, makeInputs, List.forall_mem_cons, List.not_mem_nil, false_implies, implies_true,
      and_true, itemMaxLoss_makeItem, Option.some.injEq, forall_eq']
    exact ⟨⟨by norm_num, mem_grid.mpr ⟨5000, by norm_num⟩⟩,
      ⟨by norm_num, mem_grid.mpr ⟨10000, by norm_num⟩⟩,
      ⟨by norm_num, mem_grid.mpr ⟨250, by norm_num⟩⟩⟩

end NexusQuant.PortfolioIntelligence
