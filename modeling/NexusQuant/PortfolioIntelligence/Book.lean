import Mathlib.Algebra.Group.Submonoid.BigOperators
import Mathlib.Algebra.Order.BigOperators.Group.List
import NexusQuant.PortfolioIntelligence.Facts

/-!
# The open book

What the facts say of the items they are derived from: which items are open, what their notionals and
maximum losses add up to, and in what order the positions stand.
-/

namespace NexusQuant.PortfolioIntelligence

open Rounding TradingDecision

def itemNotional (item : PortfolioItem) : Option ℚ := mv item.decision.positionNotional

def itemMaxLoss (item : PortfolioItem) : Option ℚ := num item.plan.maximumLoss

section Items

variable (inputs : PortfolioInputs)

def stateOf (item : PortfolioItem) : PositionState :=
  classify item inputs.killEngaged (resolveConfig inputs.config)

def positionOf (item : PortfolioItem) : PortfolioPosition :=
  toPosition item inputs.killEngaged (resolveConfig inputs.config)

def openItems : List PortfolioItem := inputs.items.filter fun item => stateOf inputs item == .open

def directionalItems : List PortfolioItem :=
  inputs.items.filter fun item => item.decision.direction != .flat

/-- The open items of one side. -/
def openItemsOf (side : SignalDecision) : List PortfolioItem :=
  (openItems inputs).filter fun item => item.decision.direction == side

/-- What the open items of one side expose. -/
def openNotionalOf (side : SignalDecision) : ℚ := sumFinite ((openItemsOf inputs side).map itemNotional)

/-- What the open items of one symbol add up to. -/
def openTotal (f : PortfolioItem → Option ℚ) (symbol : String) : ℚ :=
  sumFinite (((openItems inputs).filter fun item => item.decision.symbol == symbol).map f)

/-- The symbols with an open item that has a source. -/
def sourcedSymbols (f : PortfolioItem → Option ℚ) : Finset String :=
  (((openItems inputs).filter fun item => (f item).isSome).map (·.decision.symbol)).toFinset

/-- Notionals and maximum losses that are not negative. -/
structure NonNegative (items : List PortfolioItem) : Prop where
  notional : ∀ item ∈ items, ∀ q, itemNotional item = some q → 0 ≤ q
  maxLoss : ∀ item ∈ items, ∀ q, itemMaxLoss item = some q → 0 ≤ q

variable {inputs} {item : PortfolioItem} {side : SignalDecision}

theorem mem_items_of_open (h : item ∈ openItems inputs) : item ∈ inputs.items := (List.mem_filter.mp h).1

theorem mem_open_of_open_side (h : item ∈ openItemsOf inputs side) : item ∈ openItems inputs :=
  (List.mem_filter.mp h).1

theorem mem_items_of_open_side (h : item ∈ openItemsOf inputs side) : item ∈ inputs.items :=
  mem_items_of_open (mem_open_of_open_side h)

end Items

/-! ## Sums -/

section Sums

variable {α : Type*} {f : α → Option ℚ} {l l' : List α}

theorem sumFinite_perm (h : l.Perm l') : sumFinite (l.map f) = sumFinite (l'.map f) :=
  ((h.map f).map _).sum_eq

theorem sumFinite_nonneg (h : ∀ x ∈ l, ∀ q, f x = some q → 0 ≤ q) : 0 ≤ sumFinite (l.map f) := by
  apply List.sum_nonneg
  intro q hq
  simp only [List.mem_map, exists_exists_and_eq_and] at hq
  obtain ⟨x, hx, rfl⟩ := hq
  cases hfx : f x with
  | none => exact le_refl 0
  | some q => exact h x hx q hfx

theorem sumFinite_mem_grid {dp : ℕ} (h : ∀ x ∈ l, ∀ q, f x = some q → q ∈ grid dp) :
    sumFinite (l.map f) ∈ grid dp := by
  apply list_sum_mem
  intro q hq
  simp only [List.mem_map, exists_exists_and_eq_and] at hq
  obtain ⟨x, hx, rfl⟩ := hq
  cases hfx : f x with
  | none => exact (grid dp).zero_mem
  | some q => exact h x hx q hfx

/-- Without its source an element adds nothing. -/
theorem sumFinite_filter_isSome (l : List α) :
    sumFinite ((l.filter fun x => (f x).isSome).map f) = sumFinite (l.map f) := by
  unfold sumFinite
  induction l with
  | nil => rfl
  | cons x l ih =>
      cases hfx : f x with
      | none =>
          rw [List.filter_cons_of_neg (by simp [hfx]), ih, List.map_cons, List.map_cons, List.sum_cons, hfx]
          exact (zero_add _).symm
      | some q =>
          rw [List.filter_cons_of_pos (by simp [hfx]), List.map_cons, List.map_cons, List.sum_cons, ih,
            List.map_cons, List.map_cons, List.sum_cons]

end Sums

/-! ## One item -/

section Item

variable {item : PortfolioItem} {kill : Bool} {cfg : PortfolioConfig}

/-- What an open item has passed. -/
theorem of_classify_eq_open (h : classify item kill cfg = .open) :
    item.decision.direction ≠ .flat ∧ item.decision.overallStatus ≠ .noTrade ∧
      isHardBlocked item kill = false ∧ item.plan.summary.canTrade = true ∧
      isStale item cfg = false := by
  unfold classify at h
  dsimp only at h
  split_ifs at h with hflat hblocked hopen
  rw [not_or] at hflat
  simp only [Bool.and_eq_true, Bool.not_eq_true'] at hopen
  exact ⟨hflat.1, hflat.2, by simpa using hblocked, hopen.1.1, hopen.2⟩

theorem of_classify_eq_blocked (h : classify item kill cfg = .blocked) :
    item.decision.direction ≠ .flat := by
  unfold classify at h
  dsimp only at h
  split_ifs at h with hflat
  exact (not_or.mp hflat).1

end Item

/-! ## Positions -/

variable (inputs : PortfolioInputs)

theorem consistent_comparePositions : Comparator.Consistent comparePositions := by
  apply Comparator.consistent_lex
  intro key hkey
  rcases List.mem_cons.mp hkey with rfl | hkey
  · exact Comparator.consistent_ofOrder.comap fun p : PortfolioPosition => Utf16.encode p.symbol
  · rw [List.mem_singleton.mp hkey]
    exact Comparator.consistent_ofOrder.comap fun p : PortfolioPosition => Utf16.encode p.signalId

theorem symbol_le_of_comparePositions {p q : PortfolioPosition} (h : comparePositions p q ≤ 0) :
    Utf16.encode p.symbol ≤ Utf16.encode q.symbol := by
  rw [comparePositions, Comparator.lex_cons_le] at h
  apply Comparator.ofOrder_nonpos.mp
  rcases h with h | h
  · exact h.le
  · exact h.1.le

theorem positions_perm :
    (derivePortfolioFacts inputs).positions.Perm (inputs.items.map (positionOf inputs)) :=
  Comparator.perm_sort _ _

theorem positions_sorted :
    (derivePortfolioFacts inputs).positions.Pairwise fun p q =>
      Utf16.encode p.symbol ≤ Utf16.encode q.symbol :=
  (consistent_comparePositions.pairwise_sort _).imp symbol_le_of_comparePositions

theorem filter_positions_perm (p : PortfolioPosition → Bool) :
    ((derivePortfolioFacts inputs).positions.filter p).Perm
      ((inputs.items.filter fun item => p (positionOf inputs item)).map (positionOf inputs)) := by
  have h := (positions_perm inputs).filter p
  rw [List.filter_map] at h
  exact h

theorem open_perm :
    (derivePortfolioFacts inputs).open.Perm ((openItems inputs).map (positionOf inputs)) :=
  filter_positions_perm inputs (inState .open)

theorem open_sorted : (derivePortfolioFacts inputs).open.Pairwise fun p q =>
    Utf16.encode p.symbol ≤ Utf16.encode q.symbol :=
  (positions_sorted inputs).filter _

theorem directional_perm :
    (derivePortfolioFacts inputs).directional.Perm ((directionalItems inputs).map (positionOf inputs)) :=
  filter_positions_perm inputs fun p => !hasDirection .flat p

theorem length_inState (s : PositionState) :
    ((derivePortfolioFacts inputs).positions.filter (inState s)).length =
      (inputs.items.filter fun item => stateOf inputs item == s).length := by
  rw [(filter_positions_perm inputs (inState s)).length_eq, List.length_map]
  rfl

theorem contributes_of_open {p : PortfolioPosition} (h : p ∈ (derivePortfolioFacts inputs).open) :
    p.contributesExposure = true := by
  obtain ⟨item, hitem, rfl⟩ := List.mem_map.mp ((open_perm inputs).mem_iff.mp h)
  exact (List.mem_filter.mp hitem).2

/-! ## Exposure -/

theorem sumFinite_open (f : PortfolioPosition → Option ℚ) (p : PortfolioPosition → Bool) :
    sumFinite (((derivePortfolioFacts inputs).open.filter p).map f) =
      sumFinite (((openItems inputs).filter fun item => p (positionOf inputs item)).map fun item =>
        f (positionOf inputs item)) := by
  have h := (open_perm inputs).filter p
  rw [List.filter_map] at h
  rw [sumFinite_perm h, List.map_map]
  rfl

theorem longExposure_eq :
    (derivePortfolioFacts inputs).longExposure = roundTo 2 (openNotionalOf inputs .long) :=
  congrArg (roundTo 2) (sumFinite_open inputs (·.notional) (hasDirection .long))

theorem shortExposure_eq :
    (derivePortfolioFacts inputs).shortExposure = roundTo 2 (openNotionalOf inputs .short) :=
  congrArg (roundTo 2) (sumFinite_open inputs (·.notional) (hasDirection .short))

theorem grossExposure_eq :
    (derivePortfolioFacts inputs).grossExposure =
      roundTo 2 (openNotionalOf inputs .long) + roundTo 2 (openNotionalOf inputs .short) := by
  rw [← longExposure_eq, ← shortExposure_eq]
  apply roundTo_eq_self
  exact (grid 2).add_mem (roundTo_mem_grid 2 _) (roundTo_mem_grid 2 _)

theorem netExposure_eq :
    (derivePortfolioFacts inputs).netExposure =
      roundTo 2 (openNotionalOf inputs .long) - roundTo 2 (openNotionalOf inputs .short) := by
  rw [← longExposure_eq, ← shortExposure_eq]
  apply roundTo_eq_self
  exact (grid 2).sub_mem (roundTo_mem_grid 2 _) (roundTo_mem_grid 2 _)

/-- An open item is on one of the two sides. -/
theorem openNotional_sides :
    openNotionalOf inputs .long + openNotionalOf inputs .short =
      sumFinite ((openItems inputs).map itemNotional) := by
  have hside : ∀ item ∈ openItems inputs, item.decision.direction ≠ .flat := by
    intro item hitem
    exact (of_classify_eq_open (eq_of_beq (List.mem_filter.mp hitem).2)).1
  unfold openNotionalOf openItemsOf sumFinite
  generalize openItems inputs = l at hside
  induction l with
  | nil => simp
  | cons item l ih =>
      obtain ⟨hitem, hl⟩ := List.forall_mem_cons.mp hside
      rw [List.map_cons, List.map_cons, List.sum_cons, ← ih hl]
      cases hdir : item.decision.direction with
      | flat => exact absurd hdir hitem
      | long => simp [hdir, add_assoc]
      | short => simp [hdir, add_left_comm]

/-! ## Symbols -/

section Symbols

variable {inputs} {f : PortfolioItem → Option ℚ} {s : String}

theorem mem_sourcedSymbols :
    s ∈ sourcedSymbols inputs f ↔
      ∃ item ∈ openItems inputs, (f item).isSome = true ∧ item.decision.symbol = s := by
  simp only [sourcedSymbols, List.mem_toFinset, List.mem_map, List.mem_filter, and_assoc]

theorem openTotal_eq_zero (h : s ∉ sourcedSymbols inputs f) : openTotal inputs f s = 0 := by
  rw [mem_sourcedSymbols] at h
  apply List.sum_eq_zero
  intro q hq
  simp only [List.mem_map, exists_exists_and_eq_and, List.mem_filter, beq_iff_eq] at hq
  obtain ⟨item, hitem, rfl⟩ := hq
  cases hf : f item with
  | none => rfl
  | some q => exact absurd ⟨item, hitem.1, by simp [hf], hitem.2⟩ h

theorem openTotal_nonneg (h : ∀ item ∈ inputs.items, ∀ q, f item = some q → 0 ≤ q) :
    0 ≤ openTotal inputs f s := by
  apply sumFinite_nonneg
  intro item hitem
  exact h item (mem_items_of_open (List.mem_filter.mp hitem).1)

end Symbols

/-! ## Fixtures (`test-fixtures.ts`) -/

def m (value : ℚ) : Measure := measure value .derived

/-- A long decision with every gate green. -/
def makeDecision (signalId symbol : String) (positionNotional : ℚ) : Decision where
  signalId
  symbol
  timeframe := .h1
  direction := .long
  bias := .long
  confidence := .fin (9 / 10)
  createdAt := ⟨"2026-06-27T00:00:00.000Z", .fin 1782518400000⟩
  signalAgeSeconds := .fin 30
  featureAgeSeconds := some (.fin 45)
  currentPrice := m 100
  entryPrice := m 100
  stopLoss := m 97
  takeProfit1 := m 103
  takeProfit2 := m 106
  takeProfit3 := m 109
  riskRewardRatio := m 3
  stopDistancePct := m 3
  positionSize := m (1 / 2)
  positionNotional := m positionNotional
  capitalRiskPercent := m 1
  assumedEquity := .fin 100000
  expectedHoldingTime := ⟨some 72000, some 20, .estimated⟩
  trendStrength := m 90
  momentumScore := m 80
  volatilityScore := m 40
  liquidityScore := m 80
  marketRegime := ⟨some .trendingBull, .derived⟩
  executionStatus := .ready
  riskStatus := ⟨.approved, "ok", true⟩
  controlStatus := .allowed
  overallStatus := .actionable
  featureHash := "fh-abc123"
  datasetHash := "ds-abc123"
  strategyVersionId := "sv-abc123"
  provenanceNotes := ["single-TF only — consensus N/A"]

/-- A decision served with its plan. -/
def makeItem (decision : Decision) (maximumLoss : ℚ) : PortfolioItem where
  decision
  plan :=
    { toTradePlan := TradingPlan.buildTradePlan
        { now := .fin 1700000000000, decision, dqScore := some (.fin 98), runtimeState := some "HEALTHY"
          killEngaged := false }
      maximumLoss := some (.fin maximumLoss) }
  dqScore := some (.fin 98)

theorem itemNotional_makeItem (signalId symbol : String) (notional maximumLoss : ℚ) :
    itemNotional (makeItem (makeDecision signalId symbol notional) maximumLoss) = some notional := rfl

theorem itemMaxLoss_makeItem (decision : Decision) (maximumLoss : ℚ) :
    itemMaxLoss (makeItem decision maximumLoss) = some maximumLoss := rfl

def makeInputs (items : List PortfolioItem) : PortfolioInputs where
  now := .fin 1700000000000
  items
  runtimeState := some "HEALTHY"
  controlPermission := some .allowed
  killEngaged := false

end NexusQuant.PortfolioIntelligence
