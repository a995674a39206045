import Mathlib.Algebra.BigOperators.Field
import NexusQuant.PortfolioIntelligence.Aggregation
import NexusQuant.PortfolioIntelligence.SymbolTotals

/-!
# What the risk heat measures

The heat is a score out of a hundred; its concentration is an index of the shares of the symbols, and its
gating component counts the directional items that are blocked or stale.
-/

namespace NexusQuant.PortfolioIntelligence

open Rounding TradingDecision

section Statement

variable (inputs : PortfolioInputs)

/-- How many symbols have an open notional. -/
def exposedSymbols : ℕ := (sourcedSymbols inputs itemNotional).card

/-- The notionals of the symbols, squared and added up. -/
def squaredTotals : ℚ := ∑ s ∈ sourcedSymbols inputs itemNotional, openTotal inputs itemNotional s ^ 2

/-- The open notionals of the two sides, each rounded to whole cents. -/
def centGross : ℚ := roundTo 2 (openNotionalOf inputs .long) + roundTo 2 (openNotionalOf inputs .short)

def isBlocked (item : PortfolioItem) : Bool := stateOf inputs item == .blocked

def isStaleItem (item : PortfolioItem) : Bool := isStale item (resolveConfig inputs.config)

/-- The directional items that are blocked or stale. -/
def stressedCount : ℕ :=
  ((directionalItems inputs).filter fun item => isBlocked inputs item || isStaleItem inputs item).length

/-- The directional items that are both. -/
def stressedTwice : ℕ :=
  ((directionalItems inputs).filter fun item => isBlocked inputs item && isStaleItem inputs item).length

/-- Part of what one symbol exposes, moved to two symbols that expose nothing else, side by side. -/
structure Split where
  rest : List PortfolioItem
  block : List PortfolioItem
  part₁ : List PortfolioItem
  part₂ : List PortfolioItem
  symbol : String
  symbol₁ : String
  symbol₂ : String
  items : List PortfolioItem
  before : inputs.items.Perm (rest ++ block)
  after : items.Perm (rest ++ (part₁ ++ part₂))
  different : symbol₁ ≠ symbol₂
  block_open : ∀ item ∈ block, stateOf inputs item = .open ∧ item.decision.symbol = symbol
  part₁_open : ∀ item ∈ part₁, stateOf inputs item = .open ∧ item.decision.symbol = symbol₁
  part₂_open : ∀ item ∈ part₂, stateOf inputs item = .open ∧ item.decision.symbol = symbol₂
  /-- The two symbols are new, but one of them may be the symbol that is split. -/
  rest_other : ∀ item ∈ rest, stateOf inputs item = .open → (itemNotional item).isSome = true →
    item.decision.symbol = symbol₁ ∨ item.decision.symbol = symbol₂ → item.decision.symbol = symbol
  nonneg : ∀ item ∈ part₁ ++ part₂, ∀ q, itemNotional item = some q → 0 ≤ q
  /-- What is split stays on its side. -/
  sides : ∀ side,
    sumFinite ((block.filter fun item => item.decision.direction == side).map itemNotional) =
      sumFinite (((part₁ ++ part₂).filter fun item => item.decision.direction == side).map itemNotional)

/-- The risk heat as it is documented. -/
structure HeatDocumented : Prop where
  score : 0 ≤ (buildRiskHeat inputs).heatScore ∧ (buildRiskHeat inputs).heatScore ≤ 100
  unexposed : (derivePortfolioFacts inputs).grossExposure = 0 → (buildRiskHeat inputs).concentrationScore = 0
  exposed : (derivePortfolioFacts inputs).grossExposure ≠ 0 →
    100 / exposedSymbols inputs - 1 / 200 ≤ (buildRiskHeat inputs).concentrationScore ∧
      (buildRiskHeat inputs).concentrationScore ≤ 100
  split : ∀ p : Split inputs,
    (buildRiskHeat { inputs with items := p.items }).concentrationScore ≤
      (buildRiskHeat inputs).concentrationScore
  gating : ((buildRiskHeat inputs).components.find? (·.key == "gating")).map (·.earned) =
    some (roundTo 2 ((resolveConfig inputs.config).heatWeights.gating *
      (stressedCount inputs / (directionalItems inputs).length)))

/-- The least index, out of a hundred, that is rounded to `100 / n - 0.005` or above. -/
def leastIndex (n : ℕ) : ℚ := (⌈(100 / (n : ℚ) - 1 / 200) * 10 ^ 2⌉ - 1 / 2) / 10 ^ 2

/-- The whole cents exceed the notionals by so little that the index reaches its least value. -/
def SharesReach : Prop :=
  leastIndex (exposedSymbols inputs) / 100 * centGross inputs ^ 2 ≤ squaredTotals inputs

/-- Counting twice what is both blocked and stale does not reach the next half cent of the weight. -/
def CountedOnce : Prop :=
  ¬ ∃ k : ℤ,
    |(resolveConfig inputs.config).heatWeights.gating| *
        (stressedCount inputs / (directionalItems inputs).length) < (k + 1 / 2) / 10 ^ 2 ∧
      (k + 1 / 2) / 10 ^ 2 ≤ |(resolveConfig inputs.config).heatWeights.gating| *
        (min (stressedCount inputs + stressedTwice inputs) (directionalItems inputs).length /
          (directionalItems inputs).length)

end Statement

/-! ## Clamps -/

theorem clamp01_of_nonneg {x : ℚ} (h : 0 ≤ x) : clamp01 x = min x 1 := by
  unfold clamp01 clamp
  rw [if_neg (not_lt.mpr h)]
  split_ifs with hone
  · exact (min_eq_right hone.le).symm
  · exact (min_eq_left (not_lt.mp hone)).symm

theorem clamp_mem {lo hi : ℚ} (h : lo ≤ hi) (x : ℚ) : lo ≤ clamp x lo hi ∧ clamp x lo hi ≤ hi := by
  unfold clamp
  split_ifs with hlo hhi
  · exact ⟨le_refl lo, h⟩
  · exact ⟨h, le_refl hi⟩
  · exact ⟨not_lt.mp hlo, not_lt.mp hhi⟩

theorem roundTo_natCast (dp n : ℕ) : roundTo dp (n : ℚ) = n := roundTo_eq_self (natCast_mem_grid dp n)

variable {inputs : PortfolioInputs}

theorem heatScore_mem (inputs : PortfolioInputs) :
    0 ≤ (buildRiskHeat inputs).heatScore ∧ (buildRiskHeat inputs).heatScore ≤ 100 := by
  show 0 ≤ roundTo 1 (clamp _ 0 100) ∧ roundTo 1 (clamp _ 0 100) ≤ 100
  have hmem (x : ℚ) := clamp_mem (by norm_num : (0 : ℚ) ≤ 100) x
  constructor
  · exact roundTo_nonneg (hmem _).1
  · have h := roundTo_mono 1 (hmem ((heatComponents (derivePortfolioFacts inputs)).map (·.earned)).sum).2
    exact h.trans_eq (roundTo_natCast 1 100)

/-! ## Concentration -/

theorem centGross_eq : (derivePortfolioFacts inputs).grossExposure = centGross inputs :=
  grossExposure_eq inputs

theorem centGross_nonneg (h : NonNegative inputs.items) : 0 ≤ centGross inputs := by
  have hside (side : SignalDecision) : 0 ≤ openNotionalOf inputs side := by
    apply sumFinite_nonneg
    intro item hitem
    exact h.notional item (mem_items_of_open_side hitem)
  exact add_nonneg (roundTo_nonneg (hside .long)) (roundTo_nonneg (hside .short))

theorem squaredTotals_nonneg (inputs : PortfolioInputs) : 0 ≤ squaredTotals inputs :=
  Finset.sum_nonneg fun s _ => sq_nonneg (openTotal inputs itemNotional s)

theorem concentrationScore_of_nonpos (h : centGross inputs ≤ 0) :
    concentrationScore (derivePortfolioFacts inputs) = 0 := by
  rw [concentrationScore, centGross_eq, if_pos h]

/-- The index, out of a hundred and cut off there. -/
def indexOf (squares gross : ℚ) : ℚ := min (squares / gross ^ 2) 1 * 100

theorem concentrationScore_eq (h : 0 < centGross inputs) :
    concentrationScore (derivePortfolioFacts inputs) =
      roundTo 2 (indexOf (squaredTotals inputs) (centGross inputs)) := by
  rw [concentrationScore, centGross_eq, if_neg (not_le.mpr h), total_notionalBySymbol]
  simp only [div_pow]
  rw [← Finset.sum_div]
  show roundTo 2 (clamp01 (squaredTotals inputs / centGross inputs ^ 2) * 100) = _
  rw [clamp01_of_nonneg (div_nonneg (squaredTotals_nonneg inputs) (sq_nonneg _))]
  rfl

theorem indexOf_nonneg {squares gross : ℚ} (h : 0 ≤ squares) : 0 ≤ indexOf squares gross := by
  unfold indexOf
  have hmin : 0 ≤ min (squares / gross ^ 2) 1 := le_min (div_nonneg h (sq_nonneg gross)) zero_le_one
  linarith

theorem indexOf_le (squares gross : ℚ) : indexOf squares gross ≤ 100 := by
  unfold indexOf
  have hmin := min_le_right (squares / gross ^ 2) 1
  linarith

theorem indexOf_mono {squares squares' gross : ℚ} (h : squares ≤ squares') :
    indexOf squares gross ≤ indexOf squares' gross := by
  unfold indexOf
  have hdiv := div_le_div_of_nonneg_right h (sq_nonneg gross)
  have hmin := min_le_min_right 1 hdiv
  linarith

theorem concentrationScore_le (inputs : PortfolioInputs) :
    concentrationScore (derivePortfolioFacts inputs) ≤ 100 := by
  by_cases h : 0 < centGross inputs
  · rw [concentrationScore_eq h]
    exact (roundTo_mono 2 (indexOf_le _ _)).trans_eq (roundTo_natCast 2 100)
  · rw [concentrationScore_of_nonpos (not_lt.mp h)]
    norm_num

/-- With an exposure there is a symbol that has it. -/
theorem exposedSymbols_pos (h : 0 < centGross inputs) : 0 < exposedSymbols inputs := by
  apply Finset.card_pos.mpr
  by_contra hempty
  rw [Finset.not_nonempty_iff_eq_empty] at hempty
  -- Without symbols every notional of the open items is missing.
  have hnone : ∀ item ∈ openItems inputs, itemNotional item = none := by
    intro item hitem
    by_contra hsome
    have hmem : item.decision.symbol ∈ sourcedSymbols inputs itemNotional :=
      mem_sourcedSymbols.mpr ⟨item, hitem, Option.isSome_iff_ne_none.mpr hsome, rfl⟩
    rw [hempty] at hmem
    exact absurd hmem (Finset.notMem_empty _)
  have hside (side : SignalDecision) : openNotionalOf inputs side = 0 := by
    apply List.sum_eq_zero
    intro q hq
    simp only [List.mem_map, exists_exists_and_eq_and] at hq
    obtain ⟨item, hitem, rfl⟩ := hq
    rw [hnone item (mem_open_of_open_side hitem)]
    rfl
  rw [centGross, hside, hside, roundTo_zero] at h
  exact absurd h (by norm_num)

theorem leastIndex_le {n : ℕ} (h : 0 < n) : leastIndex n ≤ 100 := by
  have hn : (1 : ℚ) ≤ n := by exact_mod_cast h
  have hdiv : 100 / (n : ℚ) ≤ 100 := div_le_self (by norm_num) hn
  have hceil : ⌈(100 / (n : ℚ) - 1 / 200) * 10 ^ 2⌉ ≤ 10000 := Int.ceil_le.mpr (by push_cast; linarith)
  have hcast : (⌈(100 / (n : ℚ) - 1 / 200) * 10 ^ 2⌉ : ℚ) ≤ 10000 := by exact_mod_cast hceil
  unfold leastIndex
  rw [div_le_iff₀ (by norm_num)]
  linarith

/-- The index that is served is at least that of equal shares exactly when the shares reach it. -/
theorem concentration_ge_iff (h : 0 < centGross inputs) :
    100 / exposedSymbols inputs - 1 / 200 ≤ concentrationScore (derivePortfolioFacts inputs) ↔
      SharesReach inputs := by
  have hleast := leastIndex_le (exposedSymbols_pos h)
  have hsquare : 0 < centGross inputs ^ 2 := pow_pos h 2
  rw [concentrationScore_eq h, le_roundTo_iff (indexOf_nonneg (squaredTotals_nonneg inputs))]
  show leastIndex (exposedSymbols inputs) ≤ _ ↔ _
  rw [SharesReach, ← le_div_iff₀ hsquare, indexOf, ← div_le_iff₀ (by norm_num), le_min_iff]
  apply and_iff_left
  rw [div_le_one (by norm_num)]
  exact hleast

/-! ## Splitting a symbol -/

section Splitting

/-- What the open items of a list expose, of those that are picked. -/
def totalOf (inputs : PortfolioInputs) (pick : PortfolioItem → Bool) (l : List PortfolioItem) : ℚ :=
  sumFinite (((l.filter fun item => stateOf inputs item == .open).filter pick).map itemNotional)

variable {pick : PortfolioItem → Bool} {l l' : List PortfolioItem} {s x : String}

theorem totalOf_perm (h : l.Perm l') : totalOf inputs pick l = totalOf inputs pick l' :=
  sumFinite_perm ((h.filter _).filter _)

theorem totalOf_append : totalOf inputs pick (l ++ l') = totalOf inputs pick l + totalOf inputs pick l' := by
  simp only [totalOf, List.filter_append, List.map_append, sumFinite, List.sum_append]

theorem filter_open (h : ∀ item ∈ l, stateOf inputs item = .open) :
    (l.filter fun item => stateOf inputs item == .open) = l := by
  apply List.filter_eq_self.mpr
  intro item hitem
  rw [h item hitem]
  rfl

/-- A list of open items of one symbol. -/
theorem totalOf_symbol (h : ∀ item ∈ l, stateOf inputs item = .open ∧ item.decision.symbol = s) :
    totalOf inputs (fun item => item.decision.symbol == x) l =
      if x = s then sumFinite (l.map itemNotional) else 0 := by
  rw [totalOf, filter_open fun item hitem => (h item hitem).1]
  split_ifs with hx
  · rw [List.filter_eq_self.mpr]
    intro item hitem
    rw [(h item hitem).2, hx, beq_self_eq_true]
  · rw [List.filter_eq_nil_iff.mpr]
    · rfl
    · intro item hitem
      rw [(h item hitem).2, beq_iff_eq]
      exact Ne.symm hx

/-- The two sides of a list of open items. -/
theorem sum_sides (h : ∀ item ∈ l, stateOf inputs item = .open) :
    sumFinite ((l.filter fun item => item.decision.direction == .long).map itemNotional) +
      sumFinite ((l.filter fun item => item.decision.direction == .short).map itemNotional) =
        sumFinite (l.map itemNotional) := by
  have hsides := openNotional_sides { inputs with items := l }
  have hopen : openItems { inputs with items := l } = l := filter_open h
  rw [openNotionalOf, openNotionalOf, openItemsOf, openItemsOf, hopen] at hsides
  exact hsides

theorem squaredTotals_of_subset {S : Finset String} (h : sourcedSymbols inputs itemNotional ⊆ S) :
    squaredTotals inputs = ∑ s ∈ S, openTotal inputs itemNotional s ^ 2 := by
  apply Finset.sum_subset h
  intro s _ hs
  rw [openTotal_eq_zero hs]
  norm_num

/-- One of the squares grows. -/
theorem sum_sq_add_single {S : Finset String} (r : String → ℚ) (hs : s ∈ S) (c : ℚ) :
    ∑ x ∈ S, (r x + if x = s then c else 0) ^ 2 = ∑ x ∈ S, r x ^ 2 + (2 * r s * c + c ^ 2) := by
  have hterm : ∀ x ∈ S, (r x + if x = s then c else 0) ^ 2 =
      r x ^ 2 + if x = s then 2 * r s * c + c ^ 2 else 0 := by
    intro x _
    split_ifs with hx
    · rw [hx]
      ring
    · ring
  rw [Finset.sum_congr rfl hterm, Finset.sum_add_distrib, Finset.sum_ite_eq' S s, if_pos hs]

namespace Split

variable (p : Split inputs)

/-- The portfolio with the symbol split. -/
def afterInputs : PortfolioInputs := { inputs with items := p.items }

def amount₁ : ℚ := sumFinite (p.part₁.map itemNotional)

def amount₂ : ℚ := sumFinite (p.part₂.map itemNotional)

/-- What the other items expose of a symbol. -/
def restTotal (x : String) : ℚ := totalOf inputs (fun item => item.decision.symbol == x) p.rest

theorem amount₁_nonneg : 0 ≤ p.amount₁ :=
  sumFinite_nonneg fun item hitem => p.nonneg item (List.mem_append_left _ hitem)

theorem amount₂_nonneg : 0 ≤ p.amount₂ :=
  sumFinite_nonneg fun item hitem => p.nonneg item (List.mem_append_right _ hitem)

theorem parts_open : ∀ item ∈ p.part₁ ++ p.part₂, stateOf inputs item = .open := by
  intro item hitem
  rcases List.mem_append.mp hitem with h | h
  · exact (p.part₁_open item h).1
  · exact (p.part₂_open item h).1

theorem block_amount : sumFinite (p.block.map itemNotional) = p.amount₁ + p.amount₂ := by
  rw [← sum_sides fun item hitem => (p.block_open item hitem).1, p.sides, p.sides,
    sum_sides p.parts_open, List.map_append, sumFinite, List.map_append, List.sum_append]
  rfl

theorem openTotal_before (x : String) :
    openTotal inputs itemNotional x =
      p.restTotal x + if x = p.symbol then p.amount₁ + p.amount₂ else 0 := by
  rw [← p.block_amount, ← totalOf_symbol p.block_open, restTotal, ← totalOf_append]
  exact totalOf_perm p.before

theorem openTotal_after (x : String) :
    openTotal p.afterInputs itemNotional x =
      (p.restTotal x + if x = p.symbol₁ then p.amount₁ else 0) +
        if x = p.symbol₂ then p.amount₂ else 0 := by
  rw [amount₁, amount₂, ← totalOf_symbol p.part₁_open, ← totalOf_symbol p.part₂_open, restTotal,
    add_assoc, ← totalOf_append, ← totalOf_append]
  exact totalOf_perm p.after

theorem openNotionalOf_after (side : SignalDecision) :
    openNotionalOf p.afterInputs side = openNotionalOf inputs side := by
  have hbefore : openNotionalOf inputs side =
      totalOf inputs (fun item => item.decision.direction == side) (p.rest ++ p.block) :=
    totalOf_perm p.before
  have hafter : openNotionalOf p.afterInputs side =
      totalOf inputs (fun item => item.decision.direction == side) (p.rest ++ (p.part₁ ++ p.part₂)) :=
    totalOf_perm p.after
  have hblock : ∀ item ∈ p.block, stateOf inputs item = .open :=
    fun item hitem => (p.block_open item hitem).1
  rw [hbefore, hafter, totalOf_append, @totalOf_append _ _ p.rest p.block]
  congr 1
  rw [totalOf, totalOf, filter_open p.parts_open, filter_open hblock, p.sides]

theorem centGross_after : centGross p.afterInputs = centGross inputs := by
  rw [centGross, centGross, p.openNotionalOf_after, p.openNotionalOf_after]

/-- The rest exposes neither of the two symbols, unless it is the one that is split. -/
theorem restTotal_eq_zero (x : String) (hx : x = p.symbol₁ ∨ x = p.symbol₂) (hne : x ≠ p.symbol) :
    p.restTotal x = 0 := by
  show openTotal { inputs with items := p.rest } itemNotional x = 0
  apply openTotal_eq_zero
  intro hmem
  obtain ⟨item, hitem, hsome, hsymbol⟩ := mem_sourcedSymbols.mp hmem
  obtain ⟨hrest, hopen⟩ := List.mem_filter.mp hitem
  apply hne
  rw [← hsymbol]
  apply p.rest_other item hrest (eq_of_beq hopen) hsome
  rw [hsymbol]
  exact hx

theorem restTotal_nonneg (h : NonNegative inputs.items) (x : String) : 0 ≤ p.restTotal x := by
  show 0 ≤ openTotal { inputs with items := p.rest } itemNotional x
  apply openTotal_nonneg
  intro item hitem
  exact h.notional item (p.before.mem_iff.mpr (List.mem_append_left _ hitem))

/-- Two squares are at most the square of the sum. -/
theorem squaredTotals_after (h : NonNegative inputs.items) :
    squaredTotals p.afterInputs ≤ squaredTotals inputs := by
  let S : Finset String := sourcedSymbols inputs itemNotional ∪ sourcedSymbols p.afterInputs itemNotional ∪
    {p.symbol, p.symbol₁, p.symbol₂}
  have hsub : sourcedSymbols inputs itemNotional ⊆ S := by
    intro x hx
    simp only [S, Finset.mem_union]
    exact .inl (.inl hx)
  have hsub' : sourcedSymbols p.afterInputs itemNotional ⊆ S := by
    intro x hx
    simp only [S, Finset.mem_union]
    exact .inl (.inr hx)
  rw [squaredTotals_of_subset hsub, squaredTotals_of_subset hsub',
    Finset.sum_congr rfl fun x _ => congrArg (· ^ 2) (p.openTotal_before x),
    Finset.sum_congr rfl fun x _ => congrArg (· ^ 2) (p.openTotal_after x),
    sum_sq_add_single _ (by simp [S]), sum_sq_add_single _ (by simp [S]), sum_sq_add_single _ (by simp [S]),
    if_neg p.different.symm]
  have ha := p.amount₁_nonneg
  have hb := p.amount₂_nonneg
  have hab := mul_nonneg ha hb
  have hrest := p.restTotal_nonneg h p.symbol
  -- One of the two symbols may be the one that is split.
  by_cases h₁ : p.symbol₁ = p.symbol
  · have h₂ : p.symbol₂ ≠ p.symbol := fun heq => p.different (h₁.trans heq.symm)
    rw [p.restTotal_eq_zero p.symbol₂ (.inr rfl) h₂, h₁]
    nlinarith [mul_nonneg hrest hb]
  · rw [p.restTotal_eq_zero p.symbol₁ (.inl rfl) h₁]
    by_cases h₂ : p.symbol₂ = p.symbol
    · rw [h₂]
      nlinarith [mul_nonneg hrest ha]
    · rw [p.restTotal_eq_zero p.symbol₂ (.inr rfl) h₂]
      nlinarith [mul_nonneg hrest ha, mul_nonneg hrest hb]

theorem concentrationScore_after (h : NonNegative inputs.items) :
    concentrationScore (derivePortfolioFacts p.afterInputs) ≤
      concentrationScore (derivePortfolioFacts inputs) := by
  by_cases hgross : 0 < centGross inputs
  · have hgross' : 0 < centGross p.afterInputs := by rwa [p.centGross_after]
    rw [concentrationScore_eq hgross, concentrationScore_eq hgross', p.centGross_after]
    exact roundTo_mono 2 (indexOf_mono (p.squaredTotals_after h))
  · have hgross' : centGross p.afterInputs ≤ 0 := by rw [p.centGross_after]; exact not_lt.mp hgross
    rw [concentrationScore_of_nonpos (not_lt.mp hgross), concentrationScore_of_nonpos hgross']

end Split

end Splitting

/-! ## Gating -/

/-- Counting two properties apart counts what has both twice. -/
theorem length_filter_add {α : Type*} (p q : α → Bool) (l : List α) :
    (l.filter p).length + (l.filter q).length =
      (l.filter fun x => p x || q x).length + (l.filter fun x => p x && q x).length := by
  induction l with
  | nil => rfl
  | cons x l ih =>
      cases hp : p x <;> cases hq : q x <;> simp [hp, hq] <;> omega

theorem stressed_counts (inputs : PortfolioInputs) :
    (derivePortfolioFacts inputs).blockedCount + (derivePortfolioFacts inputs).staleCount =
      stressedCount inputs + stressedTwice inputs := by
  have hblocked : (derivePortfolioFacts inputs).blockedCount =
      ((directionalItems inputs).filter (isBlocked inputs)).length := by
    show ((derivePortfolioFacts inputs).positions.filter (inState .blocked)).length = _
    rw [length_inState, directionalItems, List.filter_filter]
    congr 1
    apply List.filter_congr
    intro item _
    -- A blocked item has a direction.
    by_cases h : stateOf inputs item = .blocked
    · have hdir := of_classify_eq_blocked h
      simp [isBlocked, h, hdir]
    · simp [isBlocked, h]
  have hstale : (derivePortfolioFacts inputs).staleCount =
      ((directionalItems inputs).filter (isStaleItem inputs)).length := by
    rw [directionalItems, List.filter_filter, List.filter_congr fun _ _ => Bool.and_comm _ _]
    rfl
  rw [hblocked, hstale]
  exact length_filter_add _ _ _

theorem gating_earned (inputs : PortfolioInputs) :
    ((buildRiskHeat inputs).components.find? (·.key == "gating")).map (·.earned) =
      some (roundTo 2 ((resolveConfig inputs.config).heatWeights.gating *
        (min (stressedCount inputs + stressedTwice inputs) (directionalItems inputs).length /
          (directionalItems inputs).length))) := by
  have hlength : (derivePortfolioFacts inputs).directional.length = (directionalItems inputs).length := by
    rw [(directional_perm inputs).length_eq, List.length_map]
  have hfrac : (if 0 < (derivePortfolioFacts inputs).directional.length then
        clamp01 (((derivePortfolioFacts inputs).blockedCount + (derivePortfolioFacts inputs).staleCount : ℕ) /
          (derivePortfolioFacts inputs).directional.length) else 0) =
      ((min (stressedCount inputs + stressedTwice inputs) (directionalItems inputs).length : ℕ) : ℚ) /
        (directionalItems inputs).length := by
    rw [hlength, stressed_counts]
    split_ifs with hpos
    · have hpos' : (0 : ℚ) < (directionalItems inputs).length := by exact_mod_cast hpos
      rw [clamp01_of_nonneg (by positivity), Nat.cast_min, ← min_div_div_right hpos'.le,
        div_self hpos'.ne']
    · rw [Nat.eq_zero_of_not_pos hpos, Nat.cast_zero, div_zero]
  rw [← hfrac]
  rfl

theorem gating_iff (inputs : PortfolioInputs) :
    ((buildRiskHeat inputs).components.find? (·.key == "gating")).map (·.earned) =
        some (roundTo 2 ((resolveConfig inputs.config).heatWeights.gating *
          (stressedCount inputs / (directionalItems inputs).length))) ↔
      CountedOnce inputs := by
  have hcount : stressedCount inputs ≤
      min (stressedCount inputs + stressedTwice inputs) (directionalItems inputs).length :=
    le_min (Nat.le_add_right _ _) (List.length_filter_le _ _)
  rw [gating_earned, Option.some_inj]
  apply roundTo_mul_eq_iff
  · positivity
  · apply div_le_div_of_nonneg_right _ (Nat.cast_nonneg _)
    exact_mod_cast hcount

/-- The heat measures what it documents exactly where the whole cents leave the shares their least
index, and where counting twice what is both blocked and stale makes no difference. -/
theorem heat_documented_iff (inputs : PortfolioInputs) (h : NonNegative inputs.items) :
    HeatDocumented inputs ↔ SharesReach inputs ∧ CountedOnce inputs := by
  constructor
  · intro hdoc
    constructor
    · by_cases hgross : 0 < centGross inputs
      · apply (concentration_ge_iff hgross).mp
        have hne : (derivePortfolioFacts inputs).grossExposure ≠ 0 := by
          rw [centGross_eq]
          exact hgross.ne'
        exact (hdoc.exposed hne).1
      · -- Nothing is exposed.
        have hzero : centGross inputs = 0 := le_antisymm (not_lt.mp hgross) (centGross_nonneg h)
        rw [SharesReach, hzero, zero_pow two_ne_zero, mul_zero]
        exact squaredTotals_nonneg inputs
    · exact (gating_iff inputs).mp hdoc.gating
  · intro hcond
    constructor
    · exact heatScore_mem inputs
    · intro hzero
      apply concentrationScore_of_nonpos
      rw [← centGross_eq, hzero]
    · intro hne
      have hgross : 0 < centGross inputs := by
        rw [centGross_eq] at hne
        exact lt_of_le_of_ne (centGross_nonneg h) (Ne.symm hne)
      exact ⟨(concentration_ge_iff hgross).mpr hcond.1, concentrationScore_le inputs⟩
    · intro p
      exact p.concentrationScore_after h
    · exact (gating_iff inputs).mpr hcond.2

/-- Two long items, the second with a blocked decision and a signal of two hundred seconds. -/
def blockedAndStale : PortfolioInputs :=
  makeInputs [makeItem (makeDecision "sig-1" "BTC-PERP" 10000) 100,
    makeItem { makeDecision "sig-2" "ETH-PERP" 10000 with
      overallStatus := .blocked, signalAgeSeconds := .fin 200 } 100]

/-- A single position of half a cent. -/
def halfCent : PortfolioInputs := makeInputs [makeItem (makeDecision "sig-1" "BTC-PERP" (1 / 200)) 100]

theorem heat_documented_iff_blockedAndStale :
    HeatDocumented blockedAndStale ↔ SharesReach blockedAndStale ∧ CountedOnce blockedAndStale := by
  apply heat_documented_iff
  constructor
  · simp only [blockedAndStale, makeInputs, List.forall_mem_cons, List.not_mem_nil, false_implies,
      implies_true, and_true]
    constructor <;> rintro q ⟨⟩ <;> norm_num
  · simp only [blockedAndStale, makeInputs, List.forall_mem_cons, List.not_mem_nil, false_implies,
      implies_true, and_true, itemMaxLoss_makeItem, Option.some.injEq, forall_eq']
    norm_num

/-- The blocked and stale item is counted twice, and half a cent is not a whole one. -/
theorem heat_undocumented : ¬ HeatDocumented blockedAndStale ∧ ¬ HeatDocumented halfCent := by
  constructor
  · intro h
    have hgating := h.gating
    revert hgating
    decide +kernel
  · intro h
    have hexposed := (h.exposed (by decide +kernel)).1
    revert hexposed
    decide +kernel

end NexusQuant.PortfolioIntelligence
