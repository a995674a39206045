import Mathlib.Algebra.Group.Submonoid.BigOperators
import Mathlib.Algebra.Order.BigOperators.Group.List
import Mathlib.Data.String.Basic
import NexusQuant.Execution.Allocation
import NexusQuant.Lib.Comparator
import NexusQuant.Lib.Fallible

/-!
# Netting

What `aggregateDecisions` makes of the decisions of a tick.  The contributions of a symbol are those
of its decisions in the order of arrival, and the sort that comes before the sum and the choice of
the owner makes that order irrelevant.
-/

namespace NexusQuant.Execution

open Comparator Rounding

/-! ## The order of the contributions -/

section Order

variable (localeCompare : String → String → ℤ)

/-- The comparators of `compareContribution`, the first that decides counting. -/
def contributionKeys : List (DecisionContribution → DecisionContribution → ℚ) :=
  [fun a b => |parseDecimal b.weightedNotional| - |parseDecimal a.weightedNotional|,
    fun a b => localeCompare a.featureSnapshotId b.featureSnapshotId,
    fun a b => localeCompare a.executionStrategyId b.executionStrategyId,
    fun a b => a.executionStrategyVersion - b.executionStrategyVersion,
    fun a b => localeCompare a.strategyVersionId b.strategyVersionId,
    fun a b => localeCompare a.dqReportId b.dqReportId,
    fun a b => localeCompare a.datasetHash b.datasetHash,
    fun a b => localeCompare a.featureHash b.featureHash,
    fun a b => localeCompare a.side.text b.side.text,
    fun a b => localeCompare a.confidence b.confidence,
    fun a b => localeCompare a.weightedNotional b.weightedNotional]

theorem compareContribution_eq :
    compareContribution localeCompare = lex (contributionKeys localeCompare) := rfl

theorem sortContributions_eq (contributions : List DecisionContribution) :
    sortContributions localeCompare contributions =
      Comparator.sort (compareContribution localeCompare) contributions := rfl

variable {localeCompare} (hlocale : Consistent localeCompare)

include hlocale

theorem consistent_compareContribution : Consistent (compareContribution localeCompare) := by
  have htext (f : DecisionContribution → String) :
      Consistent fun a b => (localeCompare (f a) (f b) : ℚ) := (hlocale.comap f).intCast
  have hnotional : Consistent fun a b : DecisionContribution =>
      |parseDecimal b.weightedNotional| - |parseDecimal a.weightedNotional| :=
    (consistent_sub fun c : DecisionContribution => |parseDecimal c.weightedNotional|).reverse
  have hversion : Consistent fun a b : DecisionContribution =>
      (a.executionStrategyVersion : ℚ) - b.executionStrategyVersion :=
    consistent_sub fun c : DecisionContribution => (c.executionStrategyVersion : ℚ)
  rw [compareContribution_eq]
  apply consistent_lex
  simp only [contributionKeys, List.forall_mem_cons]
  exact ⟨hnotional, htext (·.featureSnapshotId), htext (·.executionStrategyId), hversion,
    htext (·.strategyVersionId), htext (·.dqReportId), htext (·.datasetHash), htext (·.featureHash),
    htext (·.side.text), htext (·.confidence), htext (·.weightedNotional), List.forall_mem_nil _⟩

omit hlocale in
/-- Every field of a contribution is one of the keys. -/
theorem separates_compareContribution (hequal : Separates localeCompare) :
    Separates (compareContribution localeCompare) := by
  intro a b h
  rw [compareContribution_eq, lex_eq_zero] at h
  simp only [contributionKeys, List.forall_mem_cons, Int.cast_eq_zero] at h
  obtain ⟨-, hsnapshot, hstrategy, hversion, hstrategyVersion, hreport, hdataset, hfeature, hside,
    hconfidence, hnotional, -⟩ := h
  have hversions : a.executionStrategyVersion = b.executionStrategyVersion := by
    exact_mod_cast sub_eq_zero.mp hversion
  have hsides : a.side = b.side := by
    have htext := congrArg ExecutionSide.ofText? (hequal _ _ hside)
    rw [ExecutionSide.ofText?_text, ExecutionSide.ofText?_text] at htext
    exact Option.some.inj htext
  cases a
  cases b
  simp only [DecisionContribution.mk.injEq]
  exact ⟨hequal _ _ hstrategyVersion, hequal _ _ hstrategy, hversions, hequal _ _ hsnapshot,
    hequal _ _ hreport, hequal _ _ hdataset, hequal _ _ hfeature, hsides, hequal _ _ hconfidence,
    hequal _ _ hnotional⟩

theorem sortContributions_eq_of_perm (hequal : Separates localeCompare)
    {contributions other : List DecisionContribution} (h : contributions.Perm other) :
    sortContributions localeCompare contributions = sortContributions localeCompare other :=
  (consistent_compareContribution hlocale).sort_eq_of_perm (separates_compareContribution hequal) h

/-- The larger notional comes first. -/
theorem pairwise_sortContributions (contributions : List DecisionContribution) :
    (sortContributions localeCompare contributions).Pairwise fun a b =>
      |parseDecimal b.weightedNotional| ≤ |parseDecimal a.weightedNotional| := by
  rw [sortContributions_eq]
  apply ((consistent_compareContribution hlocale).pairwise_sort contributions).imp
  intro a b h
  rw [compareContribution_eq, contributionKeys, lex_cons_le] at h
  rcases h with h | ⟨h, -⟩
  · exact (sub_neg.mp h).le
  · exact (sub_eq_zero.mp h).le

end Order

/-! ## The contributions of a symbol -/

/-- The contributions to a symbol, in the order in which the decisions came. -/
def contributionsTo (config : PortfolioConfig) (decisions : List DecisionEvent) (symbol : String) :
    List DecisionContribution :=
  (decisions.filter fun e => e.symbol = symbol).filterMap (contributionOf config)

section Buckets

variable {config : PortfolioConfig} {decisions other : List DecisionEvent} {symbol : String}

theorem contributionsTo_perm (h : decisions.Perm other) :
    (contributionsTo config decisions symbol).Perm (contributionsTo config other symbol) :=
  (h.filter _).filterMap _

theorem bySymbol_append (decision : DecisionEvent) :
    bySymbol config (decisions ++ [decision]) = match contributionOf config decision with
      | none => bySymbol config decisions
      | some c => (bySymbol config decisions).set decision.symbol
          (((bySymbol config decisions).get? decision.symbol).getD [] ++ [c]) := by
  unfold bySymbol
  rw [List.foldl_append]
  rfl

theorem nodup_keys_bySymbol : (Dict.keys (bySymbol config decisions)).Nodup := by
  induction decisions using List.reverseRecOn with
  | nil => exact List.nodup_nil
  | append_singleton decisions decision ih =>
      rw [bySymbol_append]
      cases contributionOf config decision with
      | none => exact ih
      | some c => exact Dict.nodup_keys_set ih

/-- A symbol has a bucket exactly if it has a contribution, and the bucket holds all of them. -/
theorem get?_bySymbol : (bySymbol config decisions).get? symbol =
    if contributionsTo config decisions symbol = [] then none
    else some (contributionsTo config decisions symbol) := by
  induction decisions using List.reverseRecOn generalizing symbol with
  | nil => rfl
  | append_singleton decisions decision ih =>
      have hsplit : contributionsTo config (decisions ++ [decision]) symbol =
          contributionsTo config decisions symbol ++
            if decision.symbol = symbol then (contributionOf config decision).toList else [] := by
        unfold contributionsTo
        rw [List.filter_append, List.filterMap_append]
        congr 1
        by_cases hsymbol : decision.symbol = symbol <;> cases hc : contributionOf config decision <;>
          simp [hsymbol, hc]
      rw [bySymbol_append, hsplit]
      cases hc : contributionOf config decision with
      | none => simpa using ih
      | some c =>
          dsimp only
          by_cases hsymbol : decision.symbol = symbol
          · subst hsymbol
            rw [Dict.get?_set_self, if_pos rfl, if_neg (by simp), ih]
            by_cases hnone : contributionsTo config decisions decision.symbol = []
            · rw [if_pos hnone, hnone]
              rfl
            · rw [if_neg hnone]
              rfl
          · rw [Dict.get?_set_of_ne (Ne.symm hsymbol), if_neg hsymbol, List.append_nil, ih]

theorem getD_get?_bySymbol : ((bySymbol config decisions).get? symbol).getD [] =
    contributionsTo config decisions symbol := by
  rw [get?_bySymbol]
  by_cases hnone : contributionsTo config decisions symbol = []
  · rw [if_pos hnone, hnone]
    rfl
  · rw [if_neg hnone]
    rfl

theorem mem_keys_bySymbol : symbol ∈ (bySymbol config decisions).keys ↔
    contributionsTo config decisions symbol ≠ [] := by
  rw [Dict.mem_keys, get?_bySymbol]
  by_cases hnone : contributionsTo config decisions symbol = [] <;> simp [hnone]

theorem nodup_sortedKeys_bySymbol : (Dict.sortedKeys (bySymbol config decisions)).Nodup :=
  (List.perm_insertionSort _ _).nodup_iff.mpr nodup_keys_bySymbol

theorem sortedKeys_bySymbol_eq_of_perm (h : decisions.Perm other) :
    Dict.sortedKeys (bySymbol config decisions) = Dict.sortedKeys (bySymbol config other) := by
  apply Dict.sortedKeys_eq_of_perm
  rw [List.perm_ext_iff_of_nodup nodup_sortedKeys_bySymbol nodup_sortedKeys_bySymbol]
  intro symbol
  rw [Dict.mem_sortedKeys, Dict.mem_sortedKeys, mem_keys_bySymbol, mem_keys_bySymbol]
  apply not_congr
  have hperm := @contributionsTo_perm config _ _ symbol h
  exact ⟨fun hnil => (hnil ▸ hperm).symm.eq_nil, fun hnil => (hnil ▸ hperm).eq_nil⟩

end Buckets

/-! ## Arrival order -/

section Arrival

variable {localeCompare : String → String → ℤ} {config : PortfolioConfig}

theorem allocate_eq_of_perm (hlocale : Consistent localeCompare) (hequal : Separates localeCompare)
    {symbol : String} {contributions other : List DecisionContribution}
    (h : contributions.Perm other) :
    allocate localeCompare config symbol contributions =
      allocate localeCompare config symbol other := by
  unfold allocate
  rw [sortContributions_eq_of_perm hlocale hequal h]

/-- The allocations of a tick, or the exception, do not depend on the order in which its decisions
arrived, and neither do the ids of the intents derived from them. -/
theorem aggregateDecisions_perm (hlocale : Consistent localeCompare)
    (hequal : Separates localeCompare) {decisions other : List DecisionEvent}
    (h : decisions.Perm other) :
    aggregateDecisions localeCompare decisions config =
        aggregateDecisions localeCompare other config ∧
      ∀ (digest : Bytes → String) (adapterId : String) (tickId tickId' : Option String),
        (aggregateDecisions localeCompare decisions config).map (fun allocations =>
            allocations.map fun a => (deriveExecutionIntent digest a adapterId tickId).intentId) =
          (aggregateDecisions localeCompare other config).map (fun allocations =>
            allocations.map fun a => (deriveExecutionIntent digest a adapterId tickId').intentId) := by
  have hallocations : aggregateDecisions localeCompare decisions config =
      aggregateDecisions localeCompare other config := by
    unfold aggregateDecisions
    dsimp only
    rw [sortedKeys_bySymbol_eq_of_perm h]
    congr 2
    funext symbol
    rw [getD_get?_bySymbol, getD_get?_bySymbol]
    exact allocate_eq_of_perm hlocale hequal (contributionsTo_perm h)
  constructor
  · exact hallocations
  · intro digest adapterId tickId tickId'
    rw [hallocations]
    rfl

end Arrival

def lineageOf (snapshot strategy : String) : DecisionLineage :=
  ⟨"sv-1", snapshot, "dq-1", "dh-1", "fh-1", strategy, 1⟩

/-- Two strategies on BTC against each other, two equal decisions on ETH. -/
def opposedDecisions : List DecisionEvent :=
  [⟨"BTC", .enter, .long, "0.4000", lineageOf "fs-1" "momentum"⟩,
    ⟨"ETH", .enter, .short, "0.2500", lineageOf "fs-2" "carry"⟩,
    ⟨"BTC", .enter, .short, "0.6000", lineageOf "fs-1" "carry"⟩,
    ⟨"SOL", .hold, .long, "0.9000", lineageOf "fs-3" "carry"⟩,
    ⟨"ETH", .enter, .short, "0.2500", lineageOf "fs-2" "carry"⟩]

theorem aggregateDecisions_perm_opposed :
    aggregateDecisions ofOrder opposedDecisions defaultPortfolioConfig =
      aggregateDecisions ofOrder opposedDecisions.reverse defaultPortfolioConfig :=
  (aggregateDecisions_perm consistent_ofOrder separates_ofOrder
    (List.reverse_perm opposedDecisions).symm).1

/-! ## What is netted -/

/-- The policy holds numbers, and none of them is negative. -/
structure PortfolioConfig.NonNegative (config : PortfolioConfig) : Prop where
  totalCapital : ∃ q ≥ 0, config.totalCapital = .fin q
  strategyWeights : ∀ id weight, config.strategyWeights.get? id = some weight →
    ∃ q ≥ 0, weight = .fin q
  defaultStrategyWeight : ∃ q ≥ 0, config.defaultStrategyWeight = .fin q
  netDeadband : ∃ q ≥ 0, config.netDeadband = .fin q

/-- The fraction of the capital that a strategy may deploy. -/
def PortfolioConfig.weight (config : PortfolioConfig) (strategyId : String) : ℚ :=
  (config.weightOf strategyId).finite?.getD 0

/-- The capital of the strategy times the conviction. -/
def PortfolioConfig.deployed (config : PortfolioConfig) (e : DecisionEvent) : ℚ :=
  config.totalCapital.finite?.getD 0 * config.weight e.lineage.executionStrategyId *
    parseDecimal e.confidence

/-- What a decision adds to the net of its symbol, in cents. -/
def signedNotional (config : PortfolioConfig) (e : DecisionEvent) : ℚ :=
  if e.action = .enter then
    match e.side with
    | .long => roundTo notionalDp (config.deployed e)
    | .short => -roundTo notionalDp (config.deployed e)
    | .flat => 0
  else 0

def netOf (config : PortfolioConfig) (decisions : List DecisionEvent) (symbol : String) : ℚ :=
  ((decisions.filter fun e => e.symbol = symbol).map (signedNotional config)).sum

/-- The allocation of a net: all contributions of the symbol, owned by the largest of those on the
side of the net. -/
structure ProposedAllocation.Nets (a : ProposedAllocation) (net : ℚ)
    (contributions : List DecisionContribution) : Prop where
  side : a.side = if 0 < net then .long else .short
  targetNotional : parseDecimal a.targetNotional = |net|
  netScore : parseDecimal a.netScore = net
  contributions : a.contributions.Perm contributions
  primary_mem : a.primary ∈ a.contributions
  primary_side : a.primary.side = a.side
  primary_largest : ∀ c ∈ a.contributions, c.side = a.side →
    |parseDecimal c.weightedNotional| ≤ |parseDecimal a.primary.weightedNotional|
  strategyId : a.strategyId = a.primary.executionStrategyId
  strategyVersion : a.strategyVersion = a.primary.executionStrategyVersion

/-- Some contribution is on the side of the net. -/
def Owned (net : ℚ) (contributions : List DecisionContribution) : Prop :=
  ∃ c ∈ contributions, c.side = if 0 < net then .long else .short

/-- A contribution on the side of its sign. -/
structure DecisionContribution.Signed (c : DecisionContribution) : Prop where
  long : c.side = .long → 0 ≤ parseDecimal c.weightedNotional
  short : c.side = .short → parseDecimal c.weightedNotional ≤ 0

section Net

variable {config : PortfolioConfig} {e : DecisionEvent}

/-- A weight is a number that is not negative, or not a number at all. -/
theorem PortfolioConfig.NonNegative.weightOf (h : config.NonNegative) (id : String) :
    config.weightOf id = .nan ∨ ∃ q ≥ 0, config.weightOf id = .fin q := by
  unfold PortfolioConfig.weightOf
  cases hget : config.strategyWeights.get? id with
  | some weight => exact .inr (h.strategyWeights id weight hget)
  | none =>
      dsimp only
      split
      · exact .inl rfl
      · exact .inr h.defaultStrategyWeight

theorem PortfolioConfig.NonNegative.deployed_nonneg (h : config.NonNegative)
    (hconfidence : 0 ≤ parseDecimal e.confidence) : 0 ≤ config.deployed e := by
  obtain ⟨capital, hcapital, hcapitalEq⟩ := h.totalCapital
  have hweight : 0 ≤ config.weight e.lineage.executionStrategyId := by
    unfold PortfolioConfig.weight
    rcases h.weightOf e.lineage.executionStrategyId with hnan | ⟨q, hq, heq⟩
    · rw [hnan]
      exact le_refl _
    · rw [heq]
      exact hq
  unfold PortfolioConfig.deployed
  rw [hcapitalEq]
  exact mul_nonneg (mul_nonneg hcapital hweight) hconfidence

/-- The signed notional of the source is the deployed capital with the sign of the side. -/
theorem PortfolioConfig.NonNegative.quantizeNumber_signed (h : config.NonNegative)
    (side : ExecutionSide) :
    quantizeNumber (JsNumber.fin (signOf side) * (config.totalCapital *
        config.weightOf e.lineage.executionStrategyId) * JsNumber.fin (parseDecimal e.confidence)) =
      quantizeNotional (signOf side * config.deployed e) := by
  obtain ⟨capital, -, hcapital⟩ := h.totalCapital
  unfold PortfolioConfig.deployed PortfolioConfig.weight
  rw [hcapital]
  rcases h.weightOf e.lineage.executionStrategyId with hnan | ⟨q, -, heq⟩
  · rw [hnan]
    -- What is not a number is recorded as zero.
    show quantizeNotional 0 = quantizeNotional (signOf side * (capital * 0 * parseDecimal e.confidence))
    rw [mul_zero, zero_mul, mul_zero]
  · rw [heq]
    show quantizeNotional (signOf side * (capital * q) * parseDecimal e.confidence) = _
    rw [mul_assoc]
    rfl

theorem signedNotional_of_none (h : contributionOf config e = none) :
    signedNotional config e = 0 := by
  unfold contributionOf at h
  unfold signedNotional
  by_cases haction : e.action = .enter
  · rw [if_neg (not_not_intro haction)] at h
    rw [if_pos haction]
    cases hside : e.side with
    | long => simp [hside] at h
    | short => simp [hside] at h
    | flat => rfl
  · rw [if_neg haction]

/-- The notional of a contribution is what its decision adds to the net, on the decision's side. -/
theorem contributionOf_spec (h : config.NonNegative) {c : DecisionContribution}
    (hc : contributionOf config e = some c) :
    parseDecimal c.weightedNotional = signedNotional config e ∧
      parseDecimal c.weightedNotional ∈ grid notionalDp ∧
      (0 ≤ parseDecimal e.confidence → c.Signed) := by
  have hmem := roundTo_mem_grid notionalDp (config.deployed e)
  have hnotional (side : ExecutionSide) : parseDecimal (quantizeNumber (JsNumber.fin (signOf side) *
      (config.totalCapital * config.weightOf e.lineage.executionStrategyId) *
        JsNumber.fin (parseDecimal e.confidence))) =
      roundTo notionalDp (signOf side * config.deployed e) := by
    rw [h.quantizeNumber_signed]
    exact parseDecimal_quantize (by decide) _
  unfold contributionOf at hc
  simp only [Arithmetic.number_exact] at hc
  unfold signedNotional
  by_cases haction : e.action = .enter
  · rw [if_neg (not_not_intro haction)] at hc
    rw [if_pos haction]
    cases hside : e.side with
    | long =>
        rw [hside] at hc
        cases hc
        have heq : parseDecimal _ = roundTo notionalDp (config.deployed e) :=
          (hnotional .long).trans (by rw [signOf, one_mul])
        refine ⟨heq, heq ▸ hmem, fun hconfidence => ⟨fun _ => ?_, nofun⟩⟩
        exact heq ▸ roundTo_nonneg (h.deployed_nonneg hconfidence)
    | short =>
        rw [hside] at hc
        cases hc
        have heq : parseDecimal _ = -roundTo notionalDp (config.deployed e) :=
          (hnotional .short).trans (by rw [signOf, neg_one_mul, roundTo_neg])
        refine ⟨heq, heq ▸ (grid notionalDp).neg_mem hmem, fun hconfidence => ⟨nofun, fun _ => ?_⟩⟩
        exact heq ▸ neg_nonpos.mpr (roundTo_nonneg (h.deployed_nonneg hconfidence))
    | flat =>
        rw [hside] at hc
        cases hc
  · rw [if_pos haction] at hc
    cases hc

theorem sum_contributionsTo (h : config.NonNegative) (decisions : List DecisionEvent) (symbol : String) :
    ((contributionsTo config decisions symbol).map fun c => parseDecimal c.weightedNotional).sum =
      netOf config decisions symbol := by
  unfold contributionsTo netOf
  generalize decisions.filter (fun e => e.symbol = symbol) = own
  induction own with
  | nil => rfl
  | cons e own ih =>
      rw [List.map_cons, List.sum_cons, ← ih]
      cases hc : contributionOf config e with
      | none => rw [List.filterMap_cons_none hc, signedNotional_of_none hc, zero_add]
      | some c =>
          rw [List.filterMap_cons_some hc, List.map_cons, List.sum_cons, (contributionOf_spec h hc).1]

theorem cents_contributionsTo (h : config.NonNegative) (decisions : List DecisionEvent)
    (symbol : String) :
    ∀ c ∈ contributionsTo config decisions symbol, parseDecimal c.weightedNotional ∈ grid notionalDp := by
  intro c hc
  obtain ⟨e, -, hec⟩ := List.mem_filterMap.mp hc
  exact (contributionOf_spec h hec).2.1

theorem signed_contributionsTo (h : config.NonNegative) {decisions : List DecisionEvent}
    (hconfidence : ∀ e ∈ decisions, 0 ≤ parseDecimal e.confidence) (symbol : String) :
    ∀ c ∈ contributionsTo config decisions symbol, c.Signed := by
  intro c hc
  obtain ⟨e, he, hec⟩ := List.mem_filterMap.mp hc
  exact (contributionOf_spec h hec).2.2 (hconfidence e (List.mem_of_mem_filter he))

end Net

/-! ## The allocation of a net -/

/-- A net of some sign has a contribution of that sign, and so on its side. -/
theorem owned_of_signed {contributions : List DecisionContribution}
    (hsigned : ∀ c ∈ contributions, c.Signed)
    (hnet : (contributions.map fun c => parseDecimal c.weightedNotional).sum ≠ 0) :
    Owned (contributions.map fun c => parseDecimal c.weightedNotional).sum contributions := by
  unfold Owned
  have hzero : (contributions.map fun _ => (0 : ℚ)).sum = 0 := by simp
  by_cases hpos : 0 < (contributions.map fun c => parseDecimal c.weightedNotional).sum
  · rw [if_pos hpos]
    rw [← hzero] at hpos
    obtain ⟨c, hc, hlt⟩ := List.exists_lt_of_sum_lt _ _ hpos
    refine ⟨c, hc, ?_⟩
    cases hside : c.side with
    | long => rfl
    | short => exact absurd hlt (not_lt.mpr ((hsigned c hc).short hside))
  · have hneg := lt_of_le_of_ne (not_lt.mp hpos) hnet
    rw [if_neg hpos]
    rw [← hzero] at hneg
    obtain ⟨c, hc, hlt⟩ := List.exists_lt_of_sum_lt _ _ hneg
    refine ⟨c, hc, ?_⟩
    cases hside : c.side with
    | long => exact absurd hlt (not_lt.mpr ((hsigned c hc).long hside))
    | short => rfl

/-- The first of a sorted list on a side is the largest on that side. -/
theorem find?_side_largest {contributions : List DecisionContribution}
    (hsorted : contributions.Pairwise fun a b =>
      |parseDecimal b.weightedNotional| ≤ |parseDecimal a.weightedNotional|)
    {side : ExecutionSide} {primary : DecisionContribution}
    (h : contributions.find? (fun c => c.side = side) = some primary) :
    ∀ c ∈ contributions, c.side = side →
      |parseDecimal c.weightedNotional| ≤ |parseDecimal primary.weightedNotional| := by
  induction contributions with
  | nil => cases h
  | cons first rest ih =>
      obtain ⟨hfirst, hrest⟩ := List.pairwise_cons.mp hsorted
      by_cases hside : first.side = side
      · rw [List.find?_cons_of_pos (by simpa using hside)] at h
        cases h
        intro c hc _
        rcases List.mem_cons.mp hc with rfl | hmem
        · exact le_refl _
        · exact hfirst c hmem
      · rw [List.find?_cons_of_neg (by simpa using hside)] at h
        intro c hc hcside
        rcases List.mem_cons.mp hc with rfl | hmem
        · exact absurd hcside hside
        · exact ih hrest h c hmem hcside

section Allocate

variable {localeCompare : String → String → ℤ} (hlocale : Consistent localeCompare)
  {config : PortfolioConfig} {contributions : List DecisionContribution} {symbol : String} {net : ℚ}

theorem sum_sortContributions :
    ((sortContributions localeCompare contributions).map
      fun c => parseDecimal c.weightedNotional).sum =
      (contributions.map fun c => parseDecimal c.weightedNotional).sum :=
  ((List.perm_insertionSort _ _).map _).sum_eq

include hlocale in
/-- One symbol is allocated its net, unless the net is inside the deadband or nothing is on its side. -/
theorem allocate_nets {deadband : ℚ} (hdeadband : config.netDeadband = .fin deadband)
    (hcents : ∀ c ∈ contributions, parseDecimal c.weightedNotional ∈ grid notionalDp)
    (hnet : (contributions.map fun c => parseDecimal c.weightedNotional).sum = net) :
    ((∃ slot, allocate localeCompare config symbol contributions = .ok slot) ↔
      (deadband < |net| → Owned net contributions)) ∧
    ∀ slot, allocate localeCompare config symbol contributions = .ok slot →
      (slot.isSome ↔ deadband < |net|) ∧
      ∀ a, slot = some a → a.symbol = symbol ∧ a.Nets net contributions := by
  have hsum : ((sortContributions localeCompare contributions).map
      fun c => parseDecimal c.weightedNotional).sum = net := sum_sortContributions.trans hnet
  have hperm : (sortContributions localeCompare contributions).Perm contributions :=
    List.perm_insertionSort _ _
  have hnetCents : net ∈ grid notionalDp := by
    rw [← hnet]
    apply list_sum_mem
    rw [List.forall_mem_map]
    exact hcents
  unfold allocate
  dsimp only
  rw [Arithmetic.sumOf_exact, hsum, hdeadband]
  by_cases hsmall : |net| ≤ deadband
  · have hinside : JsNumber.le (.fin |net|) (.fin deadband) = true := decide_eq_true hsmall
    simp only [if_pos hinside]
    refine ⟨iff_of_true ⟨none, rfl⟩ fun hlarge => absurd hsmall (not_le.mpr hlarge), ?_⟩
    rintro slot ⟨⟩
    exact ⟨by simpa using hsmall, nofun⟩
  · have houtside : ¬ JsNumber.le (.fin |net|) (.fin deadband) = true := by simpa using hsmall
    simp only [if_neg houtside]
    have hlarge : deadband < |net| := not_le.mp hsmall
    -- The lookup of the owner finds a contribution where there is one.
    cases hfind : (sortContributions localeCompare contributions).find?
        (fun c => c.side = if 0 < net then .long else .short) with
    | none =>
        rw [List.find?_eq_none] at hfind
        refine ⟨iff_of_false (by simp) ?_, fun slot hslot => by cases hslot⟩
        intro howned
        obtain ⟨c, hc, hside⟩ := howned hlarge
        exact absurd hside (by simpa using hfind c (hperm.mem_iff.mpr hc))
    | some primary =>
        have hprimary := List.find?_some hfind
        have hmem := List.mem_of_find?_eq_some hfind
        refine ⟨iff_of_true ⟨_, rfl⟩ fun _ => ⟨primary, hperm.mem_iff.mp hmem, by simpa using hprimary⟩, ?_⟩
        rintro slot ⟨⟩
        refine ⟨by simpa using hsmall, ?_⟩
        rintro a ⟨⟩
        refine ⟨rfl, ?_⟩
        constructor
        · rfl
        · show parseDecimal (quantizeNotional |net|) = |net|
          rw [quantizeNotional, parseDecimal_quantize (by decide), roundTo_eq_self]
          rcases abs_choice net with heq | heq
          · rw [heq]
            exact hnetCents
          · rw [heq]
            exact (grid notionalDp).neg_mem hnetCents
        · show parseDecimal (quantizeNotional net) = net
          rw [quantizeNotional, parseDecimal_quantize (by decide), roundTo_eq_self hnetCents]
        · exact hperm
        · exact hmem
        · simpa using hprimary
        · exact find?_side_largest (pairwise_sortContributions hlocale _) hfind
        · rfl
        · rfl

end Allocate

theorem pairwise_sortedKeys {α : Type*} {d : Dict α} (h : (Dict.keys d).Nodup) :
    (Dict.sortedKeys d).Pairwise fun s t => Utf16.encode s < Utf16.encode t := by
  have hle := Dict.pairwise_sortedKeys_le d
  have hne : (Dict.sortedKeys d).Pairwise (· ≠ ·) :=
    (List.perm_insertionSort _ _).nodup_iff.mpr h
  exact (hle.and hne).imp fun hboth => lt_of_le_of_ne hboth.1 fun heq => hboth.2 (Utf16.encode_injective heq)

/-- What is found under a key and knows its key comes in the order of the keys. -/
theorem map_filterMap_eq_filter {α : Type*} {keys : List String} {slot : String → Option α}
    {keyOf : α → String} (h : ∀ key a, slot key = some a → keyOf a = key) :
    (keys.filterMap slot).map keyOf = keys.filter fun key => (slot key).isSome := by
  induction keys with
  | nil => rfl
  | cons key keys ih =>
      cases hslot : slot key with
      | none => rw [List.filterMap_cons_none hslot, List.filter_cons_of_neg (by simp [hslot]), ih]
      | some a =>
          rw [List.filterMap_cons_some hslot, List.filter_cons_of_pos (by simp [hslot]),
            List.map_cons, h key a hslot, ih]

section Aggregate

variable {localeCompare : String → String → ℤ} {config : PortfolioConfig} {decisions : List DecisionEvent}

/-- The aggregation is the list of its calls, one for every symbol that has a contribution. -/
theorem aggregateDecisions_eq : aggregateDecisions localeCompare decisions config =
    ((Dict.sortedKeys (bySymbol config decisions)).mapM fun symbol =>
      allocate localeCompare config symbol (contributionsTo config decisions symbol)).map
        fun allocations => allocations.filterMap id := by
  unfold aggregateDecisions
  simp only [getD_get?_bySymbol]

/-- A symbol without contributions nets to nothing. -/
theorem mem_sortedKeys_of_net (h : config.NonNegative) {deadband : ℚ} (hdeadband : 0 ≤ deadband)
    {symbol : String} (hlarge : deadband < |netOf config decisions symbol|) :
    symbol ∈ Dict.sortedKeys (bySymbol config decisions) := by
  rw [Dict.mem_sortedKeys, mem_keys_bySymbol]
  intro hnone
  have hzero := sum_contributionsTo h decisions symbol
  rw [hnone] at hzero
  rw [← hzero] at hlarge
  simp only [List.map_nil, List.sum_nil, abs_zero] at hlarge
  exact absurd hlarge (not_lt.mpr hdeadband)

end Aggregate

/-- Each symbol whose decisions net to more than the deadband has one allocation, which is that of
its net, the others have none, and the allocations come in the order of their symbols.  The call throws
where nothing is on the side of such a net, which takes a negative confidence. -/
theorem aggregateDecisions_nets {localeCompare : String → String → ℤ}
    (hlocale : Consistent localeCompare) {config : PortfolioConfig} (hconfig : config.NonNegative)
    (decisions : List DecisionEvent) :
    ∃ deadband, config.netDeadband = .fin deadband ∧
      ((∃ allocations, aggregateDecisions localeCompare decisions config = .ok allocations) ↔
        ∀ symbol, deadband < |netOf config decisions symbol| →
          Owned (netOf config decisions symbol) (contributionsTo config decisions symbol)) ∧
      ((∀ e ∈ decisions, 0 ≤ parseDecimal e.confidence) →
        ∃ allocations, aggregateDecisions localeCompare decisions config = .ok allocations) ∧
      ∀ allocations, aggregateDecisions localeCompare decisions config = .ok allocations →
        ((allocations.map ProposedAllocation.symbol).Pairwise fun s t =>
          Utf16.encode s < Utf16.encode t) ∧
        (∀ symbol, symbol ∈ allocations.map ProposedAllocation.symbol ↔
          deadband < |netOf config decisions symbol|) ∧
        ∀ a ∈ allocations,
          a.Nets (netOf config decisions a.symbol) (contributionsTo config decisions a.symbol) := by
  obtain ⟨deadband, hnonneg, hdeadband⟩ := hconfig.netDeadband
  have hspec (symbol : String) := @allocate_nets _ hlocale config
    (contributionsTo config decisions symbol) symbol _ deadband hdeadband
    (cents_contributionsTo hconfig decisions symbol) (sum_contributionsTo hconfig decisions symbol)
  have hreturns : (∃ allocations, aggregateDecisions localeCompare decisions config = .ok allocations) ↔
      ∀ symbol, deadband < |netOf config decisions symbol| →
        Owned (netOf config decisions symbol) (contributionsTo config decisions symbol) := by
    rw [aggregateDecisions_eq]
    simp only [Fallible.map_eq_ok, exists_comm (α := List ProposedAllocation), exists_and_left,
      exists_eq', and_true]
    rw [Fallible.exists_mapM_eq_ok_iff]
    constructor
    · intro hcalls symbol hlarge
      exact (hspec symbol).1.mp (hcalls symbol (mem_sortedKeys_of_net hconfig hnonneg hlarge)) hlarge
    · intro howned symbol _
      exact (hspec symbol).1.mpr (howned symbol)
  refine ⟨deadband, hdeadband, hreturns, ?_, ?_⟩
  · intro hconfidence
    apply hreturns.mpr
    intro symbol hlarge
    rw [← sum_contributionsTo hconfig decisions symbol] at hlarge ⊢
    apply owned_of_signed (signed_contributionsTo hconfig hconfidence symbol)
    intro hzero
    rw [hzero, abs_zero] at hlarge
    exact absurd hlarge (not_lt.mpr hnonneg)
  · intro allocations hallocations
    -- Every call returned, so that each symbol has a slot.
    have hslots (symbol : String) :
        ∃ slot, allocate localeCompare config symbol (contributionsTo config decisions symbol) = .ok slot :=
      (hspec symbol).1.mpr (hreturns.mp ⟨allocations, hallocations⟩ symbol)
    choose slot hslot using hslots
    have hsymbols : ((Dict.sortedKeys (bySymbol config decisions)).filterMap slot).map
        ProposedAllocation.symbol =
        (Dict.sortedKeys (bySymbol config decisions)).filter fun symbol => (slot symbol).isSome :=
      map_filterMap_eq_filter fun symbol a h => (((hspec symbol).2 _ (hslot symbol)).2 a h).1
    rw [aggregateDecisions_eq, Fallible.mapM_eq_ok_map fun symbol _ => hslot symbol] at hallocations
    have hlist : allocations = (Dict.sortedKeys (bySymbol config decisions)).filterMap slot := by
      rw [← Except.ok.inj hallocations]
      exact List.filterMap_map
    rw [hlist]
    refine ⟨?_, ?_, ?_⟩
    · rw [hsymbols]
      exact (pairwise_sortedKeys nodup_keys_bySymbol).filter _
    · intro symbol
      rw [hsymbols, List.mem_filter, ((hspec symbol).2 _ (hslot symbol)).1]
      exact ⟨fun h => h.2, fun hlarge => ⟨mem_sortedKeys_of_net hconfig hnonneg hlarge, hlarge⟩⟩
    · intro a ha
      obtain ⟨symbol, -, hsym⟩ := List.mem_filterMap.mp ha
      obtain ⟨heq, hallocation⟩ := ((hspec symbol).2 _ (hslot symbol)).2 a hsym
      rw [heq]
      exact hallocation

theorem nonNegative_defaultPortfolioConfig : defaultPortfolioConfig.NonNegative where
  totalCapital := ⟨1000000, by norm_num, rfl⟩
  strategyWeights _ _ := nofun
  defaultStrategyWeight := ⟨1, by norm_num, rfl⟩
  netDeadband := ⟨1 / 100, by norm_num, rfl⟩

/-- BTC nets to 200000 short and ETH to 500000 short; nothing is allocated to SOL. -/
theorem aggregateDecisions_nets_opposed :
    netOf defaultPortfolioConfig opposedDecisions "BTC" = -200000 ∧
      ∃ deadband, defaultPortfolioConfig.netDeadband = .fin deadband ∧
        ∀ allocations,
          aggregateDecisions ofOrder opposedDecisions defaultPortfolioConfig = .ok allocations →
          ∀ symbol, symbol ∈ allocations.map ProposedAllocation.symbol ↔
            deadband < |netOf defaultPortfolioConfig opposedDecisions symbol| := by
  obtain ⟨deadband, hdeadband, -, -, hspec⟩ :=
    aggregateDecisions_nets consistent_ofOrder nonNegative_defaultPortfolioConfig opposedDecisions
  exact ⟨by decide +kernel, deadband, hdeadband, fun allocations h => (hspec allocations h).2.1⟩

/-- A decision against itself. -/
def negativeDecision : DecisionEvent := ⟨"BTC", .enter, .long, "-0.5000", lineageOf "fs-1" "momentum"⟩

/-- The net is 500000 short, and the only contribution is long. -/
theorem negative_confidence_unowned :
    netOf defaultPortfolioConfig [negativeDecision] "BTC" = -500000 ∧
      aggregateDecisions ofOrder [negativeDecision] defaultPortfolioConfig =
        .error "Cannot read properties of undefined (reading 'executionStrategyId')" := by
  decide +kernel

end NexusQuant.Execution
