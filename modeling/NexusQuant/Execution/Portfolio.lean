import Mathlib.Algebra.Group.Submonoid.BigOperators
import NexusQuant.Execution.Types
import NexusQuant.Lib.Dict

/-!
# Portfolio state

The state half of `services/workers/src/execution/portfolio.ts`: one net position per symbol,
attributed to the strategy that filled it last, and the exposures derived from the positions.  The
state is a fold of the execution results.
-/

namespace NexusQuant.Execution

structure PortfolioPosition where
  symbol : String
  side : ExecutionSide
  notional : String
  strategyId : String
deriving DecidableEq, Repr

structure PortfolioState where
  positions : Dict PortfolioPosition
  grossExposure : String
  byStrategy : Dict String
deriving DecidableEq, Repr

def emptyPortfolioState : PortfolioState := ⟨[], quantizeNotional 0, []⟩

section Fold

variable [A : Arithmetic]

/-- The gross exposure and the exposure of each strategy, summed in the order of the symbols. -/
def deriveAggregates (positions : Dict PortfolioPosition) : String × Dict String :=
  let held := positions.sortedValues
  let gross := Arithmetic.sumOf (held.map fun p => parseDecimal p.notional)
  let byStrategy := held.foldl
    (fun (d : Dict ℚ) p => d.set p.strategyId
      (A.rounded ((d.get? p.strategyId).getD 0 + parseDecimal p.notional)))
    []
  (quantizeNotional gross,
    byStrategy.sortedKeys.filterMap fun id =>
      (byStrategy.get? id).map fun n => (id, quantizeNotional n))

/-- The state whose positions are `positions`. -/
def PortfolioState.ofPositions (positions : Dict PortfolioPosition) : PortfolioState :=
  ⟨positions, (deriveAggregates positions).1, (deriveAggregates positions).2⟩

def ExecutionResult.position (r : ExecutionResult) : PortfolioPosition :=
  ⟨r.symbol, r.side, r.filledNotional, r.lineage.executionStrategyId⟩

def applyResult (state : PortfolioState) (result : ExecutionResult) : PortfolioState :=
  if result.status ≠ .filled then state
  else .ofPositions (state.positions.set result.symbol result.position)

def reconstructPortfolioState (results : List ExecutionResult) : PortfolioState :=
  results.foldl applyResult emptyPortfolioState

/-- The exposures of a state are the ones its positions give. -/
def PortfolioState.Derived (s : PortfolioState) : Prop := s = .ofPositions s.positions

theorem derived_applyResult {state : PortfolioState} (h : state.Derived)
    (result : ExecutionResult) : (applyResult state result).Derived := by
  unfold applyResult
  split
  · exact h
  · rfl

theorem applyResult_positions {state : PortfolioState} {result : ExecutionResult}
    (h : result.status = .filled) :
    (applyResult state result).positions = state.positions.set result.symbol result.position := by
  rw [applyResult, if_neg (not_not.mpr h)]
  rfl

/-- A fill that reports what is recorded already leaves the state as it is. -/
theorem applyResult_eq_self {state : PortfolioState} (hderived : state.Derived)
    {result : ExecutionResult} (h : state.positions.get? result.symbol = some result.position) :
    applyResult state result = state := by
  unfold applyResult
  split
  · rfl
  · rw [Dict.set_eq_self h]
    exact hderived.symm

theorem reconstructPortfolioState_append (results : List ExecutionResult)
    (result : ExecutionResult) : reconstructPortfolioState (results ++ [result]) =
      applyResult (reconstructPortfolioState results) result := by
  rw [reconstructPortfolioState, List.foldl_append]
  rfl

theorem derived_emptyPortfolioState : emptyPortfolioState.Derived :=
  congrArg (fun gross => PortfolioState.mk [] gross []) (quantize_zero notionalDp).symm

theorem derived_reconstructPortfolioState (results : List ExecutionResult) :
    (reconstructPortfolioState results).Derived := by
  induction results using List.reverseRecOn with
  | nil => exact derived_emptyPortfolioState
  | append_singleton results result ih =>
      rw [reconstructPortfolioState_append]
      exact derived_applyResult ih result

end Fold

/-! ## The exposures as sums -/

open Rounding

section Sums

variable [A : Arithmetic]

/-- What the ledger adds up over all positions. -/
def grossSum (positions : Dict PortfolioPosition) : ℚ :=
  A.sumOf (positions.sortedValues.map fun p => parseDecimal p.notional)

/-- What it adds up over the positions of a strategy. -/
def strategySum (id : String) (positions : Dict PortfolioPosition) : ℚ :=
  A.sumOf ((positions.sortedValues.filter fun p => p.strategyId = id).map
    fun p => parseDecimal p.notional)

end Sums

/-- A portfolio state as the layer keeps it: one position for each symbol, with an absolute notional
that is quantized, and the exposures its positions give. -/
structure PortfolioState.WellFormed [Arithmetic] (s : PortfolioState) : Prop where
  keys : s.positions.keys.Nodup
  derived : s.Derived
  quantized : ∀ symbol p, s.positions.get? symbol = some p →
    isCanonicalDecimalString p.notional notionalDp
  nonneg : ∀ symbol p, s.positions.get? symbol = some p → 0 ≤ parseDecimal p.notional

theorem wellFormed_emptyPortfolioState [Arithmetic] : emptyPortfolioState.WellFormed where
  keys := List.nodup_nil
  derived := derived_emptyPortfolioState
  quantized := by
    intro symbol p hp
    cases hp
  nonneg := by
    intro symbol p hp
    cases hp

section Recorded

variable [A : Arithmetic] {s : PortfolioState}

theorem PortfolioState.Derived.parse_grossExposure (h : s.Derived) :
    parseDecimal s.grossExposure = parseDecimal (quantizeNotional (grossSum s.positions)) := by
  conv_lhs => rw [h]
  rfl

/-- The bucket of a strategy is what the fold over the held positions has collected for it, if
anything. -/
theorem PortfolioState.Derived.bucket (h : s.Derived) (id : String) :
    ∃ n : Option ℚ, n.getD 0 = strategySum id s.positions ∧
      s.byStrategy.get? id = n.map quantizeNotional := by
  let buckets := s.positions.sortedValues.foldl (fun (d : Dict ℚ) p =>
    d.set p.strategyId (A.rounded ((d.get? p.strategyId).getD 0 + parseDecimal p.notional))) []
  refine ⟨buckets.get? id, ?_, ?_⟩
  · have hcollected := @Dict.getD_foldl_set ℚ [] id PortfolioPosition (fun p => p.strategyId)
      (fun x p => A.rounded (x + parseDecimal p.notional)) 0 s.positions.sortedValues
    rw [Dict.get?_nil, Option.getD_none] at hcollected
    rw [hcollected, strategySum, Arithmetic.sumOf, List.foldl_map]
  · conv_lhs => rw [h]
    exact Dict.get?_sorted quantizeNotional

/-- A strategy without a bucket owns no position, and its sum is zero. -/
theorem PortfolioState.Derived.parse_byStrategy [A.Lawful] (h : s.Derived) (id : String) :
    parseDecimal ((s.byStrategy.get? id).getD "0") =
      parseDecimal (quantizeNotional (strategySum id s.positions)) := by
  obtain ⟨n, hsum, hbucket⟩ := h.bucket id
  rw [hbucket, ← hsum]
  cases n with
  | none =>
      have hzero : parseDecimal (A := .exact) "0" = 0 := by decide +kernel
      show parseDecimal "0" = parseDecimal (quantizeNotional 0)
      rw [parseDecimal_eq, hzero, quantizeNotional,
        parseDecimal_quantize_rounded (by decide) Arithmetic.rounded_zero,
        Arithmetic.finiteOrZero_zero, roundTo_zero, Arithmetic.rounded_zero,
        Arithmetic.finiteOrZero_zero]
  | some n => rfl

end Recorded

section Exposures

variable {s : PortfolioState}

/-- Every held position is filed under some symbol. -/
theorem mem_held {positions : Dict PortfolioPosition} {p : PortfolioPosition}
    (h : p ∈ positions.sortedValues) : ∃ symbol, positions.get? symbol = some p := by
  obtain ⟨symbol, -, hp⟩ := List.mem_filterMap.mp h
  exact ⟨symbol, hp⟩

theorem PortfolioState.WellFormed.notionals_mem_grid (h : s.WellFormed) {p : PortfolioPosition}
    (hp : p ∈ s.positions.sortedValues) : parseDecimal p.notional ∈ grid notionalDp := by
  obtain ⟨symbol, hget⟩ := mem_held hp
  exact parseDecimal_mem_grid (h.quantized symbol p hget)

/-- With nothing rounded the exposures are the sums of the notionals. -/
theorem PortfolioState.WellFormed.gross_eq (h : s.WellFormed) :
    parseDecimal s.grossExposure = s.positions.total fun p => parseDecimal p.notional := by
  have hgrid : (s.positions.sortedValues.map fun p => parseDecimal p.notional).sum ∈
      grid notionalDp := by
    apply list_sum_mem
    intro x hx
    obtain ⟨p, hp, rfl⟩ := List.mem_map.mp hx
    exact h.notionals_mem_grid hp
  rw [h.derived.parse_grossExposure, quantizeNotional, parseDecimal_quantize (by decide), grossSum,
    Arithmetic.sumOf_exact, roundTo_eq_self hgrid, ((Dict.sortedValues_perm h.keys).map _).sum_eq,
    List.map_map]
  rfl

theorem PortfolioState.WellFormed.strategy_eq (h : s.WellFormed) (id : String) :
    parseDecimal ((s.byStrategy.get? id).getD "0") =
      s.positions.total fun p => if p.strategyId = id then parseDecimal p.notional else 0 := by
  have hgrid : ((s.positions.sortedValues.filter fun p => p.strategyId = id).map
      fun p => parseDecimal p.notional).sum ∈ grid notionalDp := by
    apply list_sum_mem
    intro x hx
    obtain ⟨p, hp, rfl⟩ := List.mem_map.mp hx
    exact h.notionals_mem_grid (List.mem_of_mem_filter hp)
  -- A position of another strategy adds nothing to the total.
  have hothers : ((s.positions.sortedValues.filter fun p => p.strategyId = id).map
      fun p => parseDecimal p.notional).sum = (s.positions.sortedValues.map fun p =>
        if p.strategyId = id then parseDecimal p.notional else 0).sum := by
    rw [List.sum_map_ite]
    simp
  rw [h.derived.parse_byStrategy, quantizeNotional, parseDecimal_quantize (by decide), strategySum,
    Arithmetic.sumOf_exact, roundTo_eq_self hgrid, hothers,
    ((Dict.sortedValues_perm h.keys).map _).sum_eq, List.map_map]
  rfl

end Exposures

/-- Recording a quantized, nonnegative notional keeps the state well formed. -/
theorem PortfolioState.WellFormed.ofPositions_set [Arithmetic] {s : PortfolioState}
    (h : s.WellFormed) {symbol : String} {p : PortfolioPosition}
    (hquantized : isCanonicalDecimalString p.notional notionalDp)
    (hnonneg : 0 ≤ parseDecimal p.notional) :
    (PortfolioState.ofPositions (s.positions.set symbol p)).WellFormed := by
  have hentry : ∀ other q, Dict.get? (s.positions.set symbol p) other = some q →
      q = p ∨ s.positions.get? other = some q := by
    intro other q hq
    by_cases hother : other = symbol
    · rw [hother, Dict.get?_set_self] at hq
      exact .inl (Option.some.inj hq).symm
    · rw [Dict.get?_set_of_ne hother] at hq
      exact .inr hq
  refine ⟨Dict.nodup_keys_set h.keys, rfl, ?_, ?_⟩
  · intro other q hq
    rcases hentry other q hq with rfl | hold
    · exact hquantized
    · exact h.quantized other q hold
  · intro other q hq
    rcases hentry other q hq with rfl | hold
    · exact hnonneg
    · exact h.nonneg other q hold

end NexusQuant.Execution
