import NexusQuant.ExecutionCore.Books
import NexusQuant.ExecutionCore.SubmittableTrade

/-!
# The quantities of a plan

The position size is split into equal shares rounded to eight places, and the last share takes the
remainder.  Each of the other shares is rounded up by at most half a unit, so that over three levels
the remainder stays above minus one unit; being a decimal, it is not negative.  Over four levels it
can be: two units split into three shares of one and a last of minus one.
-/

namespace NexusQuant.ExecutionCore

open Rounding TradingPlan
open TradingDecision (Decision mv measure unavailable buildTradingDecision)

/-! ## The shares -/

/-- The share of every level but the last. -/
def evenShare (t : ℚ) (n : ℕ) : ℚ := roundTo 8 (t / n)

/-- What the last level takes. -/
def lastShare (t : ℚ) (n : ℕ) : ℚ := t - evenShare t n * (n - 1 : ℕ)

def shares (t : ℚ) (n : ℕ) : List ℚ := List.replicate (n - 1) (evenShare t n) ++ [lastShare t n]

variable {t : ℚ} {n : ℕ}

theorem evenShare_mem_grid : evenShare t n ∈ grid 8 := roundTo_mem_grid 8 _

theorem lastShare_mem_grid (hgrid : t ∈ grid 8) : lastShare t n ∈ grid 8 := by
  unfold lastShare
  rw [mul_comm, ← nsmul_eq_mul]
  exact (grid 8).sub_mem hgrid ((grid 8).nsmul_mem evenShare_mem_grid _)

/-- On decimals the second rounding of `splitQuantity` does nothing. -/
theorem splitQuantity_eq_shares (hgrid : t ∈ grid 8) (hn : n ≠ 0) :
    splitQuantity (some t) n = (shares t n).map some := by
  have hlast : roundTo 8 (t - roundTo 8 (t / n) * (n - 1 : ℕ)) = lastShare t n :=
    roundTo_eq_self (lastShare_mem_grid hgrid)
  simp only [splitQuantity, if_neg hn, hlast, shares, List.map_append, List.map_replicate,
    List.map_cons, List.map_nil]
  rfl

theorem shares_length (hn : n ≠ 0) : (shares t n).length = n := by
  simp only [shares, List.length_append, List.length_replicate, List.length_singleton]
  omega

theorem shares_sum : (shares t n).sum = t := by
  simp only [shares, List.sum_append, List.sum_replicate, List.sum_singleton, nsmul_eq_mul, lastShare]
  ring

theorem mem_shares {q : ℚ} (h : q ∈ shares t n) : q = evenShare t n ∨ q = lastShare t n := by
  rcases List.mem_append.mp h with h | h
  · exact .inl (List.eq_of_mem_replicate h)
  · exact .inr (List.mem_singleton.mp h)

/-- The rounding of the equal share is felt once for every level. -/
theorem lastShare_sub_evenShare (hn : n ≠ 0) :
    lastShare t n - evenShare t n = n * (t / n - evenShare t n) := by
  have hcast : ((n - 1 : ℕ) : ℚ) = n - 1 := by
    rw [Nat.cast_sub (by omega), Nat.cast_one]
  have hne : (n : ℚ) ≠ 0 := Nat.cast_ne_zero.mpr hn
  rw [lastShare, hcast]
  field_simp
  ring

theorem abs_evenShare_sub_le : |evenShare t n - t / n| ≤ 1 / 2 / 10 ^ 8 := abs_roundTo_sub_le 8 _

theorem abs_lastShare_sub_le (hn : n ≠ 0) (hthree : n ≤ 3) :
    |lastShare t n - evenShare t n| ≤ 2 / 10 ^ 8 := by
  have hn3 : (n : ℚ) ≤ 3 := by exact_mod_cast hthree
  rw [lastShare_sub_evenShare hn, abs_mul, Nat.abs_cast, abs_sub_comm]
  have hround := @abs_evenShare_sub_le t n
  calc (n : ℚ) * |evenShare t n - t / n| ≤ 3 * (1 / 2 / 10 ^ 8) :=
        mul_le_mul hn3 hround (abs_nonneg _) (by norm_num)
    _ ≤ 2 / 10 ^ 8 := by norm_num

theorem evenShare_nonneg (hpos : 0 ≤ t) : 0 ≤ evenShare t n :=
  roundTo_nonneg (div_nonneg hpos (Nat.cast_nonneg n))

/-- With at most three levels the remainder does not fall below zero. -/
theorem lastShare_nonneg (hgrid : t ∈ grid 8) (hpos : 0 ≤ t) (hn : n ≠ 0) (hthree : n ≤ 3) :
    0 ≤ lastShare t n := by
  rcases hpos.eq_or_lt with rfl | hpos
  · simp [lastShare, evenShare]
  · apply nonneg_of_neg_unit_lt (lastShare_mem_grid hgrid)
    have hround := (abs_le.mp (@abs_evenShare_sub_le t n)).2
    have hdiff := @lastShare_sub_evenShare t n hn
    have hn3 : (n : ℚ) ≤ 3 := by exact_mod_cast hthree
    have hn1 : (1 : ℚ) ≤ n := by exact_mod_cast Nat.one_le_iff_ne_zero.mpr hn
    have hshare : 0 < t / n := div_pos hpos (by linarith)
    -- The last share is `t / n` less the roundings of the other levels, at most two half units.
    have heq : lastShare t n = t / n - (n - 1) * (evenShare t n - t / n) := by linarith
    have hlost : (n - 1) * (evenShare t n - t / n) ≤ 2 * (1 / 2 / 10 ^ 8 : ℚ) := by
      by_cases hup : 0 ≤ evenShare t n - t / n
      · exact mul_le_mul (by linarith) hround hup (by norm_num)
      · have hneg : (n - 1) * (evenShare t n - t / n) ≤ 0 :=
          mul_nonpos_of_nonneg_of_nonpos (by linarith) (not_le.mp hup).le
        exact hneg.trans (by norm_num)
    rw [heq]
    linarith

theorem shares_nonneg (hgrid : t ∈ grid 8) (hpos : 0 ≤ t) (hn : n ≠ 0) (hthree : n ≤ 3) {q : ℚ}
    (hq : q ∈ shares t n) : 0 ≤ q := by
  rcases mem_shares hq with rfl | rfl
  · exact evenShare_nonneg hpos
  · exact lastShare_nonneg hgrid hpos hn hthree

theorem shares_close (hn : n ≠ 0) (hthree : n ≤ 3) {a b : ℚ} (ha : a ∈ shares t n)
    (hb : b ∈ shares t n) : |a - b| ≤ 2 / 10 ^ 8 := by
  have hdiff := @abs_lastShare_sub_le t n hn hthree
  rcases mem_shares ha with rfl | rfl <;> rcases mem_shares hb with rfl | rfl
  · norm_num
  · rw [abs_sub_comm]; exact hdiff
  · exact hdiff
  · norm_num

/-! ## The orders -/

/-- The target orders of an intent. -/
def targetOrders (intent : ExecutionIntent) : List ExecutionOrder :=
  let parts := splitQuantity (num intent.positionSize) intent.targets.length
  intent.targets.mapIdx fun i target =>
    planOrder intent "target" (i + 2) .target .limit (some target) ((parts[i]?).getD none)

theorem buildOrders_eq (intent : ExecutionIntent) :
    buildOrders intent =
      planOrder intent "entry" 0 .entry .limit intent.entry (num intent.positionSize) ::
      planOrder intent "stop" 1 .stop .stop intent.stop (num intent.positionSize) ::
      targetOrders intent := rfl

theorem targetOrders_role (intent : ExecutionIntent) {o : ExecutionOrder}
    (ho : o ∈ targetOrders intent) :
    o.role = .target ∧ o.side = sideForRole intent.direction .target := by
  obtain ⟨i, hi, rfl⟩ := List.mem_mapIdx.mp ho
  exact ⟨rfl, rfl⟩

theorem targetOrders_price (intent : ExecutionIntent) :
    (targetOrders intent).map (·.price) = intent.targets.map some := by
  apply List.ext_getElem
  · simp [targetOrders]
  · intro i h₁ h₂
    simp [targetOrders, planOrder, makeOrder]

/-- Each level gets its share, no level is left without one. -/
theorem targetOrders_quantity (intent : ExecutionIntent) {parts : List ℚ}
    (hparts : splitQuantity (num intent.positionSize) intent.targets.length = parts.map some)
    (hlength : parts.length = intent.targets.length) :
    (targetOrders intent).map (·.quantity) = parts.map some := by
  apply List.ext_getElem
  · simp [targetOrders, hlength]
  · intro i h₁ h₂
    have hi : i < parts.length := by simpa using h₂
    simp [targetOrders, planOrder, makeOrder, hparts, hi]

/-- The entry is on the other side than every protective order, whatever the direction. -/
theorem sideForRole_entry_ne (direction : SignalDecision) {role : OrderRole} (hrole : role ≠ .entry) :
    sideForRole direction .entry ≠ sideForRole direction role := by
  cases direction <;> cases role <;> first | exact absurd rfl hrole | decide

theorem collectTargets_length_le (d : Decision) : (collectTargets d).length ≤ 3 :=
  List.length_filterMap_le _ _

/-- The orders of a plan for a position of size `t` with the given levels, and what each target takes of
the size. -/
structure Apportioned (t : ℚ) (levels : List ℚ) (entry stop : ExecutionOrder)
    (targets : List ExecutionOrder) (quantities : List ℚ) : Prop where
  entry_size : entry.role = .entry ∧ entry.quantity = some t
  stop_size : stop.role = .stop ∧ stop.quantity = some t
  target_roles : ∀ o ∈ targets, o.role = .target
  target_levels : targets.map (·.price) = levels.map (fun level => some (.fin level))
  target_sizes : targets.map (·.quantity) = quantities.map some
  nonneg : ∀ q ∈ quantities, 0 ≤ q
  total : quantities.sum = t
  close : ∀ a ∈ quantities, ∀ b ∈ quantities, |a - b| ≤ 2 / 10 ^ 8
  ids_distinct : ((entry :: stop :: targets).map (·.orderId)).Nodup
  stop_opposite : entry.side ≠ stop.side
  targets_opposite : ∀ o ∈ targets, entry.side ≠ o.side

/-- The quantities of a plan are conserved: the entry and the stop carry the position size, and the
targets, one for each finite level and in the order of the levels, split it into shares that are not
negative and differ by at most two units. -/
theorem plan_quantities_conserved (decision : Decision) (plan : TradePlan) (opts : BuildIntentOptions)
    {t : ℚ} (hsize : mv decision.positionSize = some t) (hpos : 0 ≤ t) (hgrid : t ∈ grid 8)
    (hlevels : collectTargets decision ≠ []) :
    ∃ entry stop targets quantities,
      (buildExecutionPlan (buildExecutionIntent decision plan opts)).orders =
        entry :: stop :: targets ∧
      Apportioned t (collectTargets decision) entry stop targets quantities := by
  let intent := buildExecutionIntent decision plan opts
  have htargets : intent.targets = (collectTargets decision).map .fin := rfl
  have hlength : intent.targets.length = (collectTargets decision).length := by
    rw [htargets, List.length_map]
  have hn : intent.targets.length ≠ 0 := by
    rw [hlength]
    exact (List.length_pos_iff.mpr hlevels).ne'
  have hthree : intent.targets.length ≤ 3 := by
    rw [hlength]
    exact collectTargets_length_le decision
  have hnum : num intent.positionSize = some t := by
    show num ((mv decision.positionSize).map .fin) = some t
    rw [hsize]
    rfl
  have hparts := @splitQuantity_eq_shares t intent.targets.length hgrid hn
  rw [← hnum] at hparts
  refine ⟨_, _, targetOrders intent, shares t intent.targets.length, buildOrders_eq intent, ?_⟩
  exact
    { entry_size := ⟨rfl, hnum⟩
      stop_size := ⟨rfl, hnum⟩
      target_roles := fun o ho => (targetOrders_role intent ho).1
      target_levels := by rw [targetOrders_price, htargets, List.map_map]; rfl
      target_sizes := targetOrders_quantity intent hparts (shares_length hn)
      nonneg := fun q hq => shares_nonneg hgrid hpos hn hthree hq
      total := shares_sum
      close := fun a ha b hb => shares_close hn hthree ha hb
      ids_distinct := buildOrders_nodup intent
      stop_opposite := @sideForRole_entry_ne intent.direction .stop (by decide)
      targets_opposite := by
        intro o ho
        rw [(targetOrders_role intent ho).2]
        exact sideForRole_entry_ne _ (by decide) }

/-- The sample decision without its middle level, and sized at three units of the last place. -/
def thinDecision : Decision :=
  { buildTradingDecision (sampleInputs 100 2 "HEALTHY") with
    positionSize := measure (3 / 10 ^ 8) .derived
    takeProfit2 := unavailable }

theorem plan_quantities_conserved_thin :
    (collectTargets thinDecision).length = 2 ∧
    ∃ entry stop targets quantities,
      (buildExecutionPlan (buildExecutionIntent thinDecision
        (buildTradePlan (planInputsOf (sampleInputs 100 2 "HEALTHY") (.fin 0) none {}))
        ⟨0, none, none⟩)).orders = entry :: stop :: targets ∧
      Apportioned (3 / 10 ^ 8) (collectTargets thinDecision) entry stop targets quantities :=
  ⟨by decide +kernel, plan_quantities_conserved thinDecision _ ⟨0, none, none⟩ rfl (by norm_num)
    (mem_grid.mpr ⟨3, by norm_num⟩) (by decide +kernel)⟩

end NexusQuant.ExecutionCore
