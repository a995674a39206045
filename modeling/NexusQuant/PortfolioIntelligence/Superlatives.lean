import NexusQuant.Lib.Superlative
import NexusQuant.PortfolioIntelligence.Statistics
import NexusQuant.PortfolioIntelligence.SymbolTotals
import NexusQuant.PortfolioIntelligence.Warnings

/-!
# Superlatives

Whether the largest position and the largest risk are true maxima, and whether the builders that look for
the same maximum name the same symbol.
-/

namespace NexusQuant.PortfolioIntelligence

open Rounding Superlative TradingDecision

section Statement

variable (inputs : PortfolioInputs)

def itemReadiness (item : PortfolioItem) : ℚ := item.plan.readiness.score.finite?.getD 0

def itemConfidence (item : PortfolioItem) : ℚ := item.decision.confidence.finite?.getD 0

/-- The superlatives are true maxima, and those of the same figure agree. -/
structure SuperlativesAgree : Prop where
  position : NamesGreatest Utf16.encode (sourcedSymbols inputs itemNotional) (openTotal inputs itemNotional)
    (buildCapitalAllocation inputs).largestPosition.symbol
  risk : NamesGreatest Utf16.encode (sourcedSymbols inputs itemMaxLoss) (openTotal inputs itemMaxLoss)
    (buildCapitalAllocation inputs).largestRisk.symbol
  opportunity : (buildCapitalAllocation inputs).largestOpportunity.symbol =
    (buildPortfolioStatistics inputs).bestOpportunity.symbol
  warning : ∀ w ∈ (buildPortfolioWarnings inputs).warnings, w.id = "over-concentrated" →
    ∃ s, (buildCapitalAllocation inputs).largestPosition.symbol = some s ∧
      w.reason = "Portfolio over-concentrated in " ++ s

/-- No close competitor: in whole cents, the totals of the smaller symbols are below the greatest one, and
those of the greater symbols at most the greatest one in whole cents. -/
def NoCloseCompetitor (f : PortfolioItem → Option ℚ) : Prop :=
  ∀ s, IsGreatestKey Utf16.encode (sourcedSymbols inputs f) (openTotal inputs f) s →
    Clear Utf16.encode (roundTo 2) (sourcedSymbols inputs f) (openTotal inputs f) s

/-- A readiness above minus one, or of minus one with a confidence above it. -/
def AboveFloor (readiness confidence : ℚ) : Prop := -1 < readiness ∨ (readiness = -1 ∧ -1 < confidence)

/-- Some directional item is above the values that the search starts from. -/
def OpportunityAboveFloor : Prop :=
  directionalItems inputs ≠ [] →
    ∃ item ∈ directionalItems inputs, AboveFloor (itemReadiness item) (itemConfidence item)

end Statement

variable {inputs : PortfolioInputs}

/-! ## Position and risk -/

theorem encode_injective : Function.Injective Utf16.encode := fun _ _ => Utf16.encode_injective

theorem roundTo_monotone (dp : ℕ) : Monotone (roundTo dp) := fun _ _ h => roundTo_mono dp h

theorem roundTo_idem (dp : ℕ) (x : ℚ) : roundTo dp (roundTo dp x) = roundTo dp x :=
  roundTo_eq_self (roundTo_mem_grid dp x)

section Largest

variable {source : SymAgg → Bool} {figure : SymAgg → ℚ} {f : PortfolioItem → Option ℚ}

/-- The figures of the symbols that have a source. -/
def sourcedFigures (source : SymAgg → Bool) (figure : SymAgg → ℚ) (d : Dict SymAgg) : List (String × ℚ) :=
  (d.filter fun e => source e.2).map fun e => (e.1, figure e.2)

/-- A reference shows the best so far. -/
structure Shows (ref : AllocationRef) (best : Option (String × ℚ)) : Prop where
  symbol : ref.symbol = best.map Prod.fst
  value : ref.value = best.map Prod.snd

theorem shows_largerRef {ref : AllocationRef} {best : Option (String × ℚ)} (h : Shows ref best)
    (basis : String) (e : String × SymAgg) (hsource : source e.2 = true) :
    Shows (largerRef source figure basis ref e) (scanStep Utf16.encode (roundTo 2) best (e.1, figure e.2)) := by
  unfold largerRef
  rw [h.symbol, h.value, hsource]
  cases best with
  | none => exact ⟨rfl, rfl⟩
  | some b =>
      unfold scanStep
      dsimp only [Option.map_some, Option.any_some]
      by_cases hcond : b.2 < figure e.2 ∨ (figure e.2 = b.2 ∧ Utf16.encode e.1 < Utf16.encode b.1)
      · rw [if_pos hcond, if_pos (by simpa using hcond)]
        exact ⟨rfl, rfl⟩
      · rw [if_neg hcond, if_neg (by simpa using hcond)]
        exact h

theorem shows_foldl {ref : AllocationRef} {best : Option (String × ℚ)} (h : Shows ref best)
    (basis : String) (d : Dict SymAgg) :
    Shows (d.foldl (largerRef source figure basis) ref)
      ((sourcedFigures source figure d).foldl (scanStep Utf16.encode (roundTo 2)) best) := by
  induction d generalizing ref best with
  | nil => exact h
  | cons e d ih =>
      rw [List.foldl_cons, sourcedFigures]
      by_cases hsource : source e.2 = true
      · rw [List.filter_cons, if_pos hsource, List.map_cons, List.foldl_cons]
        exact ih (shows_largerRef h basis e hsource)
      · rw [List.filter_cons, if_neg hsource]
        apply ih
        have hsame : largerRef source figure basis ref e = ref := by
          unfold largerRef
          rw [eq_false_of_ne_true hsource]
          exact if_neg (by simp)
        rw [hsame]
        exact h

theorem enumerates_sourcedFigures (h : FigureOf inputs figure source f) :
    Enumerates Utf16.encode (sourcedFigures source figure (aggregateBySymbol (derivePortfolioFacts inputs)))
      (sourcedSymbols inputs f) (openTotal inputs f) where
  sorted := List.pairwise_map.mpr (pairwise_aggregate.filter _)
  mem_iff s q := by
    simp only [sourcedFigures, List.mem_map, List.mem_filter, Prod.mk.injEq]
    constructor
    · rintro ⟨e, ⟨he, hsource⟩, rfl, rfl⟩
      exact ⟨(h.source_iff e he).mp hsource, h.figure_eq e he⟩
    · intro hs
      obtain ⟨a, ha⟩ := exists_mem_aggregate hs.1
      exact ⟨(s, a), ⟨ha, (h.source_iff (s, a) ha).mpr hs.1⟩, rfl, by rw [hs.2, ← h.figure_eq (s, a) ha]⟩

theorem names_foldl_iff (h : FigureOf inputs figure source f) (na basis : String) :
    NamesGreatest Utf16.encode (sourcedSymbols inputs f) (openTotal inputs f)
        ((aggregateBySymbol (derivePortfolioFacts inputs)).foldl (largerRef source figure basis)
          (naRef na)).symbol ↔
      NoCloseCompetitor inputs f := by
  have hshows : Shows (naRef na) none := ⟨rfl, rfl⟩
  rw [(shows_foldl hshows basis _).symbol]
  exact namesGreatest_scan_iff encode_injective (roundTo_monotone 2) (roundTo_idem 2)
    (enumerates_sourcedFigures h)

end Largest

theorem largestPosition_iff (inputs : PortfolioInputs) :
    NamesGreatest Utf16.encode (sourcedSymbols inputs itemNotional) (openTotal inputs itemNotional)
        (buildCapitalAllocation inputs).largestPosition.symbol ↔
      NoCloseCompetitor inputs itemNotional :=
  names_foldl_iff (figureOf_gross inputs) _ _

theorem largestRisk_iff (inputs : PortfolioInputs) :
    NamesGreatest Utf16.encode (sourcedSymbols inputs itemMaxLoss) (openTotal inputs itemMaxLoss)
        (buildCapitalAllocation inputs).largestRisk.symbol ↔
      NoCloseCompetitor inputs itemMaxLoss :=
  names_foldl_iff (figureOf_risk inputs) _ _

/-! ## The over-concentrated warning -/

/-- Over totals that are not negative the search of the warning is a scan without rounding. -/
theorem topStep_scan {l : List (String × ℚ)} (hl : ∀ e ∈ l, 0 ≤ e.2) {top : Option String × ℚ}
    {best : Option (String × ℚ)} (hsymbol : top.1 = best.map Prod.fst)
    (hvalue : top.2 = (best.map Prod.snd).getD (-1)) :
    (l.foldl topStep top).1 = (l.foldl (scanStep Utf16.encode id) best).map Prod.fst := by
  induction l generalizing top best with
  | nil => exact hsymbol
  | cons e l ih =>
      obtain ⟨he, hl⟩ := List.forall_mem_cons.mp hl
      rw [List.foldl_cons, List.foldl_cons]
      unfold topStep
      rw [hsymbol, hvalue]
      cases best with
      | none =>
          -- The first total is above minus one.
          rw [if_pos (.inl (show (-1 : ℚ) < e.2 by linarith))]
          exact ih hl rfl rfl
      | some b =>
          unfold scanStep
          dsimp only [Option.map_some, Option.any_some, Option.getD_some]
          by_cases hcond : b.2 < e.2 ∨ (e.2 = b.2 ∧ Utf16.encode e.1 < Utf16.encode b.1)
          · rw [if_pos hcond, if_pos (by simpa using hcond)]
            exact ih hl rfl rfl
          · rw [if_neg hcond, if_neg (by simpa using hcond)]
            exact ih hl hsymbol hvalue

theorem enumerates_notionalBySymbol (inputs : PortfolioInputs) :
    Enumerates Utf16.encode (notionalBySymbol (derivePortfolioFacts inputs))
      (sourcedSymbols inputs itemNotional)
      (openTotal inputs itemNotional) where
  sorted := pairwise_notionalBySymbol
  mem_iff _ _ := mem_notionalBySymbol

/-- The warning names the true maximum. -/
theorem overConcentrated_greatest (h : NonNegative inputs.items) {s : String}
    (hs : overConcentrated (derivePortfolioFacts inputs) = some s) :
    IsGreatestKey Utf16.encode (sourcedSymbols inputs itemNotional) (openTotal inputs itemNotional) s := by
  have htotals : ∀ e ∈ notionalBySymbol (derivePortfolioFacts inputs), 0 ≤ e.2 := by
    intro e he
    rw [(mem_notionalBySymbol.mp he).2]
    exact openTotal_nonneg h.notional
  have htop : (topSymbolSharePct (derivePortfolioFacts inputs)).symbol = some s := by
    unfold overConcentrated at hs
    dsimp only at hs
    split_ifs at hs
    exact hs
  unfold topSymbolSharePct at htop
  split_ifs at htop
  have hscan : ((notionalBySymbol (derivePortfolioFacts inputs)).foldl topStep (none, -1)).1 = _ :=
    @topStep_scan _ htotals (none, -1) none rfl rfl
  exact (namesGreatest_scan encode_injective (enumerates_notionalBySymbol inputs)).of_some s
    (hscan.symm.trans htop)

section Ids

variable {facts : PortfolioFacts} {runtimeState : Option String} {w v : PortfolioWarning}

theorem id_ne_of_mem_warnIf {condition : Bool} (h : w ∈ warnIf condition v)
    (hv : v.id ≠ "over-concentrated") : w.id ≠ "over-concentrated" := by
  unfold warnIf at h
  split_ifs at h
  · rw [List.mem_singleton.mp h]
    exact hv
  · cases h

theorem id_ne_of_mem_runtimeWarnings (h : w ∈ runtimeWarnings facts runtimeState) :
    w.id ≠ "over-concentrated" := by
  unfold runtimeWarnings at h
  split at h
  · rw [List.mem_singleton.mp h]
    simp
  · rw [List.mem_singleton.mp h]
    simp
  · cases h

theorem id_ne_of_mem_capitalWarnings (h : w ∈ capitalWarnings facts) : w.id ≠ "over-concentrated" := by
  unfold capitalWarnings at h
  split_ifs at h
  · rw [List.mem_singleton.mp h]
    simp
  · rw [List.mem_singleton.mp h]
    simp
  · cases h

theorem id_ne_of_mem_skewWarnings (h : w ∈ skewWarnings facts) : w.id ≠ "over-concentrated" := by
  unfold skewWarnings at h
  dsimp only at h
  split_ifs at h
  · rw [List.mem_singleton.mp h]
    simp
  · rw [List.mem_singleton.mp h]
    simp
  · cases h
  · cases h

/-- Only one kind of warning has this name. -/
theorem mem_concentrationWarnings (h : w ∈ portfolioWarnings facts runtimeState)
    (hid : w.id = "over-concentrated") : w ∈ concentrationWarnings facts := by
  simp only [portfolioWarnings, List.mem_append] at h
  rcases h with ((((((((h | h) | h) | h) | h) | h) | h) | h) | h) | h
  · exact absurd hid (id_ne_of_mem_warnIf h (by simp))
  · exact absurd hid (id_ne_of_mem_warnIf h (by simp))
  · exact absurd hid (id_ne_of_mem_runtimeWarnings h)
  · exact absurd hid (id_ne_of_mem_warnIf h (by simp))
  · exact absurd hid (id_ne_of_mem_capitalWarnings h)
  · exact h
  · exact absurd hid (id_ne_of_mem_skewWarnings h)
  · exact absurd hid (id_ne_of_mem_warnIf h (by simp))
  · exact absurd hid (id_ne_of_mem_warnIf h (by simp))
  · exact absurd hid (id_ne_of_mem_warnIf h (by simp))

end Ids

/-- A true largest position is the symbol of the warning. -/
theorem warning_agrees (h : NonNegative inputs.items)
    (hposition : NamesGreatest Utf16.encode (sourcedSymbols inputs itemNotional) (openTotal inputs itemNotional)
      (buildCapitalAllocation inputs).largestPosition.symbol)
    {w : PortfolioWarning} (hw : w ∈ (buildPortfolioWarnings inputs).warnings)
    (hid : w.id = "over-concentrated") :
    ∃ s, (buildCapitalAllocation inputs).largestPosition.symbol = some s ∧
      w.reason = "Portfolio over-concentrated in " ++ s := by
  have hmem := mem_concentrationWarnings hw hid
  rw [concentrationWarnings, List.mem_map] at hmem
  obtain ⟨s, hs, rfl⟩ := hmem
  have hgreatest := overConcentrated_greatest h (Option.mem_toList.mp hs)
  refine ⟨s, ?_, rfl⟩
  -- There is a symbol, so one is named, and the greatest is unique.
  cases hnamed : (buildCapitalAllocation inputs).largestPosition.symbol with
  | none =>
      have hmem := hgreatest.mem
      rw [hposition.of_none hnamed] at hmem
      exact absurd hmem (Finset.notMem_empty s)
  | some t => rw [(hposition.of_some t hnamed).unique encode_injective hgreatest]

/-! ## Opportunity -/

section Opportunity

variable {l : List PortfolioPosition} {o : Opportunity} {b p : PortfolioPosition}
  {best : Option PortfolioPosition}

/-- The two searches stand at the same position. -/
structure At (o : Opportunity) (b : PortfolioPosition) : Prop where
  symbol : o.ref.symbol = some b.symbol
  readiness : o.bestReadiness = b.readiness
  confidence : o.bestConfidence = b.confidence

theorem isBetter_iff :
    isBetter .best p b = true ↔
      b.readiness < p.readiness ∨ (p.readiness = b.readiness ∧ b.confidence < p.confidence) ∨
        (p.readiness = b.readiness ∧ p.confidence = b.confidence ∧
          Utf16.encode p.symbol < Utf16.encode b.symbol) := by
  simp only [isBetter, Bool.or_eq_true, Bool.and_eq_true, decide_eq_true_eq, sub_pos, sub_eq_zero,
    or_assoc, and_assoc]

theorem at_step (h : At o b) (p : PortfolioPosition) :
    ∃ b', pickStep .best (some b) p = some b' ∧ At (betterOpportunity o p) b' := by
  unfold betterOpportunity pickStep
  rw [h.symbol, h.readiness, h.confidence]
  dsimp only [Option.any_some]
  by_cases hcond : isBetter .best p b = true
  · rw [if_pos hcond, if_pos (by simpa using isBetter_iff.mp hcond)]
    exact ⟨p, rfl, rfl, rfl, rfl⟩
  · rw [if_neg hcond, if_neg (by simpa using mt isBetter_iff.mpr hcond)]
    exact ⟨b, rfl, h⟩

theorem at_foldl (h : At o b) :
    (l.foldl betterOpportunity o).ref.symbol = (l.foldl (pickStep .best) (some b)).map (·.symbol) := by
  induction l generalizing o b with
  | nil => exact h.symbol
  | cons p l ih =>
      obtain ⟨b', hpick, hat⟩ := at_step h p
      rw [List.foldl_cons, List.foldl_cons, hpick]
      exact ih hat

/-- Where the search of the allocation starts. -/
def noOpportunity : Opportunity := ⟨naRef "no directional candidates", -1, -1⟩

theorem betterOpportunity_of_not (h : ¬ AboveFloor p.readiness p.confidence) :
    betterOpportunity noOpportunity p = noOpportunity := by
  apply if_neg
  rintro (hlt | ⟨heq, hlt⟩ | ⟨-, -, hany⟩)
  · exact h (.inl hlt)
  · exact h (.inr ⟨heq, hlt⟩)
  · cases hany

/-- The first position above the floor is taken by both searches. -/
theorem at_of_aboveFloor (h : AboveFloor p.readiness p.confidence)
    (hbest : ∀ b, best = some b → ¬ AboveFloor b.readiness b.confidence) :
    pickStep .best best p = some p ∧ At (betterOpportunity noOpportunity p) p := by
  constructor
  · cases best with
    | none => rfl
    | some b =>
        apply if_pos
        apply isBetter_iff.mpr
        have hb := not_or.mp (hbest b rfl)
        have hle : b.readiness ≤ -1 := not_lt.mp hb.1
        rcases hle.lt_or_eq with hlt | heq
        · rcases h with h | h
          · exact .inl (hlt.trans h)
          · exact .inl (hlt.trans_eq h.1.symm)
        · have hconf : b.confidence ≤ -1 := not_lt.mp fun hgt => hb.2 ⟨heq, hgt⟩
          rcases h with h | h
          · exact .inl (heq.trans_lt h)
          · exact .inr (.inl ⟨h.1.trans heq.symm, hconf.trans_lt h.2⟩)
  · have hbetter : betterOpportunity noOpportunity p = _ :=
      if_pos (h.imp id fun h => .inl h)
    rw [hbetter]
    exact ⟨rfl, rfl, rfl⟩

theorem symbol_foldl_eq (hbest : ∀ b, best = some b → ¬ AboveFloor b.readiness b.confidence)
    (h : ∃ p ∈ l, AboveFloor p.readiness p.confidence) :
    (l.foldl betterOpportunity noOpportunity).ref.symbol =
      (l.foldl (pickStep .best) best).map (·.symbol) := by
  induction l generalizing best with
  | nil =>
      obtain ⟨p, hp, -⟩ := h
      cases hp
  | cons p l ih =>
      rw [List.foldl_cons, List.foldl_cons]
      by_cases hp : AboveFloor p.readiness p.confidence
      · obtain ⟨hpick, hat⟩ := at_of_aboveFloor hp hbest
        rw [hpick]
        exact at_foldl hat
      · rw [betterOpportunity_of_not hp]
        apply ih
        · intro b hb
          -- The other search stays below the floor.
          cases best with
          | none =>
              rw [← Option.some.inj hb]
              exact hp
          | some b' =>
              unfold pickStep at hb
              dsimp only at hb
              split_ifs at hb
              · rw [← Option.some.inj hb]
                exact hp
              · rw [← Option.some.inj hb]
                exact hbest b' rfl
        · obtain ⟨q, hq, habove⟩ := h
          rcases List.mem_cons.mp hq with rfl | hq
          · exact absurd habove hp
          · exact ⟨q, hq, habove⟩

theorem foldl_betterOpportunity_of_not (h : ∀ p ∈ l, ¬ AboveFloor p.readiness p.confidence) :
    l.foldl betterOpportunity noOpportunity = noOpportunity := by
  induction l with
  | nil => rfl
  | cons p l ih =>
      obtain ⟨hp, hl⟩ := List.forall_mem_cons.mp h
      rw [List.foldl_cons, betterOpportunity_of_not hp]
      exact ih hl

theorem pickStep_isSome (h : best.isSome = true) : (l.foldl (pickStep .best) best).isSome = true := by
  induction l generalizing best with
  | nil => exact h
  | cons p l ih =>
      apply ih
      cases best with
      | none => rfl
      | some b =>
          unfold pickStep
          dsimp only
          split_ifs <;> rfl

theorem pickByReadiness_symbol (l : List PortfolioPosition) (dir : PickDirection) :
    (pickByReadiness l dir).symbol = (l.foldl (pickStep dir) none).map (·.symbol) := by
  unfold pickByReadiness
  cases l.foldl (pickStep dir) none <;> rfl

theorem opportunity_agrees_iff (l : List PortfolioPosition) :
    (largestOpportunity l).symbol = (pickByReadiness l .best).symbol ↔
      (l ≠ [] → ∃ p ∈ l, AboveFloor p.readiness p.confidence) := by
  rw [pickByReadiness_symbol]
  show (l.foldl betterOpportunity noOpportunity).ref.symbol = _ ↔ _
  constructor
  · intro heq hne
    by_contra hnone
    rw [foldl_betterOpportunity_of_not fun p hp habove => hnone ⟨p, hp, habove⟩] at heq
    cases l with
    | nil => exact hne rfl
    | cons p l =>
        have hsome : (l.foldl (pickStep .best) (some p)).isSome = true := pickStep_isSome rfl
        have hnil : l.foldl (pickStep .best) (some p) = none := Option.map_eq_none_iff.mp heq.symm
        rw [hnil] at hsome
        cases hsome
  · intro h
    by_cases hnil : l = []
    · rw [hnil]
      rfl
    · exact symbol_foldl_eq (fun b hb => by cases hb) (h hnil)

theorem opportunity_iff (inputs : PortfolioInputs) :
    (buildCapitalAllocation inputs).largestOpportunity.symbol =
        (buildPortfolioStatistics inputs).bestOpportunity.symbol ↔
      OpportunityAboveFloor inputs := by
  show (largestOpportunity (derivePortfolioFacts inputs).directional).symbol =
    (pickByReadiness (derivePortfolioFacts inputs).directional .best).symbol ↔ _
  have hperm := directional_perm inputs
  have hnil : (derivePortfolioFacts inputs).directional ≠ [] ↔ directionalItems inputs ≠ [] := by
    rw [not_iff_not, ← List.length_eq_zero_iff, hperm.length_eq, List.length_map, List.length_eq_zero_iff]
  rw [opportunity_agrees_iff, OpportunityAboveFloor, hnil]
  simp only [hperm.mem_iff, List.mem_map, exists_exists_and_eq_and]
  rfl

end Opportunity

/-- The superlatives are true maxima and agree exactly where no competitor is so close that rounding to
cents decides, and where some directional item is above the values that the search starts from. -/
theorem superlatives_agree_iff (inputs : PortfolioInputs) (h : NonNegative inputs.items) :
    SuperlativesAgree inputs ↔
      NoCloseCompetitor inputs itemNotional ∧ NoCloseCompetitor inputs itemMaxLoss ∧
        OpportunityAboveFloor inputs := by
  constructor
  · intro hagree
    exact ⟨(largestPosition_iff inputs).mp hagree.position, (largestRisk_iff inputs).mp hagree.risk,
      (opportunity_iff inputs).mp hagree.opportunity⟩
  · intro hcond
    have hposition := (largestPosition_iff inputs).mpr hcond.1
    constructor
    · exact hposition
    · exact (largestRisk_iff inputs).mpr hcond.2.1
    · exact (opportunity_iff inputs).mpr hcond.2.2
    · intro w hw hid
      exact warning_agrees h hposition hw hid

/-- Two positions that round to the same whole dollars. -/
def closeCompetitors : PortfolioInputs :=
  makeInputs [makeItem (makeDecision "sig-1" "BTC-PERP" (1000004 / 1000)) 100,
    makeItem (makeDecision "sig-2" "ETH-PERP" (1000001 / 1000)) 100]

theorem superlatives_agree_iff_closeCompetitors :
    SuperlativesAgree closeCompetitors ↔
      NoCloseCompetitor closeCompetitors itemNotional ∧ NoCloseCompetitor closeCompetitors itemMaxLoss ∧
        OpportunityAboveFloor closeCompetitors := by
  apply superlatives_agree_iff
  constructor
  · simp only [closeCompetitors, makeInputs, List.forall_mem_cons, List.not_mem_nil, false_implies,
      implies_true, and_true, itemNotional_makeItem, Option.some.injEq, forall_eq']
    norm_num
  · simp only [closeCompetitors, makeInputs, List.forall_mem_cons, List.not_mem_nil, false_implies,
      implies_true, and_true, itemMaxLoss_makeItem, Option.some.injEq, forall_eq']
    norm_num

/-- The smaller position is named, being above the greater one as that is displayed. -/
theorem superlatives_disagree : ¬ SuperlativesAgree closeCompetitors := by
  intro h
  have hgreatest := h.position.of_some "ETH-PERP" (by decide +kernel)
  have hbtc := hgreatest.le "BTC-PERP" (by decide +kernel)
  revert hbtc
  decide +kernel

end NexusQuant.PortfolioIntelligence
