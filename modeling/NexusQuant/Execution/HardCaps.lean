import NexusQuant.Execution.Stage
import NexusQuant.Lib.Run

/-!
# Hard caps

The gate judges the target of a proposal against the exposures it projects; the ledger records what
was filled and sums its positions again.  In doubles the two sums can differ; `SumsWithin` says of a
proposal that no cap lies between them, which always holds when nothing is rounded.
`Approved.withinLimits` is the step from the projection to the ledger: a fill within its target keeps
every cap.  It is carried over the proposals of a tick and over the ticks for any adapter whose fills
stay within their targets under a condition on the call (`AdapterSpec`).
-/

namespace NexusQuant.Execution

open Run

/-- The limits are finite and positive numbers, for every strategy. -/
structure RiskLimits.Valid (limits : RiskLimits) : Prop where
  position : limits.maxPositionNotional.isFinite ∧ JsNumber.lt (.fin 0) limits.maxPositionNotional
  portfolio : limits.maxPortfolioExposure.isFinite ∧
    JsNumber.lt (.fin 0) limits.maxPortfolioExposure
  strategy : ∀ id, (limits.strategyMax id).isFinite ∧ JsNumber.lt (.fin 0) (limits.strategyMax id)

/-- The recorded exposures are within the hard caps. -/
structure PortfolioState.WithinLimits [Arithmetic] (limits : RiskLimits) (s : PortfolioState) :
    Prop where
  position : ∀ symbol p, s.positions.get? symbol = some p →
    JsNumber.le (.fin (parseDecimal p.notional)) limits.maxPositionNotional
  gross : JsNumber.le (.fin (parseDecimal s.grossExposure)) limits.maxPortfolioExposure
  strategy : ∀ id n, s.byStrategy.get? id = some n →
    JsNumber.le (.fin (parseDecimal n)) (limits.strategyMax id)

theorem le_of_le_of_le {a b : ℚ} {x : JsNumber} (hab : a ≤ b) (hb : JsNumber.le (.fin b) x) :
    JsNumber.le (.fin a) x := by
  cases x with
  | fin q => exact decide_eq_true (hab.trans (of_decide_eq_true hb))
  | posInf => rfl
  | nan | negInf => cases hb

/-- Nothing at all is within a limit that is finite and positive. -/
theorem zero_le_limit {x : JsNumber} (h : x.isFinite ∧ JsNumber.lt (.fin 0) x) :
    JsNumber.le (.fin 0) x := by
  obtain ⟨q, rfl⟩ := JsNumber.eq_fin_of_isFinite h.1
  exact decide_eq_true (of_decide_eq_true h.2).le

/-! ## What the ledger adds up -/

section Sums

variable [A : Arithmetic] {limits : RiskLimits} {s : PortfolioState}

def ProposedAllocation.position (a : ProposedAllocation) : PortfolioPosition :=
  ⟨a.symbol, a.side, a.targetNotional, a.strategyId⟩

/-- The state with the symbol of a proposal at its target. -/
def atTarget (s : PortfolioState) (a : ProposedAllocation) : PortfolioState :=
  .ofPositions (s.positions.set a.symbol a.position)

/-- No cap lies between what the gate projects for a proposal and what the ledger adds up with the
proposal at its target, and neither sum is an infinity. -/
structure SumsWithin (limits : RiskLimits) (s : PortfolioState) (a : ProposedAllocation) : Prop where
  held : A.finite (grossSum s.positions)
  target : A.finite (grossSum (atTarget s a).positions)
  gross : JsNumber.le (.fin (projectExposure s a).grossAfter) limits.maxPortfolioExposure →
    JsNumber.le (.fin (parseDecimal (atTarget s a).grossExposure)) limits.maxPortfolioExposure
  strategy : JsNumber.le (.fin (projectExposure s a).strategyAfter) (limits.strategyMax a.strategyId) →
    JsNumber.le (.fin (parseDecimal (((atTarget s a).byStrategy.get? a.strategyId).getD "0")))
      (limits.strategyMax a.strategyId)

instance {A : Arithmetic} (limits : RiskLimits) (s : PortfolioState) (a : ProposedAllocation) :
    Decidable (@SumsWithin A limits s a) :=
  decidable_of_iff (_ ∧ _ ∧ (_ → _) ∧ (_ → _))
    ⟨fun ⟨h₁, h₂, h₃, h₄⟩ => ⟨h₁, h₂, h₃, h₄⟩, fun ⟨h₁, h₂, h₃, h₄⟩ => ⟨h₁, h₂, h₃, h₄⟩⟩

theorem notionals_nonneg (hs : s.WellFormed) :
    ∀ x ∈ s.positions.sortedValues.map fun p => parseDecimal p.notional, 0 ≤ x := by
  intro x hx
  obtain ⟨p, hp, rfl⟩ := List.mem_map.mp hx
  obtain ⟨symbol, hget⟩ := mem_held hp
  exact hs.nonneg symbol p hget

variable [A.Lawful]

/-- A strategy that holds nothing is within its cap, so the caps bound every strategy's bucket. -/
theorem PortfolioState.WithinLimits.bucket_le (h : s.WithinLimits limits) (hlimits : limits.Valid)
    (id : String) :
    JsNumber.le (.fin (parseDecimal ((s.byStrategy.get? id).getD "0"))) (limits.strategyMax id) := by
  cases hget : s.byStrategy.get? id with
  | some n => exact h.strategy id n hget
  | none =>
      have hzero : parseDecimal (A := .exact) "0" = 0 := by decide +kernel
      show JsNumber.le (.fin (parseDecimal "0")) _
      rw [parseDecimal_eq, hzero, Arithmetic.rounded_zero, Arithmetic.finiteOrZero_zero]
      exact zero_le_limit (hlimits.strategy id)

theorem withinLimits_empty (h : limits.Valid) : emptyPortfolioState.WithinLimits limits where
  position := by
    intro symbol p hp
    cases hp
  gross := by
    have hzero : parseDecimal (A := .exact) emptyPortfolioState.grossExposure = 0 := by decide +kernel
    rw [parseDecimal_eq, hzero, Arithmetic.rounded_zero, Arithmetic.finiteOrZero_zero]
    exact zero_le_limit h.portfolio
  strategy := by
    intro id n hn
    cases hn

/-- What is recorded of more is more, as long as it is finite. -/
theorem parse_quantizeNotional_le {x y : ℚ} (hx : A.rounded x = x) (hy : A.rounded y = y)
    (hnonneg : 0 ≤ x) (hxy : x ≤ y) (hfinite : A.finite y) :
    parseDecimal (quantizeNotional x) ≤ parseDecimal (quantizeNotional y) := by
  have habs : |x| ≤ |y| := by
    rw [abs_of_nonneg hnonneg, abs_of_nonneg (hnonneg.trans hxy)]
    exact hxy
  rw [quantizeNotional, quantizeNotional, parseDecimal_quantize_rounded (by decide) hx,
    parseDecimal_quantize_rounded (by decide) hy, Arithmetic.finiteOrZero_of_finite hfinite,
    Arithmetic.finiteOrZero_of_finite (Arithmetic.Lawful.finite_mono habs hfinite)]
  exact Arithmetic.Lawful.mono (Rounding.roundTo_mono _ hxy)

theorem strategySum_nonneg (hs : s.WellFormed) (id : String) : 0 ≤ strategySum id s.positions := by
  apply Arithmetic.sumOf_nonneg
  intro x hx
  exact notionals_nonneg hs x (((List.filter_sublist).map _).subset hx)

/-- A bucket is finite when the gross exposure is. -/
theorem finite_strategySum (hs : s.WellFormed) (h : A.finite (grossSum s.positions)) (id : String) :
    A.finite (strategySum id s.positions) := by
  have hle : strategySum id s.positions ≤ grossSum s.positions :=
    Arithmetic.sumOf_le_sumOf ((List.filter_sublist).map _).sublistForall₂ (notionals_nonneg hs)
  apply Arithmetic.Lawful.finite_mono _ h
  rw [abs_of_nonneg (strategySum_nonneg hs id), abs_of_nonneg ((strategySum_nonneg hs id).trans hle)]
  exact hle

/-- A position of the same strategy with no more notional. -/
def AtMost (p q : PortfolioPosition) : Prop :=
  p.strategyId = q.strategyId ∧ parseDecimal p.notional ≤ parseDecimal q.notional

theorem sumOf_le_of_atMost {ps qs : List PortfolioPosition} (h : List.Forall₂ AtMost ps qs)
    (hqs : ∀ x ∈ qs.map fun p => parseDecimal p.notional, 0 ≤ x) :
    A.sumOf (ps.map fun p => parseDecimal p.notional) ≤
      A.sumOf (qs.map fun p => parseDecimal p.notional) := by
  apply Arithmetic.sumOf_le_of_forall₂ _ hqs
  rw [List.forall₂_map_left_iff, List.forall₂_map_right_iff]
  exact h.imp fun _ _ hpq => hpq.2

/-- Of two positions of one strategy in the same place the smaller one gives the smaller sums. -/
theorem sums_le_of_atMost {symbol : String} {p q : PortfolioPosition} (h : AtMost p q)
    (hq : (PortfolioState.ofPositions (s.positions.set symbol q)).WellFormed) :
    grossSum (s.positions.set symbol p) ≤ grossSum (s.positions.set symbol q) ∧
      ∀ id, strategySum id (s.positions.set symbol p) ≤ strategySum id (s.positions.set symbol q) := by
  have hvalues : List.Forall₂ AtMost (s.positions.set symbol p).sortedValues
      (s.positions.set symbol q).sortedValues :=
    Dict.forall₂_sortedValues_set (fun _ => ⟨rfl, le_rfl⟩) h
  have hnonneg := notionals_nonneg hq
  constructor
  · exact sumOf_le_of_atMost hvalues hnonneg
  · intro id
    have hfilter : List.Forall₂ AtMost
        ((s.positions.set symbol p).sortedValues.filter fun a => a.strategyId = id)
        ((s.positions.set symbol q).sortedValues.filter fun a => a.strategyId = id) := by
      apply List.rel_filter _ hvalues
      intro a b hab
      simp [hab.1]
    apply sumOf_le_of_atMost hfilter
    intro x hx
    exact hnonneg x (((List.filter_sublist).map _).subset hx)

end Sums

/-! ## One recorded result -/

section Step

variable [A : Arithmetic] [A.Lawful] {limits : RiskLimits} {s : PortfolioState}
  {proposal : ProposedAllocation} {intent : ExecutionIntent} {result : ExecutionResult}

/-- A position of one strategy in a place can only take from the buckets of the others. -/
theorem bucket_le_of_ne {symbol id : String} {p : PortfolioPosition} (hs : s.WellFormed)
    (hfinite : A.finite (grossSum s.positions)) (hid : p.strategyId ≠ id)
    (hp : (PortfolioState.ofPositions (s.positions.set symbol p)).WellFormed) :
    parseDecimal (quantizeNotional (strategySum id (s.positions.set symbol p))) ≤
      parseDecimal (quantizeNotional (strategySum id s.positions)) := by
  apply parse_quantizeNotional_le (Arithmetic.rounded_sumOf _) (Arithmetic.rounded_sumOf _)
    (strategySum_nonneg hp id) _ (finite_strategySum hs hfinite id)
  have hsub := @Dict.filter_sortedValues_set_sublist _ s.positions symbol p
    (fun a => a.strategyId = id) (decide_eq_false hid)
  apply Arithmetic.sumOf_le_sumOf (hsub.map _).sublistForall₂
  intro x hx
  exact notionals_nonneg hs x (((List.filter_sublist).map _).subset hx)

/-- With the symbol of a proposal at a position within its target the ledger records no more than at
the target. -/
theorem recorded_le_atTarget {p : PortfolioPosition}
    (hp : (PortfolioState.ofPositions (s.positions.set proposal.symbol p)).WellFormed)
    (htarget : (atTarget s proposal).WellFormed)
    (hfinite : A.finite (grossSum (atTarget s proposal).positions))
    (hstrategy : p.strategyId = proposal.strategyId)
    (hle : parseDecimal p.notional ≤ parseDecimal proposal.targetNotional) :
    parseDecimal (PortfolioState.ofPositions (s.positions.set proposal.symbol p)).grossExposure ≤
        parseDecimal (atTarget s proposal).grossExposure ∧
      ∀ id, parseDecimal (quantizeNotional (strategySum id (s.positions.set proposal.symbol p))) ≤
        parseDecimal (((atTarget s proposal).byStrategy.get? id).getD "0") := by
  obtain ⟨hgross, hbuckets⟩ :=
    @sums_le_of_atMost _ s _ proposal.symbol p proposal.position ⟨hstrategy, hle⟩ htarget
  constructor
  · rw [hp.derived.parse_grossExposure, htarget.derived.parse_grossExposure]
    exact parse_quantizeNotional_le (Arithmetic.rounded_sumOf _) (Arithmetic.rounded_sumOf _)
      (Arithmetic.sumOf_nonneg (notionals_nonneg hp)) hgross hfinite
  · intro id
    rw [htarget.derived.parse_byStrategy]
    exact parse_quantizeNotional_le (Arithmetic.rounded_sumOf _) (Arithmetic.rounded_sumOf _)
      (strategySum_nonneg hp id) (hbuckets id) (finite_strategySum htarget hfinite id)

/-- A fill within the target of an approved proposal keeps the caps. -/
theorem Approved.withinLimits
    (h : Approved proposal (projectExposure s proposal) limits) (hs : s.WellFormed)
    (hproposal : proposal.WellFormed) (hcaps : s.WithinLimits limits) (hlimits : limits.Valid)
    (hsums : SumsWithin limits s proposal)
    (hsymbol : intent.symbol = proposal.symbol)
    (hstrategy : intent.lineage.executionStrategyId = proposal.strategyId)
    (htarget : intent.targetNotional = proposal.targetNotional)
    (hfilled : result.status = .filled) (hwithin : WithinTarget intent result) :
    (applyResult s result).WellFormed ∧ (applyResult s result).WithinLimits limits := by
  have happly : applyResult s result =
      .ofPositions (s.positions.set proposal.symbol result.position) := by
    rw [applyResult, if_neg (not_not.mpr hfilled), hwithin.symbol.trans hsymbol]
  have hwell : (PortfolioState.ofPositions
      (s.positions.set proposal.symbol result.position)).WellFormed :=
    hs.ofPositions_set hwithin.quantized hwithin.nonneg
  have htargetWell : (atTarget s proposal).WellFormed :=
    hs.ofPositions_set hproposal.quantized h.positive.le
  have hle : parseDecimal result.position.notional ≤ parseDecimal proposal.targetNotional := by
    rw [← htarget]
    exact hwithin.le_target
  have howner : result.position.strategyId = proposal.strategyId :=
    hwithin.strategy.trans hstrategy
  obtain ⟨hgross, hbuckets⟩ := recorded_le_atTarget hwell htargetWell hsums.target howner hle
  rw [happly]
  -- Each cap is compared with what the ledger adds up at the target.
  refine ⟨hwell, ?_, le_of_le_of_le hgross (hsums.gross h.gross), ?_⟩
  · intro symbol p hp
    change Dict.get? (s.positions.set proposal.symbol result.position) symbol = some p at hp
    by_cases heq : symbol = proposal.symbol
    · rw [heq, Dict.get?_set_self] at hp
      rw [← Option.some.inj hp]
      exact le_of_le_of_le hle h.position
    · rw [Dict.get?_set_of_ne heq] at hp
      exact hcaps.position symbol p hp
  · intro id n hn
    have hbucket := hwell.derived.parse_byStrategy id
    rw [hn, Option.getD_some] at hbucket
    rw [hbucket]
    by_cases hid : id = proposal.strategyId
    · -- the bucket of the proposal is at most what it is at the target
      rw [hid]
      exact le_of_le_of_le (hbuckets _) (hsums.strategy h.strategy)
    · -- any other bucket can only lose the symbol
      apply le_of_le_of_le _ (hcaps.bucket_le hlimits id)
      rw [hs.derived.parse_byStrategy]
      exact bucket_le_of_ne hs hsums.held (by rw [howner]; exact Ne.symm hid) hwell

end Step

/-- With nothing rounded the ledger adds up what the gate projects. -/
theorem sumsWithin_exact {limits : RiskLimits} {s : PortfolioState} {a : ProposedAllocation}
    (hs : s.WellFormed) (ha : a.WellFormed) (hpos : 0 < parseDecimal a.targetNotional) :
    SumsWithin limits s a := by
  have htarget : (atTarget s a).WellFormed := hs.ofPositions_set ha.quantized hpos.le
  have htotal : ∀ w : PortfolioPosition → ℚ, (atTarget s a).positions.total w =
      s.positions.total w - ((s.positions.get? a.symbol).map w).getD 0 + w a.position := by
    intro w
    have h := @Dict.total_set _ s.positions a.symbol a.position ℚ _ w
    show (s.positions.set a.symbol a.position).total w = _
    linarith
  have hgross : parseDecimal (atTarget s a).grossExposure = (projectExposure s a).grossAfter := by
    rw [htarget.gross_eq, htotal, projectExposure, hs.gross_eq]
    rfl
  have hbucket : parseDecimal (((atTarget s a).byStrategy.get? a.strategyId).getD "0") =
      (projectExposure s a).strategyAfter := by
    -- The proposal is in its own bucket.
    have hown : a.position.strategyId = a.strategyId := rfl
    rw [htarget.strategy_eq, htotal, if_pos hown, projectExposure, hs.strategy_eq]
    rfl
  refine ⟨rfl, rfl, ?_, ?_⟩
  · rw [hgross]
    exact id
  · rw [hbucket]
    exact id

/-! ## One tick -/

/-- The fills of an adapter stay within their targets in the calls that meet `C`; `I` is what the
adapter keeps of its state. -/
structure AdapterSpec [Arithmetic] {ω σ : Type} (adapter : ExecutionAdapter ω σ) (I : σ → Prop)
    (C : ω → σ → ExecutionIntent → Prop) : Prop where
  keeps : ∀ w s intent, I s → I (adapter.execute w s intent).2
  within : ∀ w s intent result, I s → C w s intent →
    isCanonicalDecimalString intent.targetNotional notionalDp →
    0 < parseDecimal intent.targetNotional →
    (adapter.execute w s intent).1 = .ok result → result.status = .filled →
    WithinTarget intent result

section Loop

variable [Arithmetic] {ω σ : Type} (deps : StageDeps ω σ) (tick : Tick ω)
  (P : PortfolioState → ProposedAllocation → Prop) (C : ω → σ → ExecutionIntent → Prop)

/-- Every proposal that is approved in the loop meets `P`, and its call of the adapter meets `C`. -/
def ProposalsMeet (p : Progress σ) : List ProposedAllocation → Prop
  | [] => True
  | a :: rest =>
      (judge deps tick a p.state = .approved →
        P p.state a ∧ C tick.world p.adapter (intentOf deps tick a)) ∧
      ((runProposal deps tick p a).2 = none → ProposalsMeet (runProposal deps tick p a).1 rest)

def initialProgress (s : StageState σ) : Progress σ := ⟨s.portfolio, s.adapter, 0, 0, 0, 0, []⟩

/-- Every proposal that is approved in the tick meets `P`, and its call of the adapter meets `C`. -/
def TickMeets (s : StageState σ) : Prop :=
  match aggregateDecisions deps.localeCompare tick.decisions tick.portfolioConfig with
  | .error _ => True
  | .ok proposals => ProposalsMeet deps tick P C (initialProgress s) proposals

end Loop

section Decidable

variable {A : Arithmetic} {ω σ : Type} (deps : StageDeps ω σ) (tick : Tick ω)
  (P : PortfolioState → ProposedAllocation → Prop) (C : ω → σ → ExecutionIntent → Prop)
  [∀ s a, Decidable (P s a)] [∀ w s i, Decidable (C w s i)]

instance instDecidableProposalsMeet :
    ∀ (p : Progress σ) (as : List ProposedAllocation),
      Decidable (@ProposalsMeet A _ _ deps tick P C p as)
  | _, [] => .isTrue trivial
  | p, a :: rest =>
      have := instDecidableProposalsMeet (@runProposal A _ _ deps tick p a).1 rest
      inferInstanceAs (Decidable (_ ∧ _))

instance instDecidableTickMeets (s : StageState σ) : Decidable (@TickMeets A _ _ deps tick P C s) :=
  match h : @aggregateDecisions A deps.localeCompare tick.decisions tick.portfolioConfig with
  | .error _ => .isTrue (by rw [TickMeets, h]; trivial)
  | .ok proposals =>
      decidable_of_iff (@ProposalsMeet A _ _ deps tick P C (initialProgress s) proposals)
        (by rw [TickMeets, h])

end Decidable

section Tick

variable [A : Arithmetic] {ω σ : Type} {deps : StageDeps ω σ} {tick : Tick ω} {I : σ → Prop}
  {P : PortfolioState → ProposedAllocation → Prop} {C : ω → σ → ExecutionIntent → Prop}
  {start : PortfolioState} {p : Progress σ}

/-- `P` leaves no cap between the sum of the gate and the sum of the ledger. -/
def SumsSpec (limits : RiskLimits) (P : PortfolioState → ProposedAllocation → Prop) : Prop :=
  ∀ s a, s.WellFormed → a.WellFormed → 0 < parseDecimal a.targetNotional → P s a →
    SumsWithin limits s a

/-- The invariant of the loop: the state is the fold of the results, and it was within the caps
after every one of them. -/
structure Capped (limits : RiskLimits) (I : σ → Prop) (start : PortfolioState) (p : Progress σ) :
    Prop where
  adapter : I p.adapter
  state : p.state = p.results.foldl applyResult start
  capped : ∀ done, done <+: p.results → (done.foldl applyResult start).WellFormed ∧
    (done.foldl applyResult start).WithinLimits limits

theorem approved_of_judge {proposal : ProposedAllocation} {state : PortfolioState}
    (h : judge deps tick proposal state = .approved) :
    Approved proposal (projectExposure state proposal) deps.limits := by
  unfold judge at h
  split at h
  · cases h
  · split at h
    · rename_i hverdict
      exact approved_of_evaluateRisk hverdict
    · cases h

/-- Recording one more result. -/
theorem Capped.record (h : Capped deps.limits I start p) {result : ExecutionResult} {adapter : σ}
    (hadapter : I adapter)
    (hnext : (applyResult p.state result).WellFormed ∧
      (applyResult p.state result).WithinLimits deps.limits) :
    Capped deps.limits I start (record p result adapter) where
  adapter := hadapter
  state := by
    show applyResult p.state result = (p.results ++ [result]).foldl applyResult start
    rw [List.foldl_append, h.state]
    rfl
  capped := by
    -- A prefix of the longer list is the whole of it or a prefix of the old one.
    intro done hdone
    rcases List.prefix_concat_iff.mp hdone with rfl | hold
    · rw [List.foldl_append, ← h.state]
      exact hnext
    · exact h.capped done hold

theorem Capped.runProposal [A.Lawful] (hspec : AdapterSpec deps.adapter I C)
    (hsums : SumsSpec deps.limits P) (hlimits : deps.limits.Valid)
    (h : Capped deps.limits I start p) {a : ProposedAllocation} (ha : a.WellFormed)
    (hmeets : judge deps tick a p.state = .approved →
      P p.state a ∧ C tick.world p.adapter (intentOf deps tick a)) :
    Capped deps.limits I start (runProposal deps tick p a).1 := by
  unfold Execution.runProposal
  split
  · exact ⟨h.adapter, h.state, h.capped⟩
  · rename_i hjudge
    have happroved := approved_of_judge hjudge
    have hemitted : Capped deps.limits I start { p with intentsEmitted := p.intentsEmitted + 1 } :=
      ⟨h.adapter, h.state, h.capped⟩
    dsimp only
    split
    · exact hemitted
    · have hnow := h.capped p.results (List.prefix_refl _)
      rw [← h.state] at hnow
      -- Whatever the adapter answers is recorded; only a fill moves the portfolio.
      apply hemitted.record (hspec.keeps _ _ _ h.adapter)
      by_cases hfilled : (resultOf (intentOf deps tick a)
          (deps.adapter.execute tick.world p.adapter (intentOf deps tick a)).1).status = .filled
      · -- a fill comes from the adapter, never from an error
        cases hanswer : (deps.adapter.execute tick.world p.adapter (intentOf deps tick a)).1 with
        | error e =>
            rw [hanswer] at hfilled
            cases hfilled
        | ok result =>
            rw [hanswer] at hfilled
            have hwithin := hspec.within tick.world p.adapter (intentOf deps tick a) result
              h.adapter (hmeets hjudge).2 ha.quantized happroved.positive hanswer hfilled
            exact happroved.withinLimits hnow.1 ha hnow.2 hlimits
              (hsums _ a hnow.1 ha happroved.positive (hmeets hjudge).1) rfl ha.owner.symm rfl hfilled
              hwithin
      · rw [applyResult, if_pos hfilled]
        exact hnow

theorem Capped.runProposals [A.Lawful] (hspec : AdapterSpec deps.adapter I C)
    (hsums : SumsSpec deps.limits P) (hlimits : deps.limits.Valid)
    {as : List ProposedAllocation} (has : ∀ a ∈ as, a.WellFormed)
    (h : Capped deps.limits I start p) (hmeets : ProposalsMeet deps tick P C p as) :
    Capped deps.limits I start (runProposals deps tick p as).1 := by
  -- The proposals run one after another, each on the state the last one left.
  induction as generalizing p with
  | nil => exact h
  | cons a rest ih =>
      have hstep := h.runProposal hspec hsums hlimits (has a List.mem_cons_self) hmeets.1
      rw [Execution.runProposals]
      split
      · rename_i heq
        rw [heq] at hstep
        exact hstep
      · rename_i p' heq
        have hrest := hmeets.2 (by rw [heq])
        rw [heq] at hrest hstep
        exact ih (fun b hb => has b (List.mem_cons_of_mem a hb)) hstep hrest

/-- The state between two ticks. -/
structure StageSound (limits : RiskLimits) (I : σ → Prop) (s : StageState σ) : Prop where
  adapter : I s.adapter
  wellFormed : s.portfolio.WellFormed
  within : s.portfolio.WithinLimits limits

theorem StageSound.capped [A.Lawful] {s : StageState σ} (h : StageSound deps.limits I s)
    (hspec : AdapterSpec deps.adapter I C) (hsums : SumsSpec deps.limits P)
    (hlimits : deps.limits.Valid)
    (hmeets : TickMeets deps tick P C s) :
    Capped deps.limits I s.portfolio (runExecutionStage deps tick s.portfolio s.adapter).1 := by
  have hstart : Capped deps.limits I s.portfolio (initialProgress s) := by
    refine ⟨h.adapter, rfl, fun done hdone => ?_⟩
    rw [List.prefix_nil.mp hdone]
    exact ⟨h.wellFormed, h.within⟩
  unfold TickMeets at hmeets
  unfold runExecutionStage
  -- An aggregation that throws ends the tick before anything is recorded.
  cases hproposals : aggregateDecisions deps.localeCompare tick.decisions tick.portfolioConfig with
  | error e => exact hstart
  | ok proposals =>
      rw [hproposals] at hmeets
      exact hstart.runProposals hspec hsums hlimits (aggregateDecisions_wellFormed hproposals) hmeets

theorem StageSound.step [A.Lawful] {s : StageState σ} (h : StageSound deps.limits I s)
    (hspec : AdapterSpec deps.adapter I C) (hsums : SumsSpec deps.limits P)
    (hlimits : deps.limits.Valid)
    (hmeets : TickMeets deps tick P C s) : StageSound deps.limits I (tickStep deps s tick) := by
  have hcapped := h.capped hspec hsums hlimits hmeets
  unfold tickStep
  split
  · rename_i p heq
    rw [heq] at hcapped
    have hend := hcapped.capped p.results (List.prefix_refl _)
    rw [← hcapped.state] at hend
    exact ⟨hcapped.adapter, hend.1, hend.2⟩
  · -- the tick threw: its portfolio is dropped, its adapter is not
    rename_i p e heq
    rw [heq] at hcapped
    exact ⟨hcapped.adapter, h.wellFormed, h.within⟩

end Tick

/-! ## Every run -/

/-- In every run whose proposals and calls of the adapter meet `P` and `C` the caps hold after every
recorded result. -/
theorem capped_of_spec [A : Arithmetic] [A.Lawful] {ω σ : Type} {deps : StageDeps ω σ} {I : σ → Prop}
    {P : PortfolioState → ProposedAllocation → Prop} {C : ω → σ → ExecutionIntent → Prop}
    (hspec : AdapterSpec deps.adapter I C) (hsums : SumsSpec deps.limits P)
    (hlimits : deps.limits.Valid) {s : StageState σ} (hs : StageSound deps.limits I s)
    {ticks : List (Tick ω)} {tick : Tick ω}
    (hmeets : RunMeets (tickStep deps) (fun s t => TickMeets deps t P C s) s (ticks ++ [tick])) :
    ∀ done, done <+: (runExecutionStage deps tick (run (tickStep deps) s ticks).portfolio
        (run (tickStep deps) s ticks).adapter).1.results →
      (done.foldl applyResult (run (tickStep deps) s ticks).portfolio).WithinLimits deps.limits := by
  have hreached : StageSound deps.limits I (run (tickStep deps) s ticks) :=
    run_invariant (fun s t h ht => h.step hspec hsums hlimits ht) hs hmeets.of_append
  have hcapped := hreached.capped hspec hsums hlimits hmeets.of_append_right.1
  intro done hdone
  exact (hcapped.capped done hdone).2

theorem sumsSpec_exact (limits : RiskLimits) : SumsSpec limits fun _ _ => True :=
  fun _ _ hs ha hpos _ => sumsWithin_exact hs ha hpos

/-- The two adapters of the layer fill within the target, whatever they are called with. -/
theorem adapterSpec_phase5 {adapter : ExecutionAdapter Unit Unit}
    (h : adapter = PaperExecutionAdapter ∨ adapter = SimulatedExecutionAdapter) :
    AdapterSpec adapter (fun _ => True) fun _ _ _ => True where
  keeps _ _ _ _ := trivial
  within := by
    intro _ _ intent result _ _ hquantized hpos hanswer hfilled
    rcases h with rfl | rfl
    · exact paper_withinTarget hquantized hpos hanswer
    · exact simulated_withinTarget hquantized hpos hanswer hfilled

theorem proposalsMeet_true {ω σ : Type} (deps : StageDeps ω σ) (tick : Tick ω) (p : Progress σ)
    (as : List ProposedAllocation) :
    ProposalsMeet deps tick (fun _ _ => True) (fun _ _ _ => True) p as := by
  induction as generalizing p with
  | nil => trivial
  | cons a rest ih => exact ⟨fun _ => ⟨trivial, trivial⟩, fun _ => ih _⟩

theorem tickMeets_true {ω σ : Type} (deps : StageDeps ω σ) (tick : Tick ω) (s : StageState σ) :
    TickMeets deps tick (fun _ _ => True) (fun _ _ _ => True) s := by
  unfold TickMeets
  split
  · trivial
  · exact proposalsMeet_true deps tick _ _

/-- With the adapters of the layer the caps hold after every result of every tick, from every
well-formed state within them. -/
theorem hard_caps_hold (deps : StageDeps Unit Unit)
    (hadapter : deps.adapter = PaperExecutionAdapter ∨ deps.adapter = SimulatedExecutionAdapter)
    (hlimits : deps.limits.Valid) (start : PortfolioState) (hstart : start.WellFormed)
    (hwithin : start.WithinLimits deps.limits) (ticks : List (Tick Unit)) (tick : Tick Unit)
    (s : StageState Unit) (hs : s = run (tickStep deps) ⟨start, ()⟩ ticks) :
    ∀ done, done <+: (runExecutionStage deps tick s.portfolio s.adapter).1.results →
      (done.foldl applyResult s.portfolio).WithinLimits deps.limits := by
  rw [hs]
  exact capped_of_spec (adapterSpec_phase5 hadapter) (sumsSpec_exact _) hlimits
    ⟨trivial, hstart, hwithin⟩
    (runMeets_of_forall fun t _ s => tickMeets_true deps t s)

/-! ## Two strategies and two symbols -/

def sampleDeps (adapter : ExecutionAdapter Unit Unit) : StageDeps Unit Unit where
  adapter := adapter
  limits := defaultRiskLimits
  digest _ := "0123456789abcdef"
  localeCompare a b := if a < b then -1 else if b < a then 1 else 0

def sampleDecision (strategy symbol confidence : String) : DecisionEvent :=
  ⟨symbol, .enter, .long, confidence, ⟨"sv-1", "fs-1", "dq-1", "dh-1", "fh-1", strategy, 1⟩⟩

def quietTick (decisions : List DecisionEvent) : Tick Unit where
  decisions := decisions
  portfolioConfig := defaultPortfolioConfig
  killSwitch _ := .normal
  riskGate := none
  tickId := none
  publish _ := none
  world := ()

theorem valid_defaultRiskLimits : defaultRiskLimits.Valid where
  position := by decide +kernel
  portfolio := by decide +kernel
  strategy id := by
    show (JsNumber.fin 1500000).isFinite ∧ JsNumber.lt (.fin 0) (.fin 1500000)
    decide +kernel

/-- BTC moves from one strategy to the other in the second tick, and ETH is filled beside it. -/
theorem hard_caps_hold_twoTicks :
    ∃ s results, s = run (tickStep (sampleDeps PaperExecutionAdapter)) ⟨emptyPortfolioState, ()⟩
        [quietTick [sampleDecision "momentum" "BTC" "0.7000"]] ∧
      results = (runExecutionStage (sampleDeps PaperExecutionAdapter)
        (quietTick [sampleDecision "carry" "BTC" "0.5000", sampleDecision "carry" "ETH" "0.2500"])
        s.portfolio ()).1.results ∧
      (results.foldl applyResult s.portfolio).byStrategy = [("carry", "750000.00")] ∧
      (results.foldl applyResult s.portfolio).WithinLimits defaultRiskLimits := by
  refine ⟨_, _, rfl, rfl, by decide +kernel, ?_⟩
  exact hard_caps_hold (sampleDeps PaperExecutionAdapter) (.inl rfl) valid_defaultRiskLimits
    emptyPortfolioState wellFormed_emptyPortfolioState (withinLimits_empty valid_defaultRiskLimits)
    [quietTick [sampleDecision "momentum" "BTC" "0.7000"]] _ _ rfl _ (List.prefix_refl _)

end NexusQuant.Execution
