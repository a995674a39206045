import NexusQuant.TradingDecision.Ranking

/-!
# The opportunity board

The five buckets partition the decisions and are sorted, whatever order the decisions came in; and what
is raised does not move down, except that an infinite value counts as nothing.
-/

namespace NexusQuant.TradingDecision

open Comparator Rounding

/-! ## Laws -/

def rankKey (item : RankItem) : String × Timeframe := (item.decision.symbol, item.decision.timeframe)

def rankedKey (r : RankedDecision) : String × Timeframe := (r.symbol, r.timeframe)

/-- The decisions are told apart by symbol and timeframe. -/
def Distinct (items : List RankItem) : Prop := (items.map rankKey).Nodup

def buckets : List (OpportunityBoard → List RankedDecision) :=
  [OpportunityBoard.topLong, OpportunityBoard.topShort, OpportunityBoard.watchlist,
    OpportunityBoard.blocked, OpportunityBoard.waiting]

/-- By score downwards, then by symbol, then by timeframe. -/
def Before (a b : RankedDecision) : Prop :=
  b.rankScore < a.rankScore ∨
    (b.rankScore = a.rankScore ∧
      (Utf16.encode a.symbol < Utf16.encode b.symbol ∨
        (a.symbol = b.symbol ∧
          Utf16.encode (timeframeText a.timeframe) < Utf16.encode (timeframeText b.timeframe))))

/-- How many decisions stand in a bucket before that of a symbol and timeframe. -/
def position (bucket : List RankedDecision) (key : String × Timeframe) : ℕ :=
  bucket.findIdx fun r => decide (rankedKey r = key)

/-- A number is raised, or stays.  What counts as nothing may become infinite, which counts as nothing too. -/
def Raises (x y : JsNumber) : Prop := x = y ∨ (JsNumber.lt x y = true ∧ (y = .posInf → clamp01 x = 0))

def RaisesValue (x y : Option JsNumber) : Prop := x = y ∨ ∃ p q, x = some p ∧ y = some q ∧ Raises p q

/-- The four scores of a decision are raised, or some of them, and everything else stays. -/
structure Raised (a b : RankItem) : Prop where
  same : b.decision =
    { a.decision with
      confidence := b.decision.confidence
      riskRewardRatio := b.decision.riskRewardRatio
      liquidityScore := b.decision.liquidityScore }
  confidence : Raises a.decision.confidence b.decision.confidence
  riskReward : RaisesValue a.decision.riskRewardRatio.value b.decision.riskRewardRatio.value
  liquidity : RaisesValue a.decision.liquidityScore.value b.decision.liquidityScore.value
  featureQuality : Raises a.featureQuality b.featureQuality

structure BoardLaws (items : List RankItem) : Prop where
  partition :
    ((rankOpportunities items).topLong ++ (rankOpportunities items).topShort ++
      (rankOpportunities items).watchlist ++ (rankOpportunities items).blocked ++
        (rankOpportunities items).waiting).Perm (items.map toRanked)
  total : (rankOpportunities items).total = items.length
  topLong : ∀ r, r ∈ (rankOpportunities items).topLong ↔
    r ∈ items.map toRanked ∧ r.overallStatus = .actionable ∧ r.direction = .long
  topShort : ∀ r, r ∈ (rankOpportunities items).topShort ↔
    r ∈ items.map toRanked ∧ r.overallStatus = .actionable ∧ r.direction = .short
  blocked : ∀ r, r ∈ (rankOpportunities items).blocked ↔
    r ∈ items.map toRanked ∧ r.overallStatus = .blocked
  waiting : ∀ r, r ∈ (rankOpportunities items).waiting ↔
    r ∈ items.map toRanked ∧ r.overallStatus = .waiting
  sorted : ∀ bucket ∈ buckets, (bucket (rankOpportunities items)).Pairwise Before
  order : ∀ items', items'.Perm items → rankOpportunities items' = rankOpportunities items
  raised : ∀ before a after b, items = before ++ a :: after → Raised a b → ∀ bucket ∈ buckets,
    position (bucket (rankOpportunities (before ++ b :: after))) (rankKey a) ≤
      position (bucket (rankOpportunities items)) (rankKey a)

/-! ## The comparator -/

theorem consistent_byScore : Consistent byScore := by
  apply consistent_lex
  intro key hkey
  simp only [List.mem_cons, List.not_mem_nil, or_false] at hkey
  rcases hkey with rfl | rfl | rfl
  · exact (consistent_sub RankedDecision.rankScore).reverse
  · exact (consistent_ofOrder.comap fun r : RankedDecision => Utf16.encode r.symbol).intCast
  · exact (consistent_ofOrder.comap fun r : RankedDecision =>
      Utf16.encode (timeframeText r.timeframe)).intCast

theorem timeframeText_injective : Function.Injective timeframeText := by
  intro a b h
  cases a <;> cases b <;> first | rfl | (exact absurd h (by decide))

theorem byScore_neg_iff {a b : RankedDecision} : byScore a b < 0 ↔ Before a b := by
  have hzero {s t : String} : ((ofOrder (Utf16.encode s) (Utf16.encode t) : ℤ) : ℚ) = 0 ↔ s = t := by
    rw [Int.cast_eq_zero, le_antisymm_iff, ofOrder_nonpos, ofOrder_nonneg, ← le_antisymm_iff]
    exact ⟨Utf16.encode_injective, congrArg Utf16.encode⟩
  have hneg {s t : String} : ((ofOrder (Utf16.encode s) (Utf16.encode t) : ℤ) : ℚ) < 0 ↔
      Utf16.encode s < Utf16.encode t := by
    rw [Int.cast_lt_zero, ← not_le, ofOrder_nonneg, not_le]
  rw [byScore, lex_cons_lt, lex_cons_lt, lex_cons_lt, hneg, hneg, hzero, sub_neg, sub_eq_zero]
  simp [Before]

theorem rankedKey_eq_of_byScore {a b : RankedDecision} (h : byScore a b = 0) :
    rankedKey a = rankedKey b := by
  rw [byScore, lex_eq_zero] at h
  have hsymbol : ((ofOrder (Utf16.encode a.symbol) (Utf16.encode b.symbol) : ℤ) : ℚ) = 0 :=
    h _ (List.mem_cons_of_mem _ List.mem_cons_self)
  have htimeframe : ((ofOrder (Utf16.encode (timeframeText a.timeframe))
      (Utf16.encode (timeframeText b.timeframe)) : ℤ) : ℚ) = 0 :=
    h _ (List.mem_cons_of_mem _ (List.mem_cons_of_mem _ List.mem_cons_self))
  apply Prod.ext
  · exact Utf16.encode_injective (separates_ofOrder _ _ (by exact_mod_cast hsymbol))
  · exact timeframeText_injective
      (Utf16.encode_injective (separates_ofOrder _ _ (by exact_mod_cast htimeframe)))

section Distinct

variable {items items' : List RankItem} {r s : RankedDecision}

theorem Distinct.eq_of_key (h : Distinct items) (hr : r ∈ items.map toRanked) (hs : s ∈ items.map toRanked)
    (hkey : rankedKey r = rankedKey s) : r = s := by
  obtain ⟨a, ha, rfl⟩ := List.mem_map.mp hr
  obtain ⟨b, hb, rfl⟩ := List.mem_map.mp hs
  rw [List.inj_on_of_nodup_map h ha hb hkey]

theorem Distinct.pairwise_key (h : Distinct items) :
    (items.map toRanked).Pairwise fun r s => rankedKey r ≠ rankedKey s := by
  rw [List.pairwise_map]
  exact List.pairwise_map.mp h

/-- The decisions of one kind, in order. -/
def bucketOf (keep : RankedDecision → Bool) (items : List RankItem) : List RankedDecision :=
  sort byScore ((items.map toRanked).filter keep)

theorem mem_bucketOf {keep : RankedDecision → Bool} :
    r ∈ bucketOf keep items ↔ r ∈ items.map toRanked ∧ keep r = true := by
  rw [bucketOf, (perm_sort byScore _).mem_iff, List.mem_filter]

theorem Distinct.sorted (h : Distinct items) (keep : RankedDecision → Bool) :
    (bucketOf keep items).Pairwise Before := by
  have hperm := perm_sort byScore ((items.map toRanked).filter keep)
  have hkeys : (bucketOf keep items).Pairwise fun r s => rankedKey r ≠ rankedKey s :=
    hperm.symm.pairwise (h.pairwise_key.filter keep) fun hne => hne.symm
  have hsorted := consistent_byScore.pairwise_sort ((items.map toRanked).filter keep)
  apply (hkeys.and hsorted).imp
  intro a b hab
  apply byScore_neg_iff.mp
  apply lt_of_le_of_ne hab.2
  intro hzero
  exact hab.1 (rankedKey_eq_of_byScore hzero)

theorem Distinct.bucketOf_eq (h : Distinct items) (hperm : items'.Perm items)
    (keep : RankedDecision → Bool) : bucketOf keep items' = bucketOf keep items := by
  symm
  apply consistent_byScore.sort_eq_of_perm_of_apart
  · intro a ha b hb hzero
    exact h.eq_of_key (List.mem_filter.mp ha).1 (List.mem_filter.mp hb).1 (rankedKey_eq_of_byScore hzero)
  · exact ((hperm.symm.map toRanked).filter keep)

theorem Distinct.board_eq (h : Distinct items) (hperm : items'.Perm items) :
    rankOpportunities items' = rankOpportunities items := by
  have hbucket (keep : RankedDecision → Bool) :
      sort byScore ((items'.map toRanked).filter keep) = sort byScore ((items.map toRanked).filter keep) :=
    h.bucketOf_eq hperm keep
  simp only [rankOpportunities, hbucket, List.length_map, hperm.length_eq]

end Distinct

/-! ## The partition -/

theorem count_filter_eq (keep : RankedDecision → Bool) (l : List RankedDecision) (r : RankedDecision) :
    (l.filter keep).count r = if keep r then l.count r else 0 := by
  split_ifs with h
  · exact List.count_filter h
  · apply List.count_eq_zero.mpr
    intro hmem
    exact h (List.mem_filter.mp hmem).2

/-- Every decision is of exactly one kind. -/
theorem one_bucket (r : RankedDecision) (n : ℕ) :
    (if isTopLong r then n else 0) + (if isTopShort r then n else 0) + (if isWatched r then n else 0) +
      (if isBlocked r then n else 0) + (if isWaiting r then n else 0) = n := by
  unfold isTopLong isTopShort isWatched isBlocked isWaiting isTop
  cases r.overallStatus <;> cases r.direction <;> simp

theorem buckets_perm (items : List RankItem) :
    (bucketOf isTopLong items ++ bucketOf isTopShort items ++ bucketOf isWatched items ++
      bucketOf isBlocked items ++ bucketOf isWaiting items).Perm (items.map toRanked) := by
  rw [List.perm_iff_count]
  intro r
  have hcount (keep : RankedDecision → Bool) :
      (bucketOf keep items).count r = if keep r then (items.map toRanked).count r else 0 := by
    rw [bucketOf, (perm_sort byScore _).count_eq, count_filter_eq]
  rw [List.count_append, List.count_append, List.count_append, List.count_append, hcount, hcount, hcount,
    hcount, hcount]
  exact one_bucket r _

theorem isTopLong_iff {r : RankedDecision} :
    isTopLong r = true ↔ r.overallStatus = .actionable ∧ r.direction = .long := by
  unfold isTopLong isTop
  cases r.overallStatus <;> cases r.direction <;> decide

theorem isTopShort_iff {r : RankedDecision} :
    isTopShort r = true ↔ r.overallStatus = .actionable ∧ r.direction = .short := by
  unfold isTopShort isTop
  cases r.overallStatus <;> cases r.direction <;> decide

/-! ## Raising a score -/

section Raising

variable {x y : JsNumber} {a b : RankItem}

theorem clamp01_nonneg (x : JsNumber) : 0 ≤ clamp01 x := by
  cases x with
  | fin q =>
      show 0 ≤ if q < 0 then 0 else if 1 < q then 1 else q
      split_ifs with hneg hone
      · exact le_refl 0
      · exact zero_le_one
      · exact not_lt.mp hneg
  | nan | posInf | negInf => exact le_refl 0

theorem clamp01_fin_mono {p q : ℚ} (h : p ≤ q) : clamp01 (.fin p) ≤ clamp01 (.fin q) := by
  show (if p < 0 then 0 else if 1 < p then 1 else p) ≤ if q < 0 then 0 else if 1 < q then 1 else q
  split_ifs <;> linarith

theorem Raises.clamp01_le (h : Raises x y) : clamp01 x ≤ clamp01 y := by
  rcases h with rfl | ⟨hlt, hinf⟩
  · exact le_refl _
  · cases y with
    | fin q =>
        cases x with
        | fin p => exact clamp01_fin_mono (of_decide_eq_true hlt).le
        | negInf => exact clamp01_nonneg _
        | nan | posInf => cases hlt
    | posInf => rw [hinf rfl]; exact clamp01_nonneg _
    | nan | negInf => cases x <;> cases hlt

theorem clamp01_fin_eq_zero {p : ℚ} : clamp01 (.fin p) = 0 ↔ p ≤ 0 := by
  show (if p < 0 then 0 else if 1 < p then 1 else p) = 0 ↔ p ≤ 0
  split_ifs with hneg hone
  · simp [hneg.le]
  · simp [(zero_lt_one.trans hone).not_ge]
  · constructor
    · exact fun h => h.le
    · exact fun h => le_antisymm h (not_lt.mp hneg)

/-- Divided by a positive number, what is raised is raised. -/
theorem Raises.div {c : ℚ} (hc : 0 < c) (h : Raises x y) : Raises (x / .fin c) (y / .fin c) := by
  have hfin (p : ℚ) : (JsNumber.fin p / .fin c : JsNumber) = .fin (p / c) := if_neg hc.ne'
  have hpos : (JsNumber.posInf / .fin c : JsNumber) = .posInf := if_neg hc.not_gt
  have hneg : (JsNumber.negInf / .fin c : JsNumber) = .negInf := if_pos (neg_lt_zero.mpr hc)
  rcases h with rfl | ⟨hlt, hinf⟩
  · exact .inl rfl
  · right
    cases x with
    | fin p =>
        cases y with
        | fin q =>
            rw [hfin, hfin]
            have hpq : p / c < q / c := div_lt_div_of_pos_right (of_decide_eq_true hlt) hc
            exact ⟨decide_eq_true hpq, fun h => by cases h⟩
        | posInf =>
            rw [hfin, hpos]
            have hp := clamp01_fin_eq_zero.mp (hinf rfl)
            exact ⟨rfl, fun _ => clamp01_fin_eq_zero.mpr (div_nonpos_of_nonpos_of_nonneg hp hc.le)⟩
        | nan | negInf => cases hlt
    | negInf =>
        rw [hneg]
        cases y with
        | fin q => rw [hfin]; exact ⟨rfl, fun _ => rfl⟩
        | posInf => rw [hpos]; exact ⟨rfl, fun _ => rfl⟩
        | nan | negInf => cases hlt
    | nan | posInf => cases hlt

theorem RaisesValue.component_le {v w : Option JsNumber} {c : ℚ} (hc : 0 < c) (h : RaisesValue v w) :
    (v.map fun n => clamp01 (n / .fin c)).getD 0 ≤ (w.map fun n => clamp01 (n / .fin c)).getD 0 := by
  rcases h with rfl | ⟨p, q, rfl, rfl, hraise⟩
  · exact le_refl _
  · exact (hraise.div hc).clamp01_le

/-- What a raise leaves as it was. -/
theorem Raised.toRanked_eq (h : Raised a b) :
    rankedKey (toRanked b) = rankedKey (toRanked a) ∧
      (toRanked b).overallStatus = (toRanked a).overallStatus ∧
        (toRanked b).direction = (toRanked a).direction := by
  unfold toRanked rankedKey
  rw [h.same]
  exact ⟨rfl, rfl, rfl⟩

theorem Raised.score_le (h : Raised a b) : (toRanked a).rankScore ≤ (toRanked b).rankScore := by
  have hconfidence := h.confidence.clamp01_le
  have hreward := h.riskReward.component_le (by norm_num : (0 : ℚ) < 3)
  have hliquidity := h.liquidity.component_le (by norm_num : (0 : ℚ) < 100)
  have hquality := h.featureQuality.clamp01_le
  -- The three approvals are the same.
  have hready : (components b.decision).executionReady = (components a.decision).executionReady := by
    rw [h.same]; rfl
  have hrisk : (components b.decision).riskApproved = (components a.decision).riskApproved := by
    rw [h.same]; rfl
  have hcontrol : (components b.decision).controlApproved = (components a.decision).controlApproved := by
    rw [h.same]; rfl
  apply roundTo_mono
  dsimp only
  rw [hready, hrisk, hcontrol]
  unfold rankWeights components
  dsimp only
  linarith

theorem Raised.byScore_le (h : Raised a b) : byScore (toRanked b) (toRanked a) ≤ 0 := by
  have hsymbol : (toRanked b).symbol = (toRanked a).symbol := congrArg Prod.fst h.toRanked_eq.1
  have htimeframe : (toRanked b).timeframe = (toRanked a).timeframe := congrArg Prod.snd h.toRanked_eq.1
  have hself (s : List ℕ) : ((ofOrder s s : ℤ) : ℚ) = 0 := by simp [ofOrder]
  rw [byScore, lex_cons_le, lex_cons_le, lex_cons_le, hsymbol, htimeframe, hself, hself, sub_neg, sub_eq_zero]
  rcases h.score_le.lt_or_eq with hlt | heq
  · exact .inl hlt
  · exact .inr ⟨heq, .inr ⟨rfl, .inr ⟨rfl, le_refl 0⟩⟩⟩

/-- Where a decision of a bucket stands. -/
theorem position_bucketOf {items : List RankItem} (h : Distinct items) (ha : a ∈ items)
    {keep : RankedDecision → Bool} (hkeep : keep (toRanked a) = true) :
    position (bucketOf keep items) (rankKey a) =
      ((items.map toRanked).filter keep).countP fun r => byScore r (toRanked a) < 0 := by
  have hmem : toRanked a ∈ items.map toRanked := List.mem_map_of_mem ha
  apply consistent_byScore.findIdx_sort
  · intro r hr
    rw [decide_eq_true_eq]
    constructor
    · exact fun hkey => h.eq_of_key (List.mem_filter.mp hr).1 hmem hkey
    · rintro rfl
      rfl
  · intro r hr hzero
    exact h.eq_of_key (List.mem_filter.mp hr).1 hmem (rankedKey_eq_of_byScore hzero)
  · exact List.mem_filter.mpr ⟨hmem, hkeep⟩

theorem position_le {before after : List RankItem} (h : Distinct (before ++ a :: after))
    (hraised : Raised a b) {keep : RankedDecision → Bool} (hkeep : keep (toRanked b) = keep (toRanked a)) :
    position (bucketOf keep (before ++ b :: after)) (rankKey a) ≤
      position (bucketOf keep (before ++ a :: after)) (rankKey a) := by
  have hkey : rankKey b = rankKey a := hraised.toRanked_eq.1
  have hdistinct : Distinct (before ++ b :: after) := by
    unfold Distinct at h ⊢
    rw [List.map_append, List.map_cons] at h ⊢
    rw [hkey]
    exact h
  cases ha : keep (toRanked a) with
  | true =>
      have hb : keep (toRanked b) = true := hkeep.trans ha
      have hposition := position_bucketOf hdistinct
        (List.mem_append_right before (List.mem_cons_self (a := b) (l := after))) hb
      rw [hkey] at hposition
      rw [hposition, position_bucketOf h (List.mem_append_right before List.mem_cons_self) ha]
      -- Whoever stands before the raised decision stood before it already.
      have hmono : ∀ l : List RankedDecision, (l.countP fun r => decide (byScore r (toRanked b) < 0)) ≤
          l.countP fun r => decide (byScore r (toRanked a) < 0) := by
        intro l
        apply List.countP_mono_left
        intro r _ hr
        apply decide_eq_true
        exact consistent_byScore.lt_of_lt_of_le (of_decide_eq_true hr) hraised.byScore_le
      have hself (r : RankedDecision) : ¬ byScore r r < 0 := fun hlt =>
        absurd ((consistent_byScore.swap r r).mp hlt) hlt.not_gt
      rw [List.map_append, List.map_cons, List.filter_append, List.filter_cons_of_pos hb, List.countP_append,
        List.countP_cons_of_neg (by simpa using hself (toRanked b)), List.map_append, List.map_cons,
        List.filter_append, List.filter_cons_of_pos ha, List.countP_append,
        List.countP_cons_of_neg (by simpa using hself (toRanked a))]
      exact Nat.add_le_add (hmono _) (hmono _)
  | false =>
      -- The decision is in another bucket.
      have hb : ¬ keep (toRanked b) = true := by rw [hkeep, ha]; exact Bool.false_ne_true
      apply le_of_eq
      rw [bucketOf, bucketOf, List.map_append, List.map_cons, List.filter_append, List.filter_cons_of_neg hb,
        List.map_append, List.map_cons, List.filter_append, List.filter_cons_of_neg (by simp [ha])]

end Raising

/-- The laws of the board, for every list of decisions told apart by symbol and timeframe. -/
theorem board_laws (items : List RankItem) (h : Distinct items) : BoardLaws items where
  partition := buckets_perm items
  total := List.length_map _
  topLong r := by
    rw [← isTopLong_iff]
    exact mem_bucketOf
  topShort r := by
    rw [← isTopShort_iff]
    exact mem_bucketOf
  blocked r := by
    rw [← beq_iff_eq]
    exact mem_bucketOf
  waiting r := by
    rw [← beq_iff_eq]
    exact mem_bucketOf
  sorted bucket hbucket := by
    simp only [buckets, List.mem_cons, List.not_mem_nil, or_false] at hbucket
    rcases hbucket with rfl | rfl | rfl | rfl | rfl <;> exact h.sorted _
  order _ hperm := h.board_eq hperm
  raised before a after b heq hraised bucket hbucket := by
    subst heq
    obtain ⟨-, hstatus, hdirection⟩ := hraised.toRanked_eq
    simp only [buckets, List.mem_cons, List.not_mem_nil, or_false] at hbucket
    rcases hbucket with rfl | rfl | rfl | rfl | rfl
    · exact position_le h hraised (by rw [isTopLong, isTop, hstatus, hdirection]; rfl)
    · exact position_le h hraised (by rw [isTopShort, isTop, hstatus, hdirection]; rfl)
    · exact position_le h hraised (by rw [isWatched, isTop, hstatus, hdirection]; rfl)
    · exact position_le h hraised (by rw [isBlocked, hstatus]; rfl)
    · exact position_le h hraised (by rw [isWaiting, hstatus]; rfl)

/-- A long decision that waits for nothing, with the given confidence. -/
def longDecision (symbol : String) (confidence : JsNumber) : Decision where
  signalId := symbol
  symbol := symbol
  timeframe := .h1
  direction := .long
  bias := .long
  confidence := confidence
  createdAt := ⟨"1970-01-01T00:00:00.000Z", .fin 0⟩
  signalAgeSeconds := .fin 60
  featureAgeSeconds := some (.fin 60)
  currentPrice := unavailable
  entryPrice := unavailable
  stopLoss := unavailable
  takeProfit1 := unavailable
  takeProfit2 := unavailable
  takeProfit3 := unavailable
  riskRewardRatio := measure 2 .real
  stopDistancePct := unavailable
  positionSize := unavailable
  positionNotional := unavailable
  capitalRiskPercent := unavailable
  assumedEquity := .fin 100000
  expectedHoldingTime := ⟨none, none, .unavailable⟩
  trendStrength := unavailable
  momentumScore := unavailable
  volatilityScore := unavailable
  liquidityScore := measure 80 .real
  marketRegime := ⟨none, .unavailable⟩
  executionStatus := .ready
  riskStatus := ⟨.approved, "", true⟩
  controlStatus := .allowed
  overallStatus := .actionable
  featureHash := ""
  datasetHash := ""
  strategyVersionId := ""
  provenanceNotes := []

def strongAndWeak (confidence : JsNumber) : List RankItem :=
  [⟨longDecision "BTC-USDT" confidence, .fin 1⟩, ⟨longDecision "ETH-USDT" (.fin (1 / 2)), .fin 1⟩]

theorem board_laws_strongAndWeak : BoardLaws (strongAndWeak (.fin (9 / 10))) :=
  board_laws _ (by unfold Distinct; decide)

/-- A confidence raised from nine tenths to infinity puts the decision behind the other. -/
theorem infinite_confidence_moves_down :
    JsNumber.lt (.fin (9 / 10)) .posInf = true ∧
      position (rankOpportunities (strongAndWeak (.fin (9 / 10)))).topLong ("BTC-USDT", .h1) = 0 ∧
        position (rankOpportunities (strongAndWeak .posInf)).topLong ("BTC-USDT", .h1) = 1 := by
  decide +kernel

end NexusQuant.TradingDecision
