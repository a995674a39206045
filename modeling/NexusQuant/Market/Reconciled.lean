import NexusQuant.Market.Recovery

/-!
# The two ledgers agree by construction

The adapter keeps the broker's positions and a mirror of the portfolio side by side.  `Mirrored` is
what every call keeps between them: a mirrored position has the notional text of the broker's
position, and its side unless that is flat.  The texts have two decimals, so the notionals differ by
half a cent, and by no more than a cent once the difference is a double.  The reconciliation at the
default tolerance of one cent only fails for a notional that overflows, which is written as zero.
-/

namespace NexusQuant.Market

open Execution Rounding Run

/-! ## The invariant -/

section Mirrored

variable [A : Arithmetic]

/-- Every mirrored position mirrors the broker's position of its symbol, which is flat when there is
none, and every broker position is mirrored. -/
structure Mirrored (s : AdapterState) : Prop where
  wellFormed : s.marketState.WellFormed
  mirrors : ∀ symbol q, s.portfolioMirror.positions.get? symbol = some q →
    Mirrors symbol (s.marketState.position symbol) q
  covered : ∀ symbol p, s.marketState.positions.get? symbol = some p →
    ∃ q, s.portfolioMirror.positions.get? symbol = some q

theorem mirrored_initial (cfg : AdapterConfig) : Mirrored (initialAdapterState cfg) where
  wellFormed := wellFormed_emptyMarketState _
  mirrors := by
    intro symbol q hq
    cases hq
  covered := by
    intro symbol p hp
    cases hp

omit A in
theorem position_of_get? {state : MarketState} {symbol : String} {p : Position}
    (h : state.positions.get? symbol = some p) : state.position symbol = p := by
  rw [MarketState.position, h]
  rfl

/-- Recording a result that reports the position of its symbol in a market that agrees with the old
one on every other symbol. -/
theorem Mirrored.record {s : AdapterState} (h : Mirrored s) {market : MarketState}
    {result : ExecutionResult} {symbol : String} (hwell : market.WellFormed)
    (hothers : ∀ other, other ≠ symbol →
      market.positions.get? other = s.marketState.positions.get? other)
    (hstatus : result.status = .filled) (hsymbol : result.symbol = symbol)
    (hmirrors : Mirrors symbol (market.position symbol) result.position)
    (journal : List MarketJournalRecord) :
    Mirrored ⟨market, applyResult s.portfolioMirror result, journal⟩ where
  wellFormed := hwell
  mirrors := by
    -- The recorded symbol is mirrored by assumption; every other one in both ledgers as before.
    intro other q hq
    rw [applyResult_positions hstatus, hsymbol] at hq
    by_cases hother : other = symbol
    · rw [hother, Dict.get?_set_self] at hq
      rw [hother, ← Option.some.inj hq]
      exact hmirrors
    · rw [Dict.get?_set_of_ne hother] at hq
      have hkept : market.position other = s.marketState.position other := by
        rw [MarketState.position, MarketState.position, hothers other hother]
      show Mirrors other (market.position other) q
      rw [hkept]
      exact h.mirrors other q hq
  covered := by
    intro other p hp
    rw [applyResult_positions hstatus, hsymbol]
    by_cases hother : other = symbol
    · exact ⟨_, by rw [hother, Dict.get?_set_self]⟩
    · rw [Dict.get?_set_of_ne hother]
      exact h.covered other p ((hothers other hother).symm.trans hp)

/-- The candidates a commit prepares, before they are reconciled. -/
theorem Mirrored.candidate {cfg : AdapterConfig} {s : AdapterState} (h : Mirrored s)
    {intent : ExecutionIntent} {fills : List Fill} {p : Position}
    (hown : ∀ f ∈ fills, f.symbol = intent.symbol)
    (hp : (applyFills s.marketState fills).positions.get? intent.symbol = some p)
    (detail : String) (journal : List MarketJournalRecord) :
    Mirrored ⟨applyFills s.marketState fills,
      applyResult s.portfolioMirror (filledResult cfg intent p detail), journal⟩ := by
  have hmirrors : Mirrors intent.symbol ((applyFills s.marketState fills).position intent.symbol)
      (filledResult cfg intent p detail).position := by
    rw [position_of_get? hp]
    exact filledResult_mirrors cfg intent p detail
  exact h.record (h.wellFormed.applyFills fills)
    (fun other hother => applyFills_get?_of_ne hother hown s.marketState) rfl rfl hmirrors journal

theorem Mirrored.step {cfg : AdapterConfig} {s : AdapterState} (h : Mirrored s) {call : Call}
    (hown : FillsOwnSymbol call.1) : Mirrored (stepCall cfg s call) := by
  rcases stepCall_cases cfg s call with heq | ⟨result, hattempt, heq⟩ | ⟨c, hattempt, heq⟩
  · rw [heq]
    exact h
  · -- already at the target: the mirror takes over the position as it is
    rw [heq]
    obtain ⟨quote, -, ⟨-, hresult⟩ | ⟨-, c, -, hcommit⟩⟩ := attempt_ok hattempt
    · cases hresult
      exact h.record h.wellFormed (fun other _ => rfl) rfl rfl
        (filledResult_mirrors cfg call.2 _ _) s.journal
    · cases hcommit
  · rw [heq]
    have hcommits := commits_of_attempt hown hattempt
    obtain ⟨detail, hresult⟩ := hcommits.result
    have hposition := hcommits.position
    rw [hcommits.candidate] at hposition
    rw [Commit.state, hcommits.mirror, hresult, hcommits.candidate]
    exact h.candidate hcommits.own hposition detail _

end Mirrored

/-! ## Mirrored states reconcile -/

section Notionals

variable [A : Arithmetic]

/-- The notional the reconciliation reads on the broker side. -/
def AdapterState.brokerNotional (s : AdapterState) (symbol : String) : ℚ :=
  ((s.marketState.positions.get? symbol).map positionNotional).getD 0

/-- The notional the reconciliation reads on the portfolio side. -/
def AdapterState.mirrorNotional (s : AdapterState) (symbol : String) : ℚ :=
  ((s.portfolioMirror.positions.get? symbol).map fun p => parseDecimal p.notional).getD 0

/-- The gap the reconciliation compares with its tolerance. -/
def AdapterState.notionalGap (s : AdapterState) (symbol : String) : ℚ :=
  |A.rounded (s.brokerNotional symbol - s.mirrorNotional symbol)|

/-- The tolerance covers what a notional loses when it is written to the cent. -/
def CoversCents (tolerance : ℚ) : Prop :=
  ∀ x, A.rounded x = x → A.finite x → |A.rounded (x - A.rounded (roundTo notionalDp x))| ≤ tolerance

end Notionals

/-- With nothing rounded half a cent is enough. -/
theorem coversCents_exact {tolerance : ℚ} (h : 1 / 200 ≤ tolerance) : CoversCents tolerance := by
  intro x _ _
  show |x - roundTo notionalDp x| ≤ tolerance
  rw [abs_sub_comm]
  calc |roundTo notionalDp x - x| ≤ 1 / 2 / 10 ^ notionalDp := abs_roundTo_sub_le notionalDp x
    _ = 1 / 200 := by norm_num [notionalDp]
    _ ≤ tolerance := h

section Reconcile

variable [A : Arithmetic] [A.Lawful]

/-- A quantity that is not zero is more than the threshold of the flat positions: it is a unit of the
last decimal place at least, and a power of two lies between the two. -/
theorem qtyEpsilon_lt_of_ne_zero {q : String} (hcanonical : isCanonicalDecimalString q qtyDp)
    (hne : parseDecimal q ≠ 0) : qtyEpsilon < |parseDecimal q| := by
  have hfinite : parseDecimal q = A.rounded (parseDecimal (A := .exact) q) := by
    rw [parseDecimal_eq] at hne ⊢
    unfold Arithmetic.finiteOrZero at hne ⊢
    cases h : A.finite (A.rounded (parseDecimal (A := .exact) q)) with
    | true => rfl
    | false =>
        rw [h] at hne
        exact absurd rfl hne
  rw [hfinite] at hne ⊢
  have hne' : parseDecimal (A := .exact) q ≠ 0 := by
    intro hzero
    rw [hzero, Arithmetic.rounded_zero] at hne
    exact hne rfl
  have hunit : 2 ^ (-28 : ℤ) ≤ |parseDecimal (A := .exact) q| := by
    by_contra hsmall
    apply hne' (eq_zero_of_abs_lt (parseDecimal_mem_grid hcanonical) _)
    apply (not_le.mp hsmall).trans
    norm_num [qtyDp]
  rw [← Arithmetic.rounded_abs]
  calc qtyEpsilon ≤ A.rounded (2 ^ (-29 : ℤ)) := Arithmetic.Lawful.mono (by norm_num)
    _ = 2 ^ (-29 : ℤ) := Arithmetic.Lawful.two_zpow (by norm_num)
    _ < 2 ^ (-28 : ℤ) := by norm_num
    _ = A.rounded (2 ^ (-28 : ℤ)) := (Arithmetic.Lawful.two_zpow (by norm_num)).symm
    _ ≤ A.rounded |parseDecimal (A := .exact) q| := Arithmetic.Lawful.mono hunit

/-- The default tolerance is enough in every arithmetic: the cent that is read is no further from
the one that was written than the notional is. -/
theorem coversCents_of_le {tolerance : ℚ} (h : defaultReconciliationTolerance ≤ tolerance) :
    CoversCents tolerance := by
  intro x hx _
  have hcent : |roundTo notionalDp x - x| ≤ 1 / 200 := by
    apply (abs_roundTo_sub_le notionalDp x).trans
    norm_num [notionalDp]
  have hread := Arithmetic.Lawful.nearest (A := A) (x := roundTo notionalDp x) hx
  rw [abs_sub_comm x] at hread
  have hapart := abs_sub_le (A.rounded (roundTo notionalDp x)) (roundTo notionalDp x) x
  rw [← Arithmetic.rounded_abs, abs_sub_comm]
  exact (Arithmetic.Lawful.mono (by linarith)).trans h

theorem CoversCents.nonneg {tolerance : ℚ} (h : CoversCents tolerance) : 0 ≤ tolerance :=
  (abs_nonneg _).trans (h 0 Arithmetic.rounded_zero Arithmetic.Lawful.finite_zero)

theorem parseDecimal_flatPosition (symbol : String) :
    parseDecimal (flatPosition symbol).netQty = 0 := by
  rw [flatPosition, ← quantizeQty_zero (A := A), quantizeQty,
    parseDecimal_quantize_rounded (by decide) Arithmetic.rounded_zero]
  simp

theorem positionNotional_flatPosition (symbol : String) :
    positionNotional (flatPosition symbol) = 0 := by
  rw [positionNotional, parseDecimal_flatPosition, abs_zero, zero_mul, Arithmetic.rounded_zero]

theorem rounded_positionNotional (p : Position) :
    A.rounded (positionNotional p) = positionNotional p := Arithmetic.Lawful.idem _

theorem AdapterState.brokerNotional_eq (s : AdapterState) (symbol : String) :
    s.brokerNotional symbol = positionNotional (s.marketState.position symbol) := by
  unfold AdapterState.brokerNotional MarketState.position
  cases s.marketState.positions.get? symbol with
  | none => exact (positionNotional_flatPosition symbol).symm
  | some p => rfl

/-- The mirror holds the broker's notional to the nearest cent. -/
theorem Mirrored.mirrorNotional_eq {s : AdapterState} (h : Mirrored s) (symbol : String) :
    s.mirrorNotional symbol =
      A.rounded (roundTo notionalDp (A.finiteOrZero (s.brokerNotional symbol))) := by
  rw [s.brokerNotional_eq symbol]
  unfold AdapterState.mirrorNotional
  cases hq : s.portfolioMirror.positions.get? symbol with
  | none =>
      -- What the mirror lacks the broker lacks too, so both read zero.
      have hnone : s.marketState.positions.get? symbol = none := by
        cases hp : s.marketState.positions.get? symbol with
        | none => rfl
        | some p =>
            obtain ⟨q, hq'⟩ := h.covered symbol p hp
            rw [hq] at hq'
            cases hq'
      rw [MarketState.position, hnone, Option.getD_none, positionNotional_flatPosition]
      simp
  | some q =>
      show parseDecimal q.notional = _
      rw [(h.mirrors symbol q hq).notional, positionNotionalString, quantizeNotional,
        parseDecimal_quantize_rounded (by decide) (rounded_positionNotional _)]

/-- A notional that does not overflow is within the tolerance of its mirror. -/
theorem Mirrored.gap_le {s : AdapterState} (h : Mirrored s) {tolerance : ℚ}
    (htolerance : CoversCents tolerance) {symbol : String}
    (hfits : A.finite (s.brokerNotional symbol)) : s.notionalGap symbol ≤ tolerance := by
  unfold AdapterState.notionalGap
  rw [h.mirrorNotional_eq symbol, Arithmetic.finiteOrZero_of_finite hfits]
  apply htolerance _ _ hfits
  rw [s.brokerNotional_eq]
  exact rounded_positionNotional _

/-- One that overflows is written as zero, so the gap is the overflow itself. -/
theorem Mirrored.finite_of_gap_le {s : AdapterState} (h : Mirrored s) {tolerance : ℚ}
    (hfinite : A.finite tolerance) {symbol : String} (hgap : s.notionalGap symbol ≤ tolerance) :
    A.finite (s.brokerNotional symbol) := by
  by_contra hinfinite
  have hzero : A.finiteOrZero (s.brokerNotional symbol) = 0 := by
    rw [Arithmetic.finiteOrZero, Bool.eq_false_of_not_eq_true hinfinite]
    rfl
  have hself : A.rounded (s.brokerNotional symbol) = s.brokerNotional symbol := by
    rw [s.brokerNotional_eq]
    exact rounded_positionNotional _
  unfold AdapterState.notionalGap at hgap
  rw [h.mirrorNotional_eq symbol, hzero, roundTo_zero, Arithmetic.rounded_zero, sub_zero, hself] at hgap
  exact hinfinite (Arithmetic.Lawful.finite_mono (hgap.trans (le_abs_self _)) hfinite)

/-- A position with a notional has a side: its quantity is a whole number of units of the last
decimal place, ten times the threshold under which a position counts as flat. -/
theorem positionSide_ne_flat {p : Position} (hcanonical : isCanonicalDecimalString p.netQty qtyDp)
    (hpos : 0 < positionNotional p) : positionSide p ≠ .flat := by
  have hne : parseDecimal p.netQty ≠ 0 := by
    intro hzero
    rw [positionNotional, hzero, abs_zero, zero_mul, Arithmetic.rounded_zero] at hpos
    exact lt_irrefl _ hpos
  have hlarge := qtyEpsilon_lt_of_ne_zero hcanonical hne
  unfold positionSide
  dsimp only
  rcases lt_or_gt_of_ne hne with hneg | hpos'
  · rw [abs_of_neg hneg] at hlarge
    have heps : (0 : ℚ) ≤ qtyEpsilon := Arithmetic.rounded_nonneg (by norm_num)
    rw [if_neg (by linarith), if_pos (by linarith)]
    exact nofun
  · rw [abs_of_pos hpos'] at hlarge
    rw [if_pos hlarge]
    exact nofun

omit [A.Lawful] in
theorem Mirrors.side_eq {symbol : String} {p : Position} {q : PortfolioPosition}
    (h : Mirrors symbol p q) (hside : positionSide p ≠ .flat) :
    positionSide p = .ofExecution q.side := by
  cases hp : positionSide p with
  | long => rw [h.long hp]; rfl
  | short => rw [h.short hp]; rfl
  | flat => exact absurd hp hside

/-- A symbol is reconciled when its gap is within the tolerance: the sides agree by themselves. -/
theorem Mirrored.reconcileSymbol_eq_none_iff {s : AdapterState} (h : Mirrored s) {tolerance : ℚ}
    (htolerance : 0 ≤ tolerance) (symbol : String) :
    reconcileSymbol tolerance symbol (s.marketState.positions.get? symbol)
      (s.portfolioMirror.positions.get? symbol) = none ↔ s.notionalGap symbol ≤ tolerance := by
  unfold reconcileSymbol
  dsimp only
  constructor
  · intro hnone
    by_contra hlarge
    rw [if_pos (.inl (not_le.mp hlarge))] at hnone
    cases hnone
  intro hgap
  rw [if_neg]
  rintro (hlarge | ⟨hb, hp, hsides⟩)
  · exact absurd hlarge (not_lt.mpr hgap)
  -- Above the tolerance both sides hold the symbol, and the broker's position has a side.
  rw [if_neg hb, if_neg hp] at hsides
  cases hbroker : s.marketState.positions.get? symbol with
  | none =>
      rw [hbroker] at hb
      exact hb htolerance
  | some p =>
      obtain ⟨q, hq⟩ := h.covered symbol p hbroker
      have hmirrors := h.mirrors symbol q hq
      rw [position_of_get? hbroker] at hmirrors
      rw [hbroker] at hb
      have hpos : 0 < positionNotional p := htolerance.trans_lt (not_le.mp hb)
      have hside := positionSide_ne_flat (h.wellFormed.positions symbol p hbroker).1.netQty hpos
      rw [hbroker, hq] at hsides
      exact hsides (hmirrors.side_eq hside)

/-- A mirrored state reconciles when no notional overflows. -/
theorem Mirrored.reconcile_isOk {s : AdapterState} (h : Mirrored s) {tolerance : ℚ}
    (htolerance : CoversCents tolerance) (hfits : ∀ symbol, A.finite (s.brokerNotional symbol)) :
    (reconcile s.marketState s.portfolioMirror tolerance).isOk :=
  isOk_reconcile.mpr fun symbol _ =>
    (h.reconcileSymbol_eq_none_iff htolerance.nonneg symbol).mpr (h.gap_le htolerance (hfits symbol))

/-- And only then. -/
theorem Mirrored.finite_of_reconcile {s : AdapterState} (h : Mirrored s) {tolerance : ℚ}
    (htolerance : 0 ≤ tolerance) (hfinite : A.finite tolerance)
    (hok : (reconcile s.marketState s.portfolioMirror tolerance).isOk) (symbol : String) :
    A.finite (s.brokerNotional symbol) := by
  cases hget : s.marketState.positions.get? symbol with
  | none =>
      -- A symbol without a position is worth nothing.
      rw [AdapterState.brokerNotional, hget]
      exact Arithmetic.Lawful.finite_zero
  | some p =>
      have hnone := isOk_reconcile.mp hok symbol (.inl (Dict.mem_keys.mpr ⟨p, hget⟩))
      exact h.finite_of_gap_le hfinite ((h.reconcileSymbol_eq_none_iff htolerance symbol).mp hnone)

theorem finite_defaultReconciliationTolerance : A.finite defaultReconciliationTolerance :=
  Arithmetic.Lawful.finite_near Arithmetic.rounded_zero Arithmetic.Lawful.finite_zero (by norm_num)

end Reconcile

/-! ## No reconciliation failure -/

/-- A mirrored state none of whose notionals overflows. -/
structure Reconciled [A : Arithmetic] (s : AdapterState) : Prop extends Mirrored s where
  fits : ∀ symbol, A.finite (s.brokerNotional symbol)

/-- The broker's stream for the call is accepted, and leads to a position whose notional overflows. -/
def Overflows [A : Arithmetic] (cfg : AdapterConfig) (w : World) (s : AdapterState)
    (intent : ExecutionIntent) : Prop :=
  ∃ price events snapshot, w.place (orderFor cfg s intent price) = .ok events ∧
    reduceOrder (orderFor cfg s intent price) events = .ok snapshot ∧
    ¬A.finite (positionNotional ((applyFills s.marketState snapshot.fills).position intent.symbol))

/-- The detail a call is rejected with when the reconciliation fails. -/
def ReconciliationDetail (d : String) : Prop := ∃ detail, d = "reconciliation failed: " ++ detail

/-- No other detail starts with the same letter. -/
theorem not_reconciliationDetail {d : String} {c : Char} (hd : d.toList.head? = some c)
    (hc : c ≠ 'r') : ¬ReconciliationDetail d := by
  rintro ⟨detail, rfl⟩
  rw [String.toList_append] at hd
  exact hc (Option.some.inj hd).symm

section NoFailure

variable [A : Arithmetic] {cfg : AdapterConfig} {w : World} {s : AdapterState}
  {intent : ExecutionIntent}

theorem referenceQuote_detail {d : String} (h : referenceQuote cfg w intent = .error (.rejected d)) :
    ¬ReconciliationDetail d := by
  unfold referenceQuote at h
  split at h
  · cases h
    exact not_reconciliationDetail (by rw [String.toList_append]; rfl) (by decide : 'm' ≠ 'r')
  · cases h
    exact not_reconciliationDetail (by rfl) (by decide : 'n' ≠ 'r')
  · split at h
    · cases h
      exact not_reconciliationDetail (by rw [String.toList_append]; rfl) (by decide : 'i' ≠ 'r')
    · split at h
      · cases h
        exact not_reconciliationDetail (by rw [String.toList_append]; rfl) (by decide : 'm' ≠ 'r')
      · cases h

variable [A.Lawful]

/-- From a reconciled state a stream with a fill reaches its commit when the notional it leads to does
not overflow. -/
theorem Reconciled.settle_eq_ok (h : Reconciled s) (htolerance : CoversCents cfg.tolerance)
    {snapshot : OrderSnapshot} (hown : ∀ f ∈ snapshot.fills, f.symbol = intent.symbol)
    (hne : snapshot.fills ≠ [])
    (hfits : A.finite (positionNotional
      ((applyFills s.marketState snapshot.fills).position intent.symbol)))
    (events : List OrderEvent) (published : List MarketStageEvent) :
    ∃ c, settle cfg w s intent events snapshot published = .ok c := by
  obtain ⟨p, hp⟩ := applyFills_get?_self hne hown s.marketState
  unfold settle
  rw [if_neg hne]
  dsimp only
  rw [hp, Option.getD_some]
  -- The candidates are mirrored, so the check that stands before the commit passes.
  have hcandidate := @Mirrored.candidate _ cfg _ h.toMirrored _ _ _ hown hp
    (snapshot.state.text ++ " via " ++ cfg.brokerId ++ " (" ++ toString snapshot.fills.length ++
      " fill(s), avg " ++ snapshot.avgFillPrice ++ ")") []
  have hok := hcandidate.reconcile_isOk htolerance (by
    intro symbol
    rw [AdapterState.brokerNotional_eq]
    by_cases hsymbol : symbol = intent.symbol
    · rw [hsymbol]
      exact hfits
    · have hkept := applyFills_get?_of_ne hsymbol hown s.marketState
      have hfits' := h.fits symbol
      rw [AdapterState.brokerNotional_eq, MarketState.position, ← hkept] at hfits'
      exact hfits')
  split
  · exact ⟨_, rfl⟩
  · rename_i hfailed
    dsimp only at hok
    rw [hfailed] at hok
    cases hok

/-- And only then: an overflow is a gap that no tolerance admits. -/
theorem Mirrored.finite_of_settle (h : Mirrored s) (htolerance : 0 ≤ cfg.tolerance)
    (hfinite : A.finite cfg.tolerance) {snapshot : OrderSnapshot}
    (hown : ∀ f ∈ snapshot.fills, f.symbol = intent.symbol) {events : List OrderEvent}
    {published : List MarketStageEvent} {c : Commit}
    (hsettle : settle cfg w s intent events snapshot published = .ok c) :
    A.finite (positionNotional
      ((applyFills s.marketState snapshot.fills).position intent.symbol)) := by
  obtain ⟨hne, -, hcandidate, hposition, ⟨detail, hresult⟩, hmirror, hok⟩ := settle_ok hsettle
  obtain ⟨p, hp⟩ := applyFills_get?_self hne hown s.marketState
  rw [← hcandidate] at hp
  rw [hp, Option.getD_some] at hposition
  rw [hmirror, hresult, hposition, hcandidate] at hok
  rw [hcandidate] at hp
  have hmirrored := @Mirrored.candidate _ cfg _ h _ _ _ hown hp detail []
  have hfits := hmirrored.finite_of_reconcile htolerance hfinite hok intent.symbol
  rw [AdapterState.brokerNotional_eq] at hfits
  exact hfits

theorem settle_detail (h : Reconciled s) (htolerance : CoversCents cfg.tolerance)
    {snapshot : OrderSnapshot} (hown : ∀ f ∈ snapshot.fills, f.symbol = intent.symbol)
    {events : List OrderEvent} {published : List MarketStageEvent} {d : String}
    (hsettle : settle cfg w s intent events snapshot published = .error (.rejected d))
    (hd : ReconciliationDetail d) :
    ¬A.finite (positionNotional
      ((applyFills s.marketState snapshot.fills).position intent.symbol)) := by
  intro hfits
  by_cases hne : snapshot.fills = []
  · rw [settle, if_pos hne] at hsettle
    cases hsettle
    exact not_reconciliationDetail (by simp only [String.toList_append]; rfl)
      (by decide : 'o' ≠ 'r') hd
  · obtain ⟨c, hc⟩ := h.settle_eq_ok htolerance hown hne hfits events published
    rw [hc] at hsettle
    cases hsettle

theorem trade_detail (h : Reconciled s) (htolerance : CoversCents cfg.tolerance)
    (hown : FillsOwnSymbol w) {quote : Quote} {d : String}
    (htrade : trade cfg w s intent quote = .error (.rejected d)) (hd : ReconciliationDetail d) :
    Overflows cfg w s intent := by
  unfold trade at htrade
  dsimp only at htrade
  -- Each exit of the source has its own first letter; the one left is that of the reconciliation.
  split at htrade
  · cases htrade
    exact absurd hd
      (not_reconciliationDetail (by rw [String.toList_append]; rfl) (by decide : 'b' ≠ 'r'))
  · rename_i events hplace
    split at htrade
    · cases htrade
      exact absurd hd
        (not_reconciliationDetail (by rw [String.toList_append]; rfl) (by decide : 'o' ≠ 'r'))
    · rename_i snapshot hreduce
      split at htrade
      · cases htrade
      · have hsymbol := fills_symbol hown hplace hreduce
        exact ⟨_, _, _, hplace, hreduce, settle_detail h htolerance hsymbol htrade hd⟩

theorem attempt_detail (h : Reconciled s) (htolerance : CoversCents cfg.tolerance)
    (hown : FillsOwnSymbol w) {d : String} (hattempt : attempt cfg w s intent = .error (.rejected d))
    (hd : ReconciliationDetail d) : Overflows cfg w s intent := by
  unfold attempt at hattempt
  cases hquote : referenceQuote cfg w intent with
  | error exit =>
      rw [hquote] at hattempt
      cases hattempt
      exact absurd hd (referenceQuote_detail hquote)
  | ok quote =>
      rw [hquote] at hattempt
      change (if isNoOp s intent (parseDecimal quote.price) then _ else _) = _ at hattempt
      split at hattempt
      · cases hattempt
      · cases htrade : trade cfg w s intent quote with
        | error exit =>
            rw [htrade] at hattempt
            cases hattempt
            exact trade_detail h htolerance hown htrade hd
        | ok c =>
            rw [htrade] at hattempt
            cases hattempt

/-- From a reconciled state a call is rejected for its reconciliation only when its notional
overflows. -/
theorem Reconciled.overflows_of_reject (h : Reconciled s) (htolerance : CoversCents cfg.tolerance)
    (hown : FillsOwnSymbol w) {detail : String} (hexecute : (execute cfg w s intent).1 =
      .returned (reject cfg intent ("reconciliation failed: " ++ detail))) :
    Overflows cfg w s intent := by
  unfold execute at hexecute
  -- Along the exits of a call: rejected, thrown, already at the target, committed.
  split at hexecute
  · rename_i d hattempt
    have hd : d = "reconciliation failed: " ++ detail :=
      congrArg ExecutionResult.detail (Outcome.returned.inj hexecute)
    exact attempt_detail h htolerance hown hattempt ⟨detail, hd⟩
  · cases hexecute
  · rename_i result hattempt
    have hstatus := attempt_noOp_status hattempt
    rw [Outcome.returned.inj hexecute] at hstatus
    cases hstatus
  · rename_i c hattempt
    split at hexecute
    · rename_i e _
      have hd : "durable journal write failed: " ++ e = "reconciliation failed: " ++ detail :=
        congrArg ExecutionResult.detail (Outcome.returned.inj hexecute)
      exact absurd ⟨detail, hd⟩
        (not_reconciliationDetail (by rw [String.toList_append]; rfl) (by decide : 'd' ≠ 'r'))
    · dsimp only at hexecute
      split at hexecute
      · cases hexecute
      · have hstatus := attempt_commit_status hattempt
        rw [Outcome.returned.inj hexecute] at hstatus
        cases hstatus

theorem reconciled_initial (cfg : AdapterConfig) : Reconciled (initialAdapterState cfg) where
  toMirrored := mirrored_initial cfg
  fits _ := Arithmetic.Lawful.finite_zero

/-- What a call commits was reconciled before, so nothing in it overflows. -/
theorem Reconciled.step (h : Reconciled s) (htolerance : 0 ≤ cfg.tolerance)
    (hfinite : A.finite cfg.tolerance) {call : Call} (hown : FillsOwnSymbol call.1) :
    Reconciled (stepCall cfg s call) := by
  have hmirrored : Mirrored (stepCall cfg s call) := h.toMirrored.step hown
  refine ⟨hmirrored, ?_⟩
  rcases stepCall_cases cfg s call with heq | ⟨result, -, heq⟩ | ⟨c, hattempt, heq⟩
  · rw [heq]
    exact h.fits
  · rw [heq]
    exact h.fits
  · rw [heq] at hmirrored ⊢
    exact hmirrored.finite_of_reconcile htolerance hfinite (commits_of_attempt hown hattempt).reconciled

end NoFailure

/-! ## Every run -/

theorem reconciled_of_run [A : Arithmetic] [A.Lawful] {cfg : AdapterConfig}
    (htolerance : cfg.tolerance = defaultReconciliationTolerance) {calls : List Call}
    (hcalls : ∀ call ∈ calls, FillsOwnSymbol call.1) {s : AdapterState}
    (hs : s = run (stepCall cfg) (initialAdapterState cfg) calls) : Reconciled s := by
  have hmeets : RunMeets (stepCall cfg) (fun _ call => FillsOwnSymbol call.1)
      (initialAdapterState cfg) calls :=
    runMeets_of_forall fun call hcall _ => hcalls call hcall
  rw [hs]
  apply run_invariant _ (reconciled_initial cfg) hmeets
  intro s call h hown
  apply h.step _ _ hown
  · rw [htolerance]
    exact Arithmetic.rounded_nonneg (by norm_num)
  · rw [htolerance]
    exact finite_defaultReconciliationTolerance

/-- The text of a mirrored notional is within half a cent of the broker's. -/
theorem Reconciled.abs_notional_sub_le [A : Arithmetic] [A.Lawful] {s : AdapterState}
    (h : Reconciled s) {symbol : String} {q : PortfolioPosition}
    (hq : s.portfolioMirror.positions.get? symbol = some q) :
    |parseDecimal (A := .exact) q.notional - s.brokerNotional symbol| ≤ 1 / 200 := by
  have hfits := h.fits symbol
  rw [AdapterState.brokerNotional_eq] at hfits ⊢
  rw [(h.mirrors symbol q hq).notional, positionNotionalString, quantizeNotional,
    parseDecimal_exact_quantize (by decide), Arithmetic.finiteOrZero_of_finite hfits]
  apply (abs_roundTo_sub_le notionalDp _).trans
  norm_num [notionalDp]

/-- A venue that fills every order at one price. -/
def pricedWorld (quote price : String) : World where
  quote symbol := .ok (some ⟨symbol, "2026-01-01T00:00:00.000Z", quote⟩)
  place order := .ok [baseEvent order 0 .requested, baseEvent order 1 .submitted,
    baseEvent order 2 .accepted, baseEvent order 3 (.filled ⟨order.qty, price, order.qty⟩)]
  append _ := none
  subscriber _ _ := none

theorem fillsOwnSymbol_pricedWorld (quote price : String) : FillsOwnSymbol (pricedWorld quote price) := by
  intro order events hplace e he f hf
  cases hplace
  simp only [List.mem_cons, List.not_mem_nil, or_false] at he
  rcases he with rfl | rfl | rfl | rfl <;> cases hf
  rfl

end NexusQuant.Market
