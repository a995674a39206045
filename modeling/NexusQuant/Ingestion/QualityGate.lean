import NexusQuant.Ingestion.GapCheck
import NexusQuant.Lib.Fallible

/-!
# What a passed report guarantees

The structural checks deduct their whole weight, so that a score of ninety leaves room for a few gaps
only.  The checks of the statistical service enter the same sum with whatever deduction they carry:
`fetchStageBChecks` wants a finite number, and a negative one on a failed check is points won.  The sum
is one of doubles, so what is won depends on the order too: a large deduction swallows those before it,
and the same amount given back leaves nothing of them.
-/

namespace NexusQuant.Ingestion

/-! ## What each check finds -/

/-- A row as the schema wants it, in the numbers its texts are read as. -/
structure RowConforms (c : NormalizedCandle) (o : Ohlcv ℚ) : Prop where
  finite : c.ohlcv.map Binary64.toNumber = o.map .fin
  prices : 0 ≤ o.open ∧ 0 ≤ o.high ∧ 0 ≤ o.low ∧ 0 ≤ o.close
  volume : 0 ≤ o.volume
  range : o.low ≤ o.high
  «open» : o.low ≤ o.open ∧ o.open ≤ o.high
  close : o.low ≤ o.close ∧ o.close ≤ o.high

theorem toNumber_of_isFiniteDecimalString {text : String} (h : isFiniteDecimalString text) :
    ∃ q, Binary64.toNumber text = .fin q :=
  JsNumber.eq_fin_of_isFinite (Bool.and_eq_true _ _ |>.mp h).2

theorem ite_cons_eq_nil {b : Bool} {reason : String} :
    (if b = true then [reason] else []) = [] ↔ b = false := by
  cases b <;> simp

theorem rangeReasons_fin (o : Ohlcv ℚ) : rangeReasons (o.map .fin) = [] →
    (0 ≤ o.open ∧ 0 ≤ o.high ∧ 0 ≤ o.low ∧ 0 ≤ o.close) ∧ o.low ≤ o.high ∧
      (o.low ≤ o.open ∧ o.open ≤ o.high) ∧ (o.low ≤ o.close ∧ o.close ≤ o.high) ∧ 0 ≤ o.volume := by
  intro h
  unfold rangeReasons at h
  simp only [List.append_eq_nil_iff, ite_cons_eq_nil] at h
  simp only [Ohlcv.map, JsNumber.fin_lt, Bool.or_eq_false_iff, decide_eq_false_iff_not, not_lt] at h
  obtain ⟨⟨⟨⟨⟨⟨⟨h₁, h₂⟩, h₃⟩, h₄⟩, h₅⟩, h₆⟩, h₇⟩, h₈⟩ := h
  exact ⟨⟨h₁, h₂, h₃, h₄⟩, h₅, h₆, h₇, h₈⟩

theorem conforms_of_rowReasons {c : NormalizedCandle} (h : rowReasons c = []) :
    ∃ o, RowConforms c o := by
  unfold rowReasons at h
  dsimp only at h
  split at h
  · rename_i hparse
    rw [List.map_eq_nil_iff, List.filter_eq_nil_iff] at hparse
    simp only [List.forall_mem_cons, Bool.not_eq_true', Bool.not_eq_false] at hparse
    obtain ⟨hopen, hhigh, hlow, hclose, hvolume, -⟩ := hparse
    obtain ⟨o, ho⟩ := toNumber_of_isFiniteDecimalString hopen
    obtain ⟨hi, hhi⟩ := toNumber_of_isFiniteDecimalString hhigh
    obtain ⟨lo, hlo⟩ := toNumber_of_isFiniteDecimalString hlow
    obtain ⟨cl, hcl⟩ := toNumber_of_isFiniteDecimalString hclose
    obtain ⟨v, hv⟩ := toNumber_of_isFiniteDecimalString hvolume
    have hmap : c.ohlcv.map Binary64.toNumber = (⟨o, hi, lo, cl, v⟩ : Ohlcv ℚ).map .fin := by
      simp only [Ohlcv.map, NormalizedCandle.ohlcv, ho, hhi, hlo, hcl, hv]
    rw [hmap] at h
    obtain ⟨hprices, hrange, hopen', hclose', hvol⟩ := rangeReasons_fin _ h
    exact ⟨_, hmap, hprices, hvol, hrange, hopen', hclose'⟩
  · rename_i hparse
    exact absurd h hparse

theorem conforms_of_schema {candles : List NormalizedCandle}
    (h : (checkSchemaConformance candles).passed) {c : NormalizedCandle} (hc : c ∈ candles) :
    ∃ o, RowConforms c o := by
  have hnone := List.filter_eq_nil_iff.mp (List.isEmpty_iff.mp h) c hc
  apply conforms_of_rowReasons
  simpa using hnone

def candleKey (c : NormalizedCandle) : Exchange × String × Timeframe × ℤ :=
  (c.exchange, c.symbol, c.timeframe, c.ts)

theorem duplicateRows_eq_nil {seen : List String} {candles : List NormalizedCandle}
    (h : duplicateRows seen candles = []) :
    (candles.map candleKeyText).Nodup ∧ ∀ c ∈ candles, candleKeyText c ∉ seen := by
  induction candles generalizing seen with
  | nil => simp
  | cons c candles ih =>
      rw [duplicateRows] at h
      split at h
      · cases h
      · rename_i hnew
        obtain ⟨hnodup, hunseen⟩ := ih h
        refine ⟨List.nodup_cons.mpr ⟨?_, hnodup⟩, List.forall_mem_cons.mpr ⟨hnew, ?_⟩⟩
        · intro hmem
          obtain ⟨d, hd, hkey⟩ := List.mem_map.mp hmem
          exact hunseen d hd (hkey ▸ List.mem_cons_self)
        · intro d hd hseen
          exact hunseen d hd (List.mem_cons_of_mem _ hseen)

/-- Rows with the same key have the same text for it. -/
theorem keys_nodup {candles : List NormalizedCandle} (h : (checkDuplicates candles).passed) :
    (candles.map candleKey).Nodup := by
  obtain ⟨hnodup, -⟩ := duplicateRows_eq_nil (List.isEmpty_iff.mp h)
  have htext : candles.map candleKeyText = (candles.map candleKey).map fun k =>
      k.1.text ++ "|" ++ k.2.1 ++ "|" ++ timeframeText k.2.2.1 ++ "|" ++ toString k.2.2.2 := by
    rw [List.map_map]
    rfl
  rw [htext] at hnodup
  exact hnodup.of_map _

theorem disordered_spec {gridMs : ℤ} {prev : Option ℤ} {ts : List ℤ}
    (h : ∀ b ∈ disordered gridMs prev ts, b.2.1 = false ∧ b.2.2 = false) :
    (∀ p ∈ prev, ∀ ms ∈ ts, p ≤ ms) ∧ ts.Pairwise (· ≤ ·) ∧ ∀ ms ∈ ts, gridMs ∣ ms := by
  induction ts generalizing prev with
  | nil => simp
  | cons ms rest ih =>
      rw [disordered] at h
      -- A row that is bad in one way would be in the list with that mark.
      have hgood : (prev.any (ms < ·) || decide (ms % gridMs ≠ 0)) = false := by
        cases hbad : (prev.any (ms < ·) || decide (ms % gridMs ≠ 0)) with
        | false => rfl
        | true =>
            rw [if_pos hbad] at h
            obtain ⟨h₁, h₂⟩ := h _ List.mem_cons_self
            dsimp only at h₁ h₂
            rw [h₁, h₂] at hbad
            cases hbad
      rw [if_neg (by rw [hgood]; decide)] at h
      obtain ⟨hnext, hsorted, hgrid⟩ := ih h
      rw [Bool.or_eq_false_iff, decide_eq_false_iff_not, not_not] at hgood
      have hfirst : ∀ p ∈ prev, p ≤ ms := by
        intro p hp
        rw [Option.mem_def.mp hp] at hgood
        simpa using hgood.1
      have hle : ∀ m ∈ rest, ms ≤ m := hnext ms rfl
      refine ⟨?_, List.pairwise_cons.mpr ⟨hle, hsorted⟩, ?_⟩
      · intro p hp
        exact List.forall_mem_cons.mpr ⟨hfirst p hp, fun m hm => (hfirst p hp).trans (hle m hm)⟩
      · exact List.forall_mem_cons.mpr ⟨Int.dvd_of_emod_eq_zero hgood.2, hgrid⟩

theorem ordered_of_monotonic {candles : List NormalizedCandle} {timeframe : Timeframe}
    (h : (checkTimestampMonotonic candles timeframe).passed) :
    (candles.map (·.ts)).Pairwise (· ≤ ·) ∧
      ∀ ms ∈ candles.map (·.ts), timeframeMs timeframe ∣ ms := by
  have hcounts := of_decide_eq_true h
  rw [List.countP_eq_zero, List.countP_eq_zero] at hcounts
  exact (disordered_spec fun b hb => ⟨Bool.eq_false_iff.mpr (hcounts.1 b hb),
    Bool.eq_false_iff.mpr (hcounts.2 b hb)⟩).2

/-- Ten points are the price of at most one slot in twenty-five; among so few slots the next larger
share is told apart after three roundings. -/
theorem gaps_of_deduction {missing expected : ℕ} (hle : missing ≤ expected)
    (hexpected : expected ≤ 2 ^ 40) (h : gapDeduction missing expected ≤ 10) :
    25 * missing ≤ expected := by
  by_contra hmany
  have hmany' : expected + 1 ≤ 25 * missing := by omega
  have hpos : 0 < missing := by omega
  have hm : (0 : ℚ) < missing := by exact_mod_cast hpos
  have he : (0 : ℚ) < expected := by exact_mod_cast hpos.trans_le hle
  set u : ℚ := 1 - 2 ^ (-53 : ℤ) with hu
  have hu0 : 0 < u := by norm_num [hu]
  -- The share is above a twenty-fifth by one part in 2 ^ 40.
  obtain ⟨ε, hε⟩ : ∃ ε : ℚ, ε = 2 ^ (-40 : ℤ) := ⟨_, rfl⟩
  have hε0 : 0 ≤ ε := hε ▸ (Binary64.two_zpow_pos _).le
  have hshare : 1 / 25 * (1 + ε) ≤ (missing : ℚ) / expected := by
    have hsmall : (expected : ℚ) * ε ≤ 1 := by
      have hbound : (expected : ℚ) ≤ 2 ^ (40 : ℤ) := by exact_mod_cast hexpected
      calc (expected : ℚ) * ε ≤ 2 ^ (40 : ℤ) * ε :=
            mul_le_mul_of_nonneg_right hbound hε0
        _ = 1 := by norm_num [hε]
    have hq : (expected : ℚ) + 1 ≤ 25 * missing := by exact_mod_cast hmany'
    rw [le_div_iff₀ he]
    calc 1 / 25 * (1 + ε) * (expected : ℚ)
        = (expected + expected * ε) / 25 := by ring
      _ ≤ missing := by linarith
  have hquotient : (missing : ℚ) / expected * u ≤ Binary64.significant (missing / expected) :=
    Binary64.mul_le_significant (div_pos hm he)
  have hpct : Binary64.significant (missing / expected) * 100 * u ≤ missingPct missing expected :=
    Binary64.mul_le_significant
      (mul_pos (Binary64.significant_pos (div_pos hm he)) (by norm_num))
  have hpoints : missingPct missing expected * (5 / 2) * u ≤
      Binary64.significant (missingPct missing expected * (5 / 2)) :=
    Binary64.mul_le_significant (mul_pos (missingPct_pos hm he) (by norm_num))
  have hover : 10 < Binary64.significant (missingPct missing expected * (5 / 2)) := by
    calc (10 : ℚ) < 1 / 25 * (1 + ε) * u * 100 * u * (5 / 2) * u := by norm_num [hu, hε]
      _ ≤ missing / expected * u * 100 * u * (5 / 2) * u := by gcongr
      _ ≤ Binary64.significant (missing / expected) * 100 * u * (5 / 2) * u := by gcongr
      _ ≤ missingPct missing expected * (5 / 2) * u := by gcongr
      _ ≤ _ := hpoints
  rw [gapDeduction, if_neg hm.ne', checkWeights, min_le_iff] at h
  rcases h with h | h
  · norm_num at h
  · have hceil : ⌈Binary64.significant (missingPct missing expected * (5 / 2))⌉ ≤ 10 := by
      exact_mod_cast h
    have hle10 := Int.ceil_le.mp hceil
    push_cast at hle10
    exact absurd hover (not_lt.mpr hle10)

/-! ## The structural checks together -/

/-- A batch without structural faults and with few gaps. -/
structure CleanBatch (scope : QualityScope) (candles : List NormalizedCandle) : Prop where
  rows : ∀ c ∈ candles, ∃ o, RowConforms c o
  keys : (candles.map candleKey).Nodup
  sorted : (candles.map (·.ts)).Pairwise (· ≤ ·)
  onGrid : ∀ c ∈ candles, timeframeMs scope.timeframe ∣ c.ts
  gaps : 25 * (missingCandles scope.timeframe scope.fromMs scope.toMs candles).length ≤
    (gridSlots scope.timeframe scope.fromMs scope.toMs).length

theorem deductFrom_append (total : JsNumber) (checks checks' : List StructuralCheck) :
    deductFrom total (checks ++ checks') = deductFrom (deductFrom total checks) checks' :=
  List.foldl_append

variable (scope : QualityScope) (candles : List NormalizedCandle)

/-- A check that fails is charged its weight. -/
theorem charge_eq {c : StructuralCheck} {weight : ℕ} (h : ¬c.passed → c.deduction = weight) :
    c.charge = (if c.passed then 0 else weight : ℕ) := by
  unfold StructuralCheck.charge
  by_cases hp : c.passed
  · rw [if_pos hp, if_pos hp, Nat.cast_zero]
  · rw [if_neg hp, if_neg hp, h hp]

theorem charge_gaps : (checkGaps candles scope.timeframe scope.fromMs scope.toMs).charge =
    gapDeduction (missingCandles scope.timeframe scope.fromMs scope.toMs candles).length
      (gridSlots scope.timeframe scope.fromMs scope.toMs).length := by
  have hpassed := checkGaps_passed scope.timeframe scope.fromMs scope.toMs candles
  rw [StructuralCheck.charge, checkGaps_deduction]
  split
  · rename_i h
    rw [hpassed.mp h, Nat.cast_zero, gapDeduction_zero]
  · rfl

/-- Four charges of a few points add up without rounding. -/
theorem deductFrom_zero {a b c d : StructuralCheck} {i j k l : ℕ} (ha : a.charge = i)
    (hb : b.charge = j) (hc : c.charge = k) (hd : d.charge = l) (hsum : i + j + k + l ≤ 100) :
    deductFrom (.fin 0) [a, b, c, d] = .fin ((i + j + k + l : ℕ) : ℚ) := by
  have hadd : ∀ {m n : ℕ}, m + n ≤ 100 →
      Binary64.add (.fin m) (.fin n) = .fin ((m + n : ℕ) : ℚ) := by
    intro m n h
    have hsmall : |(m : ℤ) + n| ≤ 2 ^ 53 := by
      rw [abs_of_nonneg (by omega)]
      omega
    exact_mod_cast Binary64.add_intCast hsmall
  have hzero : JsNumber.fin 0 = .fin ((0 : ℕ) : ℚ) := by rw [Nat.cast_zero]
  show Binary64.add (Binary64.add (Binary64.add (Binary64.add (.fin 0) (.fin a.charge))
    (.fin b.charge)) (.fin c.charge)) (.fin d.charge) = _
  rw [ha, hb, hc, hd, hzero, hadd (by omega), hadd (by omega), hadd (by omega), hadd (by omega),
    zero_add]

/-- What the four checks deduct: a few whole points, and more than ten of them unless the batch has no
structural fault and few gaps. -/
theorem totalDeduction_stageA (hslots :
    (gridSlots scope.timeframe scope.fromMs scope.toMs).length ≤ 2 ^ 40) :
    ∃ points : ℕ, totalDeduction (stageAChecks scope candles) = .fin points ∧ points ≤ 100 ∧
      (points ≤ 10 → CleanBatch scope candles) := by
  have hle := length_missingCandles_le scope.timeframe scope.fromMs scope.toMs candles
  have hschema := @charge_eq (checkSchemaConformance candles) 40 fun h => if_neg h
  have hduplicates := @charge_eq (checkDuplicates candles) 20 fun h => if_neg h
  have hmonotonic := @charge_eq (checkTimestampMonotonic candles scope.timeframe) 15 fun h =>
    if_neg fun hp => h (decide_eq_true hp)
  -- The gaps cost whole points as well.
  obtain ⟨gaps, hgaps, hgapPoints⟩ : ∃ k : ℕ, k ≤ 25 ∧
      gapDeduction (missingCandles scope.timeframe scope.fromMs scope.toMs candles).length
        (gridSlots scope.timeframe scope.fromMs scope.toMs).length = k := by
    rcases Nat.eq_zero_or_pos
      (missingCandles scope.timeframe scope.fromMs scope.toMs candles).length with hzero | hpos
    · exact ⟨0, by omega, by rw [hzero, Nat.cast_zero, gapDeduction_zero]⟩
    · obtain ⟨k, -, hk, heq⟩ := gapDeduction_pos hpos hle
      exact ⟨k, hk, heq⟩
  have hgapCharge := (charge_gaps scope candles).trans hgapPoints
  refine ⟨_, deductFrom_zero hschema hduplicates hmonotonic hgapCharge ?_, ?_, ?_⟩
  · split_ifs <;> omega
  · split_ifs <;> omega
  · intro hten
    have hfew : gaps ≤ 10 := by omega
    by_cases hschema : (checkSchemaConformance candles).passed
    · by_cases hduplicates : (checkDuplicates candles).passed
      · by_cases hmonotonic : (checkTimestampMonotonic candles scope.timeframe).passed
        · obtain ⟨hsorted, hgrid⟩ := ordered_of_monotonic hmonotonic
          exact
            { rows := fun c hc => conforms_of_schema hschema hc
              keys := keys_nodup hduplicates
              sorted := hsorted
              onGrid := fun c hc => hgrid _ (List.mem_map_of_mem hc)
              gaps := gaps_of_deduction hle hslots (by rw [hgapPoints]; exact_mod_cast hfew) }
        · rw [if_neg hmonotonic] at hten
          omega
      · rw [if_neg hduplicates] at hten
        omega
    · rw [if_neg hschema] at hten
      omega

/-! ## The answer of the service -/

variable (quantBaseUrl : Option String) (reply : StageBReply)

/-- The checks of an answer that is taken: the service is configured and answered with a success and a
list of checks. -/
def acceptedChecks : Option (List StructuralCheck) :=
  if quantBaseUrl = none ∨ quantBaseUrl = some "" then none
  else match reply with
    | .response status (.ok payload) =>
        if 200 ≤ status ∧ status < 300 then parseStageBResponse payload else none
    | _ => none

/-- Either the checks of the answer, or one failed check that costs fifteen points, or no report. -/
theorem fetchStageBChecks_cases {checks : List StructuralCheck}
    (h : fetchStageBChecks quantBaseUrl reply = .ok checks) :
    acceptedChecks quantBaseUrl reply = some checks ∨
      (acceptedChecks quantBaseUrl reply = none ∧ ∃ reason, checks = [stageBUnavailable reason]) := by
  have hone : ∀ reason, ∃ reason', [stageBUnavailable reason] = [stageBUnavailable reason'] :=
    fun reason => ⟨reason, rfl⟩
  unfold fetchStageBChecks at h
  unfold acceptedChecks
  split at h
  · rename_i hurl
    cases h
    rw [if_pos hurl]
    exact .inr ⟨rfl, hone _⟩
  · rename_i hurl
    rw [if_neg hurl]
    cases reply with
    | failed message =>
        cases h
        exact .inr ⟨rfl, hone _⟩
    | response status body =>
        dsimp only at h
        split at h
        · cases h
        · split at h
          · rename_i hstatus
            cases h
            cases body with
            | error message => exact .inr ⟨rfl, hone _⟩
            | ok payload =>
                dsimp only
                rw [if_neg (by omega)]
                exact .inr ⟨rfl, hone _⟩
          · rename_i hstatus
            cases body with
            | error message =>
                cases h
                exact .inr ⟨rfl, hone _⟩
            | ok payload =>
                cases h
                dsimp only
                rw [if_pos (by omega)]
                cases parseStageBResponse payload with
                | none => exact .inr ⟨rfl, hone _⟩
                | some checks => exact .inl rfl

theorem fetchStageBChecks_of_accepted {checks : List StructuralCheck}
    (h : acceptedChecks quantBaseUrl reply = some checks) :
    fetchStageBChecks quantBaseUrl reply = .ok checks := by
  unfold acceptedChecks at h
  split at h
  · cases h
  · rename_i hurl
    unfold fetchStageBChecks
    rw [if_neg hurl]
    cases reply with
    | failed message => cases h
    | response status body =>
        cases body with
        | error message => cases h
        | ok payload =>
            dsimp only at h ⊢
            split at h
            · rename_i hstatus
              rw [if_neg (by omega), if_neg (by omega), h]
              rfl
            · cases h

/-! ## The verdict -/

/-- A report passes with a score of at least ninety. -/
theorem scoreChecks_status (checks : List StructuralCheck) :
    (scoreChecks checks).status = .passed ↔
      JsNumber.le (.fin minDataQualityScore) (scoreChecks checks).score := by
  unfold scoreChecks
  dsimp only
  split
  · rename_i h
    exact iff_of_true rfl h
  · rename_i h
    exact iff_of_false ReportStatus.noConfusion h

/-- The score of a total of whole points. -/
theorem score_points {points : ℕ} (hpoints : points ≤ 200) :
    JsNumber.max (.fin 0) (Binary64.sub (.fin 100) (.fin points)) =
      .fin ((100 - points : ℕ) : ℚ) := by
  have hsmall : |(100 : ℤ) - points| ≤ 2 ^ 53 := by
    rw [abs_le]
    constructor <;> omega
  have hsub := Binary64.sub_intCast hsmall
  push_cast at hsub
  rw [hsub, JsNumber.fin_max]
  congr 1
  rcases le_total points 100 with h | h
  · rw [Nat.cast_sub h, max_eq_right]
    · norm_num
    · have hq : (points : ℚ) ≤ 100 := by exact_mod_cast h
      linarith
  · rw [Nat.sub_eq_zero_of_le h, Nat.cast_zero, max_eq_left]
    have hq : (100 : ℚ) ≤ points := by exact_mod_cast h
    linarith

theorem points_le_of_score {points : ℕ}
    (h : JsNumber.le (.fin minDataQualityScore) (.fin ((100 - points : ℕ) : ℚ))) : points ≤ 10 := by
  rw [JsNumber.fin_le, decide_eq_true_eq, minDataQualityScore] at h
  have hnat : 90 ≤ 100 - points := by exact_mod_cast h
  omega

/-- A check that is not available costs fifteen points. -/
theorem deductFrom_unavailable {points : ℕ} (hpoints : points ≤ 100) (reason : String) :
    deductFrom (.fin points) [stageBUnavailable reason] = .fin ((points + 15 : ℕ) : ℚ) := by
  have hsmall : |(points : ℤ) + 15| ≤ 2 ^ 53 := by
    rw [abs_of_nonneg (by omega)]
    omega
  exact_mod_cast Binary64.add_intCast hsmall

/-- The lowest total that is scored like `points`, a hundred less it being the same double or less. -/
def leastTotal (points : ℕ) : ℚ := points - Binary64.halfGap (100 - points)

/-- A total is scored no higher than `points` exactly when it has not fallen below it. -/
theorem score_le_iff {total : JsNumber} {points : ℕ} (hpoints : points ≤ 100) :
    JsNumber.le (JsNumber.max (.fin 0) (Binary64.sub (.fin 100) total))
        (.fin ((100 - points : ℕ) : ℚ)) ↔
      JsNumber.le (.fin (leastTotal points)) total := by
  have hscore : (0 : ℚ) ≤ ((100 - points : ℕ) : ℚ) := Nat.cast_nonneg _
  have hcast : ((100 - points : ℕ) : ℚ) = 100 - points := by
    push_cast [Nat.cast_sub hpoints]
    rfl
  have hgap := Binary64.halfGap_le_one (d := 100 - points) (by omega)
  have hgap0 := Binary64.halfGap_pos (100 - points)
  have hpointsQ : (points : ℚ) ≤ 100 := by exact_mod_cast hpoints
  have hpoints0 : (0 : ℚ) ≤ points := Nat.cast_nonneg _
  cases total with
  | nan => exact iff_of_false Bool.false_ne_true Bool.false_ne_true
  | posInf => exact iff_of_true (decide_eq_true hscore) rfl
  | negInf => exact iff_of_false Bool.false_ne_true Bool.false_ne_true
  | fin u =>
      have hsub : Binary64.sub (.fin 100) (.fin u) = Binary64.round (100 - u) := by
        rw [Binary64.sub, JsNumber.fin_sub]
        rfl
      rw [hsub, JsNumber.fin_le, decide_eq_true_eq, leastTotal]
      by_cases hover : Binary64.overflowBound ≤ |100 - u|
      · have hbound : ((200 : ℕ) : ℚ) < Binary64.overflowBound :=
          Binary64.natCast_lt_overflowBound (by norm_num)
        push_cast at hbound
        rw [Binary64.round_eq_inf hover]
        by_cases hneg : 100 - u < 0
        · rw [JsNumber.infOfSign, if_pos hneg]
          exact iff_of_true (decide_eq_true hscore) (by linarith)
        · rw [JsNumber.infOfSign, if_neg hneg]
          rw [abs_of_nonneg (not_lt.mp hneg)] at hover
          exact iff_of_false Bool.false_ne_true (by linarith)
      · have hnearest := Binary64.nearest_le_natCast_iff (x := 100 - u) (d := 100 - points)
          (by omega)
        rw [Binary64.round_eq_nearest (not_le.mp hover), JsNumber.fin_max, JsNumber.fin_le,
          decide_eq_true_eq, max_le_iff, hnearest, hcast]
        constructor
        · rintro ⟨-, h⟩
          linarith
        · intro h
          exact ⟨by linarith, by linarith⟩

variable {scope candles quantBaseUrl reply}

theorem validateAndReport_spec {create : DataQualityReport → Except String String}
    {computeDatasetHash : List NormalizedCandle → String} {report : ValidationReport}
    (h : validateAndReport ⟨quantBaseUrl, reply, create, computeDatasetHash⟩ scope candles =
      .ok report) :
    ∃ checks, fetchStageBChecks quantBaseUrl reply = .ok checks ∧
      report.score = (scoreChecks (stageAChecks scope candles ++ checks)).score ∧
      report.status = (scoreChecks (stageAChecks scope candles ++ checks)).status := by
  unfold validateAndReport at h
  obtain ⟨checks, hchecks, h⟩ := Fallible.bind_eq_ok.mp h
  obtain ⟨id, -, h⟩ := Fallible.bind_eq_ok.mp h
  cases h
  refine ⟨checks, ?_, rfl, rfl⟩
  cases hfetch : fetchStageBChecks quantBaseUrl reply with
  | error e =>
      rw [hfetch] at hchecks
      cases hchecks
  | ok checks' =>
      rw [hfetch] at hchecks
      cases hchecks
      rfl

/-- The bounds of the window are dates. -/
structure QualityScope.Dated (scope : QualityScope) : Prop where
  «from» : |scope.fromMs| ≤ 8640000000000000
  «to» : |scope.toMs| ≤ 8640000000000000

/-- Between two dates there are not that many minutes. -/
theorem QualityScope.Dated.slots (h : scope.Dated) :
    (gridSlots scope.timeframe scope.fromMs scope.toMs).length ≤ 2 ^ 40 := by
  have hfrom := abs_le.mp h.from
  have hto := abs_le.mp h.to
  have hgrid := timeframeMs_pos scope.timeframe
  have hminute : 60000 ≤ timeframeMs scope.timeframe := by
    cases scope.timeframe <;> decide
  have hfirst := (firstAligned_spec hgrid scope.fromMs).1
  rw [gridSlots, cursors_eq, List.length_map, List.length_range]
  by_contra hlong
  have hlast := (slotCount_spec hgrid _ _ _).mp (not_le.mp hlong)
  push_cast at hlast
  linarith

/-- A passed report has a clean batch and an answer of the service behind it, and no report scores more
than its structural checks alone. -/
def GateSound (deps : QualityDeps) (scope : QualityScope) (candles : List NormalizedCandle) : Prop :=
  ∀ report, validateAndReport deps scope candles = .ok report →
    (report.status = .passed →
      CleanBatch scope candles ∧ (acceptedChecks deps.quantBaseUrl deps.reply).isSome) ∧
    JsNumber.le report.score (scoreChecks (stageAChecks scope candles)).score

/-- Added one after another to a total of whole points, the charges of some checks do not end below the
least total that is scored like it. -/
def NothingWon (total : JsNumber) (checks : List StructuralCheck) : Prop :=
  ∃ points : ℕ, total = .fin points ∧ JsNumber.le (.fin (leastTotal points)) (deductFrom total checks)

/-- The gate is sound exactly when the failed checks of the answer do not give points back. -/
theorem gateSound_iff (scope : QualityScope) (hdated : scope.Dated) (candles : List NormalizedCandle)
    (quantBaseUrl : Option String) (reply : StageBReply)
    (computeDatasetHash : List NormalizedCandle → String) :
    (∀ create, GateSound ⟨quantBaseUrl, reply, create, computeDatasetHash⟩ scope candles) ↔
      ∀ checks ∈ acceptedChecks quantBaseUrl reply,
        NothingWon (totalDeduction (stageAChecks scope candles)) checks := by
  obtain ⟨points, htotal, hpoints, hclean⟩ := totalDeduction_stageA scope candles hdated.slots
  have hscoreA : (scoreChecks (stageAChecks scope candles)).score =
      .fin ((100 - points : ℕ) : ℚ) := by
    unfold scoreChecks
    dsimp only
    rw [htotal]
    exact score_points (by omega)
  -- The score of the structural checks is not exceeded where nothing is won.
  have hle : ∀ checks, JsNumber.le (scoreChecks (stageAChecks scope candles ++ checks)).score
      (scoreChecks (stageAChecks scope candles)).score ↔
        NothingWon (totalDeduction (stageAChecks scope candles)) checks := by
    intro checks
    rw [hscoreA, NothingWon, htotal]
    have hiff := @score_le_iff (deductFrom (.fin points) checks) points hpoints
    rw [← htotal, totalDeduction, ← deductFrom_append] at hiff
    refine hiff.trans ?_
    rw [deductFrom_append, ← totalDeduction, htotal]
    constructor
    · exact fun h => ⟨points, rfl, h⟩
    · rintro ⟨points', heq, h⟩
      rw [Nat.cast_injective (JsNumber.fin.inj heq)] at h ⊢
      exact h
  constructor
  · intro hsound checks hchecks
    -- With a database that takes the report there is one.
    have hfetch := fetchStageBChecks_of_accepted quantBaseUrl reply hchecks
    obtain ⟨report, hreport, hresult⟩ : ∃ report,
        validateAndReport ⟨quantBaseUrl, reply, fun _ => .ok "report", computeDatasetHash⟩ scope
          candles = .ok report ∧
        report.score = (scoreChecks (stageAChecks scope candles ++ checks)).score := by
      unfold validateAndReport
      rw [hfetch]
      exact ⟨_, rfl, rfl⟩
    have hscore := (hsound _ _ hreport).2
    rw [hresult] at hscore
    exact (hle checks).mp hscore
  · intro hhonest create report hreport
    obtain ⟨checks, hfetch, hscore, hstatus⟩ := validateAndReport_spec hreport
    rw [hscore, hstatus, scoreChecks_status]
    rcases fetchStageBChecks_cases quantBaseUrl reply hfetch with haccepted | ⟨-, reason, rfl⟩
    · have hnothing := (hle checks).mpr (hhonest checks haccepted)
      refine ⟨fun hninety => ⟨hclean ?_, ?_⟩, hnothing⟩
      · rw [hscoreA] at hnothing
        exact points_le_of_score (JsNumber.le_trans hninety hnothing)
      · dsimp only
        rw [haccepted]
        rfl
    · -- An answer that is not taken costs fifteen points more.
      have hmore : NothingWon (totalDeduction (stageAChecks scope candles))
          [stageBUnavailable reason] := by
        refine ⟨points, htotal, ?_⟩
        rw [htotal, deductFrom_unavailable hpoints reason, JsNumber.fin_le, decide_eq_true_eq, leastTotal]
        have hgap := Binary64.halfGap_pos (100 - points)
        push_cast
        linarith
      refine ⟨fun hninety => ?_, (hle _).mpr hmore⟩
      exfalso
      unfold scoreChecks at hninety
      dsimp only at hninety
      rw [totalDeduction, deductFrom_append, ← totalDeduction, htotal,
        deductFrom_unavailable hpoints reason, score_points (by omega)] at hninety
      have hten := points_le_of_score hninety
      omega

/-- A failed check that is charged `points`. -/
def chargedCheck (points : ℚ) : StructuralCheck := ⟨"drift", false, points, "", none⟩

-- What is won depends on the order: the large charge swallows the forty points before it.
example : deductFrom (.fin 40) [chargedCheck (10 ^ 20), chargedCheck (-10 ^ 20)] = .fin 0 := by
  decide +kernel

/-! ## A batch that is bought through -/

def hourCandle (ts : ℤ) (high : String) : NormalizedCandle :=
  ⟨.binance, "BTC-USDT", .spot, .h1, ts, "100.00000000", high, "90.00000000", "105.00000000",
    "1000.00000000", none⟩

def hourScope (bars : ℤ) : QualityScope := ⟨.binance, "BTC-USDT", .h1, 0, bars * 3600000⟩

/-- An answer with one failed check. -/
def replyWith (deduction : ℚ) : StageBReply :=
  .response 200 (.ok (.arr [.obj [("check", .str "drift"), ("passed", .bool false),
    ("deduction", .num (.fin deduction)), ("detail", .str "")]]))

def depsWith (deduction : ℚ) : QualityDeps :=
  ⟨some "http://quant", replyWith deduction, fun _ => .ok "report", fun _ => "hash"⟩

/-- A check that deducts five points wins nothing. -/
theorem gateSound_iff_five : (hourScope 1).Dated ∧
    ((∀ create, GateSound ⟨some "http://quant", replyWith 5, create, fun _ => "hash"⟩ (hourScope 1)
        [hourCandle 0 "110.00000000"]) ↔
      ∀ checks ∈ acceptedChecks (some "http://quant") (replyWith 5),
        NothingWon (totalDeduction (stageAChecks (hourScope 1) [hourCandle 0 "110.00000000"]))
          checks) := by
  have hdated : (hourScope 1).Dated := ⟨by decide, by decide⟩
  exact ⟨hdated, gateSound_iff _ hdated _ _ _ _⟩

/-- A candle with its high below its low passes with the full score when the service answers with a
failed check of minus forty points. -/
theorem gate_bought_through :
    (validateAndReport (depsWith (-40)) (hourScope 1) [hourCandle 0 "80.00000000"]).toOption =
      some ⟨"report", .fin 100, .passed, "hash", none⟩ ∧
    rowReasons (hourCandle 0 "80.00000000") =
      ["high_lt_low", "open_outside_range", "close_outside_range"] ∧
    (scoreChecks (stageAChecks (hourScope 1) [hourCandle 0 "80.00000000"])).score = .fin 60 ∧
    ¬GateSound (depsWith (-40)) (hourScope 1) [hourCandle 0 "80.00000000"] := by
  have hreport : (validateAndReport (depsWith (-40)) (hourScope 1)
      [hourCandle 0 "80.00000000"]).toOption = some ⟨"report", .fin 100, .passed, "hash", none⟩ := by
    decide +kernel
  have hscore : (scoreChecks (stageAChecks (hourScope 1) [hourCandle 0 "80.00000000"])).score =
      .fin 60 := by
    decide +kernel
  refine ⟨hreport, by decide +kernel, hscore, ?_⟩
  intro hsound
  cases hresult : validateAndReport (depsWith (-40)) (hourScope 1) [hourCandle 0 "80.00000000"] with
  | error e =>
      rw [hresult] at hreport
      cases hreport
  | ok report =>
      rw [hresult] at hreport
      cases hreport
      have hle := (hsound _ hresult).2
      rw [hscore] at hle
      exact absurd hle (by decide)

end NexusQuant.Ingestion
