import NexusQuant.Lib.JsonChecks
import NexusQuant.Lib.JsonValue
import NexusQuant.Pipeline.Decide
import NexusQuant.Signal.Mirror

/-!
# Row admission and the signal contract

`pipeline/validate.ts` and `errors.ts`: the rows a tick reads are checked before anything is derived
from them, and every generated signal is checked before anything sees it.  The second check cannot
fail on what the engine generates: `malformedSignalReason_signalOf`.
-/

namespace NexusQuant.Pipeline

open JsonChecks (firstFailed firstFailed_eq_none)
open Signal
open TradingDecision (SignalParams)

structure PipelineDataError where
  message : String
  code : String
deriving DecidableEq, Repr

/-- A row of `StrategyVersion`, as far as the tick reads it. -/
structure StrategyVersionRow where
  id : String
  active : Bool
  createdAt : ℤ
  parameters : JsValue

/-- A row of `FeatureSnapshot` with its quality report, as far as the tick reads them. -/
structure FeatureSnapshotRow where
  id : String
  featureSetId : String
  exchange : String
  symbol : String
  ts : Instant
  featureHash : String
  features : JsValue
  dqReport : SignalDataQualityReport

def isPlainObject : JsValue → Bool
  | .obj _ => true
  | _ => false

def assertValidStrategyVersionRow (row : StrategyVersionRow) : Except PipelineDataError Unit :=
  if row.id = "" then
    .error ⟨"resolved StrategyVersion has no id (malformed row — fail-fast, nothing fabricated)",
      "MALFORMED_STRATEGY_VERSION"⟩
  else if !isPlainObject row.parameters then
    .error ⟨"StrategyVersion " ++ row.id ++ ": parameters is not a JSON object (malformed row — " ++
      "fail-fast, nothing fabricated)", "MALFORMED_STRATEGY_VERSION"⟩
  else .ok ()

/-- The checks of a snapshot row that its column types leave open; its status is one of the two. -/
def snapshotChecks (row : FeatureSnapshotRow) : List (Bool × String) :=
  [(row.id != "", "id missing or empty"),
    (row.symbol != "", "symbol missing or empty"),
    (row.ts.time.isFinite, "ts is not a valid timestamp"),
    (row.featureHash != "", "featureHash missing or empty"),
    (isPlainObject row.features, "features is not a JSON object"),
    (row.dqReport.id != "", "dqReport.id missing or empty"),
    (row.dqReport.score.isFinite, "dqReport.score is not a finite number"),
    (row.dqReport.datasetHash != "", "dqReport.datasetHash missing or empty")]

def assertValidSnapshotRow (row : FeatureSnapshotRow) : Except PipelineDataError Unit :=
  match firstFailed (snapshotChecks row) with
  | none => .ok ()
  | some detail =>
      .error ⟨"FeatureSnapshot " ++ (if row.id = "" then "<no id>" else row.id) ++ ": " ++ detail ++
        " (malformed row — fail-fast, nothing fabricated)", "MALFORMED_FEATURE_SNAPSHOT"⟩

/-- `CONFIDENCE_RE`: a zero or a one, a point and four digits. -/
def isConfidenceText (text : String) : Bool :=
  match text.toList with
  | [whole, point, a, b, c, d] =>
      (whole = '0' || whole = '1') && point = '.' && [a, b, c, d].all Char.isDigit
  | _ => false

def confidenceInRange (text : String) : Bool :=
  match DecimalText.number? text with
  | some c => 0 ≤ c && c ≤ 1
  | none => false

/-- The contract of a generated signal against what it was generated from.  That its side and its
decision are among the three is in their type. -/
def malformedSignalReason (signal : GeneratedSignal) (ctx : SignalEngineInput) : Option String :=
  firstFailed
    [(isConfidenceText signal.confidence,
        "confidence \"" ++ signal.confidence ++ "\" is not the quantized 4-decimal format"),
      (confidenceInRange signal.confidence, "confidence " ++ signal.confidence ++ " outside [0, 1]"),
      (signal.symbol == ctx.featureSnapshot.symbol,
        "symbol \"" ++ signal.symbol ++ "\" != snapshot symbol \"" ++
          ctx.featureSnapshot.symbol ++ "\""),
      (signal.featureSnapshotId == ctx.featureSnapshot.id,
        "featureSnapshotId \"" ++ signal.featureSnapshotId ++ "\" != snapshot id \"" ++
          ctx.featureSnapshot.id ++ "\""),
      (signal.dqReportId == ctx.dqReport.id,
        "dqReportId \"" ++ signal.dqReportId ++ "\" != DQ report id \"" ++ ctx.dqReport.id ++ "\""),
      (signal.strategyVersionId == ctx.strategyVersion.id,
        "strategyVersionId \"" ++ signal.strategyVersionId ++ "\" != resolved version \"" ++
          ctx.strategyVersion.id ++ "\""),
      (signal.featureHash == ctx.featureSnapshot.featureHash,
        "featureHash not carried verbatim from the feature snapshot"),
      (signal.datasetHash == ctx.dqReport.datasetHash,
        "datasetHash not carried verbatim from the DQ report")]

/-- `SIGNAL_DECISIONS`, the members of `DECISION_SET`. -/
def signalDecisions : List String := ["LONG", "SHORT", "FLAT"]

/-- The ids and hashes a signal carries. -/
def lineageFields : List String :=
  ["strategyVersionId", "featureSnapshotId", "dqReportId", "datasetHash", "featureHash"]

/-- `String(v)` between the two parts of a message. -/
def quoting (before : String) (v : JsValue) (after : String) : Except String String :=
  v.toText.map fun text => before ++ text ++ after

/-- The checks of a signal out of a JSON text, each with its message. -/
def signalStructureChecks (v : JsValue) : List (Bool × Except String String) :=
  let domain := "\" not in " ++ "|".intercalate signalDecisions
  [(isPlainObject v, .ok "is not a JSON object"),
    ((v.field "symbol").isNonEmptyString, .ok "symbol missing or empty"),
    ((v.field "side").isOneOf signalDecisions, quoting "side \"" (v.field "side") domain),
    ((v.field "decision").isOneOf signalDecisions,
      quoting "decision \"" (v.field "decision") domain),
    ((v.field "confidence").isText isConfidenceText,
      quoting "confidence \"" (v.field "confidence")
        "\" is not the quantized 4-decimal string format"),
    ((v.field "confidence").isText confidenceInRange,
      quoting "confidence " (v.field "confidence") " outside [0, 1]")] ++
  lineageFields.map (fun field => ((v.field field).isNonEmptyString, .ok (field ++ " missing or empty"))) ++
  [(isPlainObject (v.field "strategyParams"), .ok "strategyParams is not a JSON object")]

/-- The contract of a signal without its context; writing the reason can throw. -/
def malformedSignalStructureReason (v : JsValue) : Option (Except String String) :=
  JsValue.refusal (signalStructureChecks v)

/-! ## The confidence of a generated signal -/

section Confidence

open DecimalText Rounding

/-- The number of ten-thousandths of a number between zero and one. -/
theorem units_bounds {q : ℚ} (hnonneg : 0 ≤ q) (hone : q ≤ 1) :
    0 ≤ units 4 q ∧ units 4 q ≤ 10000 := by
  have hmono := units_mono 4 hone
  have hmax : units 4 1 = 10000 := by
    rw [units_of_nonneg (by norm_num)]
    norm_num
  rw [hmax] at hmono
  exact ⟨units_nonneg hnonneg, hmono⟩

/-- The text of a number between zero and one has the wire format. -/
theorem isConfidenceText_toFixed {q : ℚ} (hnonneg : 0 ≤ q) (hone : q ≤ 1) :
    isConfidenceText (toFixed 4 q) := by
  obtain ⟨hn0, hn1⟩ := units_bounds hnonneg hone
  have hlt : (units 4 q).natAbs % 10 ^ 4 < 10 ^ 4 := Nat.mod_lt _ (by decide)
  -- One digit before the point, four behind it.
  have hwhole : ∃ w, Nat.toDigits 10 ((units 4 q).natAbs / 10 ^ 4) = [w] ∧ (w = '0' ∨ w = '1') := by
    have hcases : (units 4 q).natAbs / 10 ^ 4 = 0 ∨ (units 4 q).natAbs / 10 ^ 4 = 1 := by omega
    rcases hcases with h | h
    · rw [h]
      exact ⟨'0', by decide, .inl rfl⟩
    · rw [h]
      exact ⟨'1', by decide, .inr rfl⟩
  obtain ⟨w, hw, hwcases⟩ := hwhole
  have hlength := length_padded (by decide : 0 < 4) hlt
  have hdigits : ∀ c ∈ padded 4 ((units 4 q).natAbs % 10 ^ 4), c.isDigit := fun c hc =>
    isDigit_of_mem_padded hc
  obtain ⟨a, b, c, d, hpadded⟩ := List.length_eq_four.mp hlength
  rw [hpadded] at hdigits
  have htext : (toFixed 4 q).toList = [w, '.', a, b, c, d] := by
    rw [toFixed_of_nonneg hnonneg, toList_fixedText, if_neg (not_lt.mpr hn0), magnitude, hw,
      hpadded]
    rfl
  unfold isConfidenceText
  rw [htext]
  simp only [List.mem_cons, List.not_mem_nil, or_false, forall_eq_or_imp, forall_eq] at hdigits
  simp [hdigits, hwcases]

theorem confidenceInRange_toFixed {q : ℚ} (hnonneg : 0 ≤ q) (hone : q ≤ 1) :
    confidenceInRange (toFixed 4 q) := by
  obtain ⟨hn0, hn1⟩ := units_bounds hnonneg hone
  have hlow : (0 : ℚ) ≤ units 4 q := by exact_mod_cast hn0
  have hhigh : (units 4 q : ℚ) ≤ 10000 := by exact_mod_cast hn1
  unfold confidenceInRange
  rw [toFixed_of_nonneg hnonneg, number?_fixedText (by decide)]
  simp only [Bool.and_eq_true, decide_eq_true_eq]
  constructor
  · positivity
  · rw [div_le_one (by positivity)]
    norm_num
    exact hhigh

/-- What the clamp makes of a number that is one. -/
theorem clamp01_number {x : JsNumber} (hx : x ≠ .nan) :
    ∃ q, clamp01 x = .fin q ∧ 0 ≤ q ∧ q ≤ 1 := by
  cases x with
  | fin q => exact ⟨_, clamp01_fin q, mirrorClamp_bounds _⟩
  | nan => exact absurd rfl hx
  | posInf => exact ⟨1, rfl, by norm_num, by norm_num⟩
  | negInf => exact ⟨0, rfl, by norm_num, by norm_num⟩

theorem fin_div_ne_nan {a b : ℚ} (h : 0 < a) : JsNumber.fin a / JsNumber.fin b ≠ .nan := by
  by_cases hb : b = 0
  · rw [hb, fin_div_zero h]
    decide
  · rw [JsNumber.fin_div hb]
    exact JsNumber.noConfusion

/-- The rule never divides zero by zero on the way to its confidence. -/
theorem confidence_number {x : RuleInputs} {params : SignalParams} (hfinite : FiniteParams params) :
    ∃ q, (decideInputs x params).confidence = .fin q ∧ 0 ≤ q ∧ q ≤ 1 := by
  by_cases hvol : volFiltered x params
  · rw [(confidence_volFiltered hvol).1]
    obtain ⟨ceiling, hceiling⟩ := JsNumber.eq_fin_of_isFinite hfinite.maxRealizedVol
    unfold volFiltered at hvol
    rw [hceiling] at hvol ⊢
    have habove : 0 < x.realizedVol - ceiling := by
      simpa using hvol
    rw [JsNumber.fin_sub]
    exact clamp01_number (fin_div_ne_nan habove)
  · by_cases hdir : directional x params = .flat
    · exact ⟨0, (confidence_flat hvol hdir).1, by norm_num, by norm_num⟩
    · rw [(confidence_directional hvol hdir).1, JsNumber.fin_div (by norm_num : (50 : ℚ) ≠ 0)]
      obtain ⟨t, ht, -⟩ := clamp01_number
        (@fin_div_ne_nan _ |x.ema200| (abs_sub_pos_of_confirmed (directional_ne_flat_iff.mp hdir)))
      rw [ht, clamp01_fin, JsNumber.fin_mul, JsNumber.fin_mul, JsNumber.fin_add]
      exact clamp01_number JsNumber.noConfusion

end Confidence

/-- What the engine generates meets the contract. -/
theorem malformedSignalReason_signalOf {input : SignalEngineInput} {params : SignalParams}
    {x : RuleInputs} (hfinite : FiniteParams params) :
    malformedSignalReason (signalOf input params (decideInputs x params)) input = none := by
  obtain ⟨q, hq, hnonneg, hone⟩ := @confidence_number x params hfinite
  have hconfidence : (signalOf input params (decideInputs x params)).confidence =
      DecimalText.toFixed 4 q := by
    show DecimalText.jsToFixed 4 (clamp01 (decideInputs x params).confidence) = _
    rw [hq, clamp01_fin, mirrorClamp_of_bounds hnonneg hone]
    rfl
  unfold malformedSignalReason
  rw [firstFailed_eq_none, hconfidence]
  intro check hcheck
  simp only [List.mem_cons, List.not_mem_nil, or_false] at hcheck
  rcases hcheck with rfl | rfl | rfl | rfl | rfl | rfl | rfl | rfl
  · exact isConfidenceText_toFixed hnonneg hone
  · dsimp only
    exact confidenceInRange_toFixed hnonneg hone
  all_goals exact beq_self_eq_true _

end NexusQuant.Pipeline
