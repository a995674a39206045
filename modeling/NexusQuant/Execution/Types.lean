import NexusQuant.Lib.Arithmetic
import NexusQuant.Lib.Json

/-!
# Execution layer: money and contracts

`services/workers/src/execution/money.ts` and the parts of `types.ts` the market and risk layers
carry: intents, results and their lineage, with the JSON they are journaled as.  Amounts are numbers of an
arithmetic between two borders and decimal texts at the borders, as in the source.
-/

namespace NexusQuant.Execution

open DecimalText Rounding

/-! ## Money -/

/-- `NOTIONAL_DP`. -/
def notionalDp : ℕ := 2

section Borders

variable [A : Arithmetic]

/-- The text of a number with `dp` decimals, a negative zero written without its sign. -/
def quantize (dp : ℕ) (n : ℚ) : String :=
  let s := toFixed dp (A.finiteOrZero n)
  if s = "-" ++ toFixed dp 0 then toFixed dp 0 else s

def quantizeNotional (n : ℚ) : String := quantize notionalDp n

/-- The number a text denotes, zero for a text that denotes none. -/
def parseDecimal (s : String) : ℚ := A.finiteOrZero (A.rounded ((number? s).getD 0))

end Borders

def isCanonicalDecimalString (s : String) (dp : ℕ) : Bool := isCanonical dp s

theorem parseDecimal_exact (s : String) : parseDecimal s = (number? s).getD 0 := rfl

theorem parseDecimal_eq [A : Arithmetic] (s : String) :
    parseDecimal (A := A) s = A.finiteOrZero (A.rounded (parseDecimal (A := .exact) s)) := rfl

/-- Zero is written alike in every arithmetic. -/
theorem quantize_zero [A : Arithmetic] (dp : ℕ) :
    quantize (A := A) dp 0 = quantize (A := .exact) dp 0 := by
  unfold quantize
  rw [Arithmetic.finiteOrZero_zero]
  rfl

section Money

variable {dp : ℕ} (hdp : 0 < dp)
include hdp

theorem quantize_eq [A : Arithmetic] (x : ℚ) :
    quantize dp x = fixedText dp (units dp (A.finiteOrZero x)) :=
  toFixed_normalized hdp _

/-- What a text says, whichever arithmetic wrote it. -/
theorem parseDecimal_exact_quantize [A : Arithmetic] (x : ℚ) :
    parseDecimal (A := .exact) (quantize (A := A) dp x) = roundTo dp (A.finiteOrZero x) := by
  rw [parseDecimal_exact, quantize_eq hdp, number?_fixedText hdp]
  rfl

theorem parseDecimal_quantize (x : ℚ) : parseDecimal (quantize dp x) = roundTo dp x :=
  parseDecimal_exact_quantize hdp x

theorem isCanonicalDecimalString_quantize [Arithmetic] (x : ℚ) :
    isCanonicalDecimalString (quantize dp x) dp := by
  rw [isCanonicalDecimalString, quantize_eq hdp]
  exact isCanonical_fixedText hdp _

end Money

/-- A text that is read as a positive number is read as the rounding of what it says. -/
theorem parseDecimal_of_pos [A : Arithmetic] {s : String} (h : 0 < parseDecimal s) :
    parseDecimal s = A.rounded (parseDecimal (A := .exact) s) := by
  rw [parseDecimal_eq, Arithmetic.finiteOrZero] at h ⊢
  cases hfinite : A.finite (A.rounded (parseDecimal (A := .exact) s)) with
  | true => rfl
  | false =>
      rw [hfinite] at h
      exact absurd h (lt_irrefl _)

section Lawful

variable [A : Arithmetic] [A.Lawful]

theorem rounded_parseDecimal (s : String) : A.rounded (parseDecimal s) = parseDecimal s :=
  Arithmetic.rounded_finiteOrZero (Arithmetic.Lawful.idem _)

theorem pos_of_parseDecimal_pos {s : String} (h : 0 < parseDecimal s) :
    0 < parseDecimal (A := .exact) s := by
  rw [parseDecimal_of_pos h] at h
  exact Arithmetic.pos_of_rounded_pos h

theorem parseDecimal_quantize_nonneg {dp : ℕ} (hdp : 0 < dp) {x : ℚ} (hx : 0 ≤ x) :
    0 ≤ parseDecimal (quantize dp x) := by
  rw [parseDecimal_eq, parseDecimal_exact_quantize hdp]
  exact Arithmetic.finiteOrZero_nonneg
    (Arithmetic.rounded_nonneg (roundTo_nonneg (Arithmetic.finiteOrZero_nonneg hx)))

/-- The text of a number of the arithmetic is read as the rounding of the decimal it shows. -/
theorem parseDecimal_quantize_rounded {dp : ℕ} (hdp : 0 < dp) {x : ℚ} (hx : A.rounded x = x) :
    parseDecimal (quantize dp x) = A.rounded (roundTo dp (A.finiteOrZero x)) := by
  have hnear : |roundTo dp (A.finiteOrZero x) - A.finiteOrZero x| ≤ 1 := by
    apply (abs_roundTo_sub_le dp _).trans
    rw [div_div]
    exact div_le_one_of_le₀ (one_le_mul_of_one_le_of_one_le (by norm_num)
      (one_le_pow₀ (by norm_num))) (by positivity)
  rw [parseDecimal, quantize_eq hdp, number?_fixedText hdp]
  exact Arithmetic.finiteOrZero_of_finite (Arithmetic.Lawful.finite_near
    (Arithmetic.rounded_finiteOrZero hx) (Arithmetic.finite_finiteOrZero x) hnear)

end Lawful

theorem parseDecimal_mem_grid {dp : ℕ} {s : String} (h : isCanonicalDecimalString s dp) :
    parseDecimal s ∈ grid dp := by
  obtain ⟨n, hn⟩ := number?_of_isCanonical h
  rw [parseDecimal, hn]
  exact mem_grid.mpr ⟨n, rfl⟩

/-! ## Contracts -/

inductive ExecutionSide where
  | long | short
deriving DecidableEq, Repr

inductive ExecutionStatus where
  | filled | rejected
deriving DecidableEq, Repr

structure DecisionContribution where
  strategyVersionId : String
  executionStrategyId : String
  executionStrategyVersion : ℤ
  featureSnapshotId : String
  dqReportId : String
  datasetHash : String
  featureHash : String
  side : ExecutionSide
  confidence : String
  weightedNotional : String
deriving DecidableEq, Repr

structure ExecutionLineage where
  tickId : Option String
  strategyVersionId : String
  featureSnapshotId : String
  dqReportId : String
  datasetHash : String
  featureHash : String
  executionStrategyId : String
  executionStrategyVersion : ℤ
  intentId : String
  netScore : String
  contributions : List DecisionContribution
deriving DecidableEq, Repr

/-- The only action is ENTER, so the field is left out. -/
structure ExecutionIntent where
  intentId : String
  symbol : String
  side : ExecutionSide
  targetNotional : String
  adapterId : String
  lineage : ExecutionLineage
  rationale : String
deriving DecidableEq, Repr

structure ExecutionResult where
  intentId : String
  symbol : String
  side : ExecutionSide
  status : ExecutionStatus
  adapterId : String
  filledNotional : String
  detail : String
  lineage : ExecutionLineage
deriving DecidableEq, Repr

/-! ## JSON -/

def ExecutionSide.text : ExecutionSide → String
  | .long => "LONG"
  | .short => "SHORT"

def ExecutionSide.ofText? (s : String) : Option ExecutionSide :=
  if s = "LONG" then some .long else if s = "SHORT" then some .short else none

def ExecutionStatus.text : ExecutionStatus → String
  | .filled => "FILLED"
  | .rejected => "REJECTED"

def ExecutionStatus.ofText? (s : String) : Option ExecutionStatus :=
  if s = "FILLED" then some .filled else if s = "REJECTED" then some .rejected else none

def DecisionContribution.toJson (c : DecisionContribution) : Json :=
  .obj [("strategyVersionId", .str c.strategyVersionId),
    ("executionStrategyId", .str c.executionStrategyId),
    ("executionStrategyVersion", .num c.executionStrategyVersion),
    ("featureSnapshotId", .str c.featureSnapshotId), ("dqReportId", .str c.dqReportId),
    ("datasetHash", .str c.datasetHash), ("featureHash", .str c.featureHash),
    ("side", .str c.side.text), ("confidence", .str c.confidence),
    ("weightedNotional", .str c.weightedNotional)]

def DecisionContribution.ofJson? (v : Json) : Option DecisionContribution := do
  return {
    strategyVersionId := ← v.getStr? "strategyVersionId"
    executionStrategyId := ← v.getStr? "executionStrategyId"
    executionStrategyVersion := ← v.getNum? "executionStrategyVersion"
    featureSnapshotId := ← v.getStr? "featureSnapshotId"
    dqReportId := ← v.getStr? "dqReportId"
    datasetHash := ← v.getStr? "datasetHash"
    featureHash := ← v.getStr? "featureHash"
    side := ← (← v.getStr? "side") |> ExecutionSide.ofText?
    confidence := ← v.getStr? "confidence"
    weightedNotional := ← v.getStr? "weightedNotional" }

/-- An absent `tickId` is an absent key. -/
def ExecutionLineage.toJson (l : ExecutionLineage) : Json :=
  .obj ([("strategyVersionId", .str l.strategyVersionId),
    ("featureSnapshotId", .str l.featureSnapshotId), ("dqReportId", .str l.dqReportId),
    ("datasetHash", .str l.datasetHash), ("featureHash", .str l.featureHash),
    ("executionStrategyId", .str l.executionStrategyId),
    ("executionStrategyVersion", .num l.executionStrategyVersion), ("intentId", .str l.intentId),
    ("netScore", .str l.netScore),
    ("contributions", .arr (l.contributions.map DecisionContribution.toJson))] ++
      l.tickId.toList.map fun t => ("tickId", .str t))

def ExecutionLineage.ofJson? (v : Json) : Option ExecutionLineage := do
  return {
    tickId := v.getStr? "tickId"
    strategyVersionId := ← v.getStr? "strategyVersionId"
    featureSnapshotId := ← v.getStr? "featureSnapshotId"
    dqReportId := ← v.getStr? "dqReportId"
    datasetHash := ← v.getStr? "datasetHash"
    featureHash := ← v.getStr? "featureHash"
    executionStrategyId := ← v.getStr? "executionStrategyId"
    executionStrategyVersion := ← v.getNum? "executionStrategyVersion"
    intentId := ← v.getStr? "intentId"
    netScore := ← v.getStr? "netScore"
    contributions := ← (← v.getArr? "contributions").mapM DecisionContribution.ofJson? }

def ExecutionResult.toJson (r : ExecutionResult) : Json :=
  .obj [("intentId", .str r.intentId), ("symbol", .str r.symbol), ("side", .str r.side.text),
    ("status", .str r.status.text), ("adapterId", .str r.adapterId),
    ("filledNotional", .str r.filledNotional), ("detail", .str r.detail),
    ("lineage", r.lineage.toJson)]

def ExecutionResult.ofJson? (v : Json) : Option ExecutionResult := do
  return {
    intentId := ← v.getStr? "intentId"
    symbol := ← v.getStr? "symbol"
    side := ← (← v.getStr? "side") |> ExecutionSide.ofText?
    status := ← (← v.getStr? "status") |> ExecutionStatus.ofText?
    adapterId := ← v.getStr? "adapterId"
    filledNotional := ← v.getStr? "filledNotional"
    detail := ← v.getStr? "detail"
    lineage := ← (← v.get? "lineage") |> ExecutionLineage.ofJson? }

@[simp] theorem ExecutionSide.ofText?_text (s : ExecutionSide) : ofText? s.text = some s := by
  cases s <;> decide

@[simp] theorem ExecutionStatus.ofText?_text (s : ExecutionStatus) : ofText? s.text = some s := by
  cases s <;> decide

@[simp] theorem DecisionContribution.ofJson?_toJson (c : DecisionContribution) :
    ofJson? c.toJson = some c := by
  cases c
  rename_i side _ _
  cases side <;> rfl

@[simp] theorem ExecutionLineage.ofJson?_toJson (l : ExecutionLineage) :
    ofJson? l.toJson = some l := by
  calc ofJson? l.toJson
      = ((l.contributions.map DecisionContribution.toJson).mapM DecisionContribution.ofJson?).bind
          fun cs => some { l with contributions := cs } := by
        obtain ⟨tickId⟩ := l
        cases tickId <;> rfl
    _ = some l := by
        rw [Json.mapM_map DecisionContribution.ofJson?_toJson]
        rfl

@[simp] theorem ExecutionResult.ofJson?_toJson (r : ExecutionResult) :
    ofJson? r.toJson = some r := by
  calc ofJson? r.toJson
      = (ExecutionLineage.ofJson? r.lineage.toJson).bind
          fun l => some { r with lineage := l } := by
        obtain ⟨_, _, side, status⟩ := r
        cases side <;> cases status <;> rfl
    _ = some r := by
        rw [ExecutionLineage.ofJson?_toJson]
        rfl

end NexusQuant.Execution
