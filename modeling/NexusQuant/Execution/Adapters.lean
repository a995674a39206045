import NexusQuant.Execution.Types

/-!
# Execution adapters

`services/workers/src/execution/adapters.ts`.  An adapter is a state and a function that answers an
intent with a result or throws; what surrounds it during a tick (quotes, a venue) is a parameter of
the call.  The paper and the simulated adapter have neither state nor surroundings.
-/

namespace NexusQuant.Execution

open Rounding

structure ExecutionAdapter (ω σ : Type) where
  id : String
  execute : ω → σ → ExecutionIntent → Except String ExecutionResult × σ

/-- The UTF-16 code units of a character. -/
def codeUnits (c : Char) : List UInt32 :=
  let code : UInt32 := c.val
  if code < 0x10000 then [code]
  -- A character above the basic plane is a surrogate pair.
  else [0xd800 + (code - 0x10000) / 0x400, 0xdc00 + (code - 0x10000) % 0x400]

/-- FNV-1a over the code units of a text. -/
def hash32 (input : String) : UInt32 :=
  (input.toList.flatMap codeUnits).foldl (fun h u => (h ^^^ u) * 0x01000193) 0x811c9dc5

def fill (intent : ExecutionIntent) (status : ExecutionStatus) (filledNotional detail : String) :
    ExecutionResult where
  intentId := intent.intentId
  symbol := intent.symbol
  side := intent.side
  status := status
  adapterId := intent.adapterId
  filledNotional := filledNotional
  detail := detail
  lineage := intent.lineage

/-- Fills every intent at its target. -/
def PaperExecutionAdapter : ExecutionAdapter Unit Unit where
  id := "paper"
  execute _ _ intent :=
    (.ok (fill intent .filled intent.targetNotional "paper fill at reference (no market impact)"), ())

/-- The slippage of an intent, in basis points. -/
def slippageBps (intent : ExecutionIntent) : ℕ :=
  (hash32 (intent.intentId ++ ":slip")).toNat % 25

/-- Rejects about one intent in 64, and fills the others somewhat below their target. -/
def SimulatedExecutionAdapter : ExecutionAdapter Unit Unit where
  id := "simulated"
  execute _ _ intent :=
    if hash32 (intent.intentId ++ ":reject") &&& 0x3f = 0 then
      (.ok (fill intent .rejected (quantizeNotional 0) "simulated venue reject"), ())
    else
      let bps := slippageBps intent
      let filled := parseDecimal intent.targetNotional * (1 - (bps : ℚ) / 10000)
      (.ok (fill intent .filled (quantizeNotional filled)
        ("simulated fill, " ++ toString bps ++ "bps modeled slippage")), ())

/-! ## Fills within the target -/

/-- A fill stays within its intent: it is of the symbol and for the strategy of the intent, and a
quantized amount between zero and the target. -/
structure WithinTarget [Arithmetic] (intent : ExecutionIntent) (result : ExecutionResult) :
    Prop where
  symbol : result.symbol = intent.symbol
  strategy : result.lineage.executionStrategyId = intent.lineage.executionStrategyId
  quantized : isCanonicalDecimalString result.filledNotional notionalDp
  nonneg : 0 ≤ parseDecimal result.filledNotional
  le_target : parseDecimal result.filledNotional ≤ parseDecimal intent.targetNotional

section WithinTarget

variable {intent : ExecutionIntent}
  (hquantized : isCanonicalDecimalString intent.targetNotional notionalDp)
  (hpos : 0 < parseDecimal intent.targetNotional)
include hquantized hpos

theorem paper_withinTarget {result : ExecutionResult}
    (h : (PaperExecutionAdapter.execute () () intent).1 = .ok result) :
    WithinTarget intent result := by
  cases h
  exact ⟨rfl, rfl, hquantized, hpos.le, le_refl _⟩

theorem simulated_withinTarget {result : ExecutionResult}
    (h : (SimulatedExecutionAdapter.execute () () intent).1 = .ok result)
    (hfilled : result.status = .filled) : WithinTarget intent result := by
  unfold SimulatedExecutionAdapter at h
  dsimp only at h
  split at h
  · cases h
    cases hfilled
  · cases h
    have hbps : (slippageBps intent : ℚ) ≤ 25 := by
      have hlt : slippageBps intent < 25 := Nat.mod_lt _ (by decide)
      exact_mod_cast hlt.le
    -- At most 25 basis points, so the factor stays between zero and one.
    have hfactor : 0 ≤ 1 - (slippageBps intent : ℚ) / 10000 := by linarith
    have hle : parseDecimal intent.targetNotional * (1 - (slippageBps intent : ℚ) / 10000) ≤
        parseDecimal intent.targetNotional := by
      apply mul_le_of_le_one_right hpos.le
      have hcast : (0 : ℚ) ≤ slippageBps intent := Nat.cast_nonneg _
      linarith
    refine ⟨rfl, rfl, isCanonicalDecimalString_quantize (by decide) _, ?_, ?_⟩
    · show 0 ≤ parseDecimal (quantizeNotional _)
      rw [quantizeNotional, parseDecimal_quantize (by decide)]
      exact roundTo_nonneg (mul_nonneg hpos.le hfactor)
    · -- rounding is monotone, and the target is on the grid already
      show parseDecimal (quantizeNotional _) ≤ _
      rw [quantizeNotional, parseDecimal_quantize (by decide)]
      calc roundTo notionalDp
            (parseDecimal intent.targetNotional * (1 - (slippageBps intent : ℚ) / 10000))
          ≤ roundTo notionalDp (parseDecimal intent.targetNotional) := roundTo_mono _ hle
        _ = parseDecimal intent.targetNotional := roundTo_eq_self (parseDecimal_mem_grid hquantized)

end WithinTarget

end NexusQuant.Execution
