import NexusQuant.Core
import NexusQuant.Market.State

/-!
# Reconciliation

`reconcile.ts`: the broker side and the portfolio side must agree on every symbol, in notional up
to a tolerance and in side.
-/

namespace NexusQuant.Market

open Execution

def PositionSide.text : PositionSide → String
  | .long => "LONG"
  | .short => "SHORT"
  | .flat => "FLAT"

def PositionSide.ofExecution : ExecutionSide → PositionSide
  | .long => .long
  | .short => .short

def ReconciliationVerdict.isOk : ReconciliationVerdict → Bool
  | .ok _ => true
  | .failed .. => false

section Reconcile

variable [A : Arithmetic]

/-- `DEFAULT_RECONCILIATION_TOLERANCE`: one cent. -/
def defaultReconciliationTolerance : ℚ := A.rounded (1 / 100)

/-- The mismatch of one symbol, if there is one. -/
def reconcileSymbol (tolerance : ℚ) (symbol : String) (bPos : Option Position)
    (pPos : Option PortfolioPosition) : Option ReconciliationMismatch :=
  let bNotional := (bPos.map positionNotional).getD 0
  let pNotional := (pPos.map fun p => parseDecimal p.notional).getD 0
  let bFlat := bNotional ≤ tolerance
  let pFlat := pNotional ≤ tolerance
  let bSide := if bFlat then .flat else (bPos.map positionSide).getD .flat
  let pSide := if pFlat then .flat else (pPos.map fun p => .ofExecution p.side).getD .flat
  let notionalGap := abs (A.rounded (bNotional - pNotional))
  let sideMismatch := ¬bFlat ∧ ¬pFlat ∧ bSide ≠ pSide
  if notionalGap > tolerance ∨ sideMismatch then
    some {
      symbol
      brokerNotional := quantizeNotional bNotional
      brokerSide := bSide
      portfolioNotional := quantizeNotional pNotional
      portfolioSide := pSide
      detail :=
        if sideMismatch then
          "side " ++ bSide.text ++ " (broker) != " ++ pSide.text ++ " (portfolio)"
        else "notional gap " ++ DecimalText.toFixed 2 notionalGap ++ " > tolerance " ++
          ratText tolerance }
  else none

def reconcile (broker : MarketState) (portfolio : PortfolioState) (tolerance : ℚ) :
    ReconciliationVerdict :=
  let symbols := (broker.positions.keys ++ portfolio.positions.keys).eraseDups
  let mismatches := (symbols.insertionSort fun s t => Utf16.encode s ≤ Utf16.encode t).filterMap fun symbol =>
    reconcileSymbol tolerance symbol (broker.positions.get? symbol)
      (portfolio.positions.get? symbol)
  if mismatches = [] then .ok symbols.length
  else .failed symbols.length mismatches
    (toString mismatches.length ++ " symbol(s) failed broker<->portfolio reconciliation")

theorem isOk_reconcile {broker : MarketState} {portfolio : PortfolioState} {tolerance : ℚ} :
    (reconcile broker portfolio tolerance).isOk ↔
      ∀ symbol, symbol ∈ broker.positions.keys ∨ symbol ∈ portfolio.positions.keys →
        reconcileSymbol tolerance symbol (broker.positions.get? symbol)
          (portfolio.positions.get? symbol) = none := by
  have hmem : ∀ symbol, symbol ∈ ((broker.positions.keys ++ portfolio.positions.keys).eraseDups
      |>.insertionSort fun s t => Utf16.encode s ≤ Utf16.encode t) ↔
        symbol ∈ broker.positions.keys ∨ symbol ∈ portfolio.positions.keys := by
    intro symbol
    rw [(List.perm_insertionSort _ _).mem_iff, List.mem_eraseDups, List.mem_append]
  unfold reconcile
  dsimp only
  split
  · rename_i h
    refine ⟨fun _ symbol hsymbol => ?_, fun _ => rfl⟩
    exact List.filterMap_eq_nil_iff.mp h symbol ((hmem symbol).mpr hsymbol)
  · rename_i h
    refine ⟨nofun, fun hall => absurd ?_ h⟩
    exact List.filterMap_eq_nil_iff.mpr fun symbol hsymbol => hall symbol ((hmem symbol).mp hsymbol)

end Reconcile

end NexusQuant.Market
