import NexusQuant.Execution.Adapters
import NexusQuant.Market.Order

/-!
# Brokers

`broker.ts`: the two deterministic brokers.  Both answer an order with a stream of events under the
order's own identity; the simulated one draws a rejection, the number of partial fills and their
slippage from the order id.
-/

namespace NexusQuant.Market

open Execution

/-- Round a quantity down to eight decimals. -/
def floor8 [A : Arithmetic] (n : ℚ) : ℚ := A.rounded (⌊A.rounded (n * 10 ^ 8)⌋ / 10 ^ 8)

def baseEvent (order : Order) (seq : ℕ) (body : OrderEventBody) : OrderEvent :=
  { seq, orderId := order.orderId, intentId := order.intentId, symbol := order.symbol
    side := order.side, brokerId := order.brokerId, lineage := order.lineage, body }

/-- Adverse slippage: a buy pays up, a sell receives less. -/
def slippedPrice [A : Arithmetic] (price : ℚ) (side : OrderSide) (bps : ℕ) : ℚ :=
  match side with
  | .buy => A.rounded (price * A.rounded (1 + A.rounded (bps / 10000)))
  | .sell => A.rounded (price * A.rounded (1 - A.rounded (bps / 10000)))

namespace PaperBroker

def id : String := "paper"

/-- One full fill at the reference price. -/
def place (order : Order) : List OrderEvent :=
  [baseEvent order 0 .requested, baseEvent order 1 .submitted, baseEvent order 2 .accepted,
    baseEvent order 3 (.filled ⟨order.qty, order.price, order.qty⟩)]

end PaperBroker

namespace SimulatedBroker

def id : String := "simulated"

section Place

variable [A : Arithmetic]

/-- The fills from number `i` on, `cum` being filled already; the last one takes the remainder. -/
def fills (order : Order) (chunk : ℚ) : ℕ → ℕ → ℚ → List OrderEvent
  | 0, _, _ => []
  | left + 1, i, cum =>
      let fq := if left = 0 then A.rounded (parseDecimal order.qty - cum) else chunk
      let bps := (hash32 (order.orderId ++ ":slip:" ++ toString i)).toNat % 25
      let fillPrice := quantizePrice (slippedPrice (parseDecimal order.price) order.side bps)
      let fill : OrderFillData := ⟨quantizeQty fq, fillPrice, quantizeQty (A.rounded (cum + fq))⟩
      baseEvent order (3 + i) (if left = 0 then .filled fill else .partiallyFilled fill) ::
        fills order chunk left (i + 1) (A.rounded (cum + fq))

def place (order : Order) : List OrderEvent :=
  let requested := baseEvent order 0 .requested
  let submitted := baseEvent order 1 .submitted
  if hash32 (order.orderId ++ ":reject") &&& 0x3f = 0 then
    [requested, submitted, baseEvent order 2 (.rejected "simulated venue reject")]
  else
    let accepted := baseEvent order 2 .accepted
    let drawn := 1 + (hash32 (order.orderId ++ ":parts")).toNat % 3
    let chunk := floor8 (A.rounded (parseDecimal order.qty / drawn))
    let parts := if drawn > 1 ∧ ¬chunk > 0 then 1 else drawn
    requested :: submitted :: accepted :: fills order chunk parts 0 0

theorem fills_symbol (order : Order) (chunk : ℚ) (left i : ℕ) (cum : ℚ) :
    ∀ e ∈ fills order chunk left i cum, e.symbol = order.symbol := by
  induction left generalizing i cum with
  | zero => simp [fills]
  | succ left ih => exact List.forall_mem_cons.mpr ⟨rfl, ih _ _⟩

end Place

end SimulatedBroker

/-- A deterministic broker: one of the two. -/
inductive Broker where
  | paper | simulated
deriving DecidableEq, Repr

def Broker.id : Broker → String
  | .paper => PaperBroker.id
  | .simulated => SimulatedBroker.id

def Broker.place [Arithmetic] : Broker → Order → List OrderEvent
  | .paper => PaperBroker.place
  | .simulated => SimulatedBroker.place

/-- Every event of a deterministic broker carries the order's own symbol. -/
theorem Broker.place_symbol [Arithmetic] (broker : Broker) (order : Order) :
    ∀ e ∈ broker.place order, e.symbol = order.symbol := by
  cases broker with
  | paper =>
      intro e he
      simp only [Broker.place, PaperBroker.place, List.mem_cons, List.not_mem_nil, or_false] at he
      rcases he with rfl | rfl | rfl | rfl <;> rfl
  | simulated =>
      unfold Broker.place SimulatedBroker.place
      dsimp only
      split
      · intro e he
        simp only [List.mem_cons, List.not_mem_nil, or_false] at he
        rcases he with rfl | rfl | rfl <;> rfl
      · refine List.forall_mem_cons.mpr ⟨rfl, List.forall_mem_cons.mpr ⟨rfl, ?_⟩⟩
        exact List.forall_mem_cons.mpr ⟨rfl, SimulatedBroker.fills_symbol _ _ _ _ _⟩

end NexusQuant.Market
