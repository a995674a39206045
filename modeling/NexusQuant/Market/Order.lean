import NexusQuant.Lib.Fallible
import NexusQuant.Market.State

/-!
# Orders

`order.ts`: the order derived from an intent, and the state machine that folds the broker's event
stream into a snapshot.  The fold refuses a stream with a gap, an illegal transition or
inconsistent fills; it reads the quantities of a fill as numbers, and takes the texts over as they
are.
-/

namespace NexusQuant.Market

open Execution Fallible

def OrderSide.text : OrderSide → String
  | .buy => "BUY"
  | .sell => "SELL"

/-- The sixteen hexadecimal digits that are kept of the SHA-256 digest of a text. -/
abbrev Digest := Bytes → { s : String // s.length = 16 }

structure DeriveOrderInput where
  intentId : String
  symbol : String
  side : OrderSide
  qty : ℚ
  price : ℚ
  brokerId : String
  lineage : ExecutionLineage

def deriveOrder [Arithmetic] (digest : Digest) (input : DeriveOrderInput) : Order :=
  let qty := quantizeQty input.qty
  let price := quantizePrice input.price
  -- The keys of the hashed object are sorted.
  let canonical : Json := .obj [("brokerId", .str input.brokerId), ("intentId", .str input.intentId),
    ("price", .str price), ("qty", .str qty), ("side", .str input.side.text),
    ("symbol", .str input.symbol)]
  { orderId := (digest canonical.print).1
    intentId := input.intentId
    symbol := input.symbol
    side := input.side
    qty, price
    brokerId := input.brokerId
    lineage := input.lineage }

/-! ## The state machine -/

def OrderState.text : OrderState → String
  | .requested => "REQUESTED"
  | .submitted => "SUBMITTED"
  | .accepted => "ACCEPTED"
  | .partiallyFilled => "PARTIALLY_FILLED"
  | .filled => "FILLED"
  | .cancelled => "CANCELLED"
  | .rejected => "REJECTED"

/-- `STATE_OF`. -/
def OrderEventBody.state : OrderEventBody → OrderState
  | .requested => .requested
  | .submitted => .submitted
  | .accepted => .accepted
  | .partiallyFilled _ => .partiallyFilled
  | .filled _ => .filled
  | .cancelled _ => .cancelled
  | .rejected _ => .rejected

/-- `LEGAL_FROM`; nothing stands for the state before the first event. -/
def legalFrom : OrderState → List (Option OrderState)
  | .requested => [none]
  | .submitted => [some .requested]
  | .accepted => [some .submitted]
  | .partiallyFilled => [some .accepted, some .partiallyFilled]
  | .filled => [some .accepted, some .partiallyFilled]
  | .cancelled => [some .requested, some .submitted, some .accepted, some .partiallyFilled]
  | .rejected => [some .requested, some .submitted, some .accepted]

def isTerminal : Option OrderState → Bool
  | some .filled | some .cancelled | some .rejected => true
  | _ => false

def stateText (s : Option OrderState) : String := s.elim "START" OrderState.text

/-- The state of the fold: lifecycle state, filled quantity and fills so far. -/
structure Reduction where
  state : Option OrderState
  filled : ℚ
  fills : List Fill
deriving DecidableEq, Repr

section Reduce

variable [A : Arithmetic]

/-- The tolerance of the comparisons with the ordered quantity. -/
def orderEpsilon : ℚ := A.rounded (1 / 10 ^ 9)

/-- A cumulative quantity past the ordered one. -/
def Overfills (orderedQty cum : ℚ) : Prop := cum > A.rounded (orderedQty + orderEpsilon)

/-- A cumulative quantity that is all of the ordered one. -/
def Completes (orderedQty cum : ℚ) : Prop := |A.rounded (cum - orderedQty)| ≤ orderEpsilon

instance (orderedQty cum : ℚ) : Decidable (Overfills orderedQty cum) :=
  inferInstanceAs (Decidable (_ > _))

instance (orderedQty cum : ℚ) : Decidable (Completes orderedQty cum) :=
  inferInstanceAs (Decidable (_ ≤ _))

/-- The checks on one fill. -/
def checkFill (order : Order) (filled : ℚ) (body : OrderEventBody) (fill : OrderFillData) :
    Except String Unit :=
  let orderedQty := parseDecimal order.qty
  let fq := parseDecimal fill.fillQty
  let cum := parseDecimal fill.cumQty
  let expectedCum := quantizeQty (A.rounded (filled + fq))
  -- The running total is compared as a canonical text, the ordered quantity with a tolerance.
  if ¬fq > 0 then
    .error ("order " ++ order.orderId ++ ": non-positive fillQty " ++ fill.fillQty)
  else if quantizeQty cum ≠ expectedCum then
    .error ("order " ++ order.orderId ++ ": cumQty " ++ fill.cumQty ++ " != running " ++ expectedCum)
  else if Overfills orderedQty cum then
    .error ("order " ++ order.orderId ++ ": cumQty " ++ fill.cumQty ++ " exceeds ordered " ++
      order.qty ++ " (overfill)")
  else if body.state = .filled ∧ ¬Completes orderedQty cum then
    .error ("order " ++ order.orderId ++ ": ORDER_FILLED at cumQty " ++ fill.cumQty ++
      " != ordered " ++ order.qty)
  else if body.state = .partiallyFilled ∧ Completes orderedQty cum then
    .error ("order " ++ order.orderId ++
      ": ORDER_PARTIALLY_FILLED completes the order (use ORDER_FILLED)")
  else .ok ()

def reduceEvent (order : Order) (r : Reduction) (i : ℕ) (e : OrderEvent) : Except String Reduction :=
  if e.seq ≠ i then
    .error ("order " ++ order.orderId ++ ": event " ++ toString i ++ " has seq " ++ toString e.seq ++
      " (expected " ++ toString i ++ ") — non-monotonic stream")
  else if e.orderId ≠ order.orderId then
    .error ("order " ++ order.orderId ++ ": event " ++ toString i ++ " belongs to order " ++ e.orderId)
  else if isTerminal r.state then
    .error ("order " ++ order.orderId ++ ": event " ++ e.body.kind ++ " after terminal state " ++
      stateText r.state)
  else if r.state ∉ legalFrom e.body.state then
    .error ("order " ++ order.orderId ++ ": illegal transition " ++ stateText r.state ++ " -> " ++
      e.body.state.text ++ " (" ++ e.body.kind ++ ")")
  -- The checks above look at the number, the order and the kind of the event, not at its symbol or
  -- its side.
  else match e.body.fill? with
    | none => .ok { r with state := some e.body.state }
    | some fill =>
        (checkFill order r.filled e.body fill).map fun _ =>
          { state := some e.body.state
            filled := A.rounded (r.filled + parseDecimal fill.fillQty)
            fills := r.fills ++ e.fill?.toList }

/-- The events from position `i` on. -/
def reduceEvents (order : Order) (i : ℕ) (r : Reduction) : List OrderEvent → Except String Reduction
  | [] => .ok r
  | e :: es => (reduceEvent order r i e).bind fun r => reduceEvents order (i + 1) r es

def reduceOrder (order : Order) (events : List OrderEvent) : Except String OrderSnapshot :=
  (reduceEvents order 0 ⟨none, 0, []⟩ events).bind fun r =>
    -- The fold ends in no state exactly on the empty stream.
    match r.state with
    | none => .error ("order " ++ order.orderId ++ ": empty event stream")
    | some state =>
        let notional := Arithmetic.sumOf
          (r.fills.map fun f => A.rounded (parseDecimal f.qty * parseDecimal f.price))
        .ok {
          orderId := order.orderId
          symbol := order.symbol
          side := order.side
          orderedQty := quantizeQty (parseDecimal order.qty)
          state
          filledQty := quantizeQty r.filled
          avgFillPrice :=
            if r.filled > 0 then quantizePrice (A.rounded (notional / r.filled)) else quantizePrice 0
          fills := r.fills
          events }

/-! ## What an accepted stream looks like -/

theorem reduceEvent_ok {order : Order} {r r' : Reduction} {i : ℕ} {e : OrderEvent}
    (h : reduceEvent order r i e = .ok r') :
    e.orderId = order.orderId ∧ r'.fills = r.fills ++ e.fill?.toList := by
  unfold reduceEvent at h
  split_ifs at h with hseq horder hterminal hlegal
  refine ⟨not_not.mp horder, ?_⟩
  split at h
  · rename_i hfill
    cases h
    rw [OrderEvent.fill?, hfill]
    exact (List.append_nil _).symm
  · obtain ⟨_, -, rfl⟩ := map_eq_ok.mp h
    rfl

theorem reduceEvents_ok {order : Order} {i : ℕ} {r r' : Reduction} {events : List OrderEvent}
    (h : reduceEvents order i r events = .ok r') :
    (∀ e ∈ events, e.orderId = order.orderId) ∧
      r'.fills = r.fills ++ events.filterMap OrderEvent.fill? := by
  induction events generalizing i r with
  | nil =>
      cases h
      exact ⟨by simp, (List.append_nil _).symm⟩
  | cons e es ih =>
      obtain ⟨r₁, he, hes⟩ := bind_eq_ok.mp h
      obtain ⟨horder, hfills⟩ := reduceEvent_ok he
      obtain ⟨hall, hrest⟩ := ih hes
      refine ⟨List.forall_mem_cons.mpr ⟨horder, hall⟩, ?_⟩
      rw [hrest, hfills, List.append_assoc]
      -- An event without a fill adds nothing on either side.
      cases hfill : e.fill? with
      | none => rw [List.filterMap_cons_none hfill]; rfl
      | some f => rw [List.filterMap_cons_some hfill]; rfl

/-- The snapshot of an accepted stream lists exactly the fills of its events, and every event is one
of the order. -/
theorem reduceOrder_ok {order : Order} {events : List OrderEvent} {snapshot : OrderSnapshot}
    (h : reduceOrder order events = .ok snapshot) :
    (∀ e ∈ events, e.orderId = order.orderId) ∧
      snapshot.fills = events.filterMap OrderEvent.fill? := by
  obtain ⟨r, hr, hsnapshot⟩ := bind_eq_ok.mp h
  obtain ⟨hall, hfills⟩ := reduceEvents_ok hr
  refine ⟨hall, ?_⟩
  split at hsnapshot
  · cases hsnapshot
  · cases hsnapshot
    rw [hfills]
    rfl

end Reduce

end NexusQuant.Market
