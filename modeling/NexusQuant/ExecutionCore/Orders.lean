import NexusQuant.ExecutionCore.Types

/-!
# Orders, fills and the position

`orders.ts`, `fills.ts` and `positions.ts` of the execution core.  The three files keep three books:
the running total of an order, the list of fill records, and the net position.  Each has its own
clamping, so the lemmas here are stated book by book; that the books agree is a property of runs.
-/

namespace NexusQuant.ExecutionCore

open Rounding

/-! ## Orders (`orders.ts`) -/

/-- `ORDER_TRANSITIONS`. -/
def orderTransitions : OrderStatus → List OrderStatus
  | .notCreated => [.planned, .rejected, .failed]
  | .planned => [.ready, .cancelled, .rejected, .expired, .failed]
  | .ready => [.submitted, .cancelled, .rejected, .expired, .failed]
  | .submitted => [.acknowledged, .rejected, .cancelled, .expired, .failed]
  | .acknowledged => [.partiallyFilled, .filled, .cancelled, .rejected, .expired, .failed]
  | .partiallyFilled => [.partiallyFilled, .filled, .cancelled, .failed]
  | .filled => []
  | .cancelled => []
  | .rejected => []
  | .expired => []
  | .failed => []

def canTransitionOrder (src dst : OrderStatus) : Bool := (orderTransitions src).contains dst

def sideForRole (direction : SignalDecision) (role : OrderRole) : OrderSide :=
  if role = .entry then
    if direction = .long then .buy else .sell
  else
    if direction = .long then .sell else .buy

structure MakeOrderArgs where
  orderId : String
  planId : String
  intentId : String
  symbol : String
  direction : SignalDecision
  role : OrderRole
  type : OrderType
  price : Option JsNumber
  quantity : Option ℚ
  now : ℤ

def makeOrder (a : MakeOrderArgs) : ExecutionOrder where
  orderId := a.orderId
  planId := a.planId
  intentId := a.intentId
  symbol := a.symbol
  side := sideForRole a.direction a.role
  role := a.role
  type := a.type
  price := a.price
  quantity := a.quantity
  status := .planned
  filledQuantity := 0
  avgFillPrice := none
  provenance := if a.price = none then .unavailable else .verbatim
  reason := a.role.text ++ " order planned"
  createdAt := a.now
  updatedAt := a.now

/-- Every caller relies on the default reason. -/
def transitionOrder (order : ExecutionOrder) (dst : OrderStatus) (now : ℤ) : ExecutionOrder :=
  if canTransitionOrder order.status dst then
    { order with status := dst, updatedAt := now, reason := "→ " ++ dst.text }
  else order

def applyFillToOrder (order : ExecutionOrder) (price quantity : JsNumber) (now : ℤ) :
    ExecutionOrder :=
  let target := order.quantity
  let priorQty := order.filledQuantity
  let addQty := JsNumber.max (.fin 0) quantity
  -- What exceeds the ordered quantity is dropped here, and only here.
  let newFilled : JsNumber :=
    match target with
    | none => .fin priorQty + addQty
    | some t => JsNumber.min (.fin t) (.fin priorQty + addQty)
  let actuallyAdded := newFilled - .fin priorQty
  let priorNotional := order.avgFillPrice.getD 0 * priorQty
  -- The average is weighted by what the order takes, not by what the venue reports.
  let avg :=
    if JsNumber.lt (.fin 0) newFilled then
      some (JsNumber.round ((.fin priorNotional + price * actuallyAdded) / newFilled) 8)
    else none
  let complete :=
    match target with
    | none => false
    | some t => JsNumber.le (.fin t) newFilled
  let nextStatus : OrderStatus := if complete then .filled else .partiallyFilled
  { order with
    status := if canTransitionOrder order.status nextStatus then nextStatus else order.status
    filledQuantity := JsNumber.round newFilled 8
    avgFillPrice := avg
    updatedAt := now
    reason := if complete then "order filled" else "order partially filled" }

/-- The statuses an order can no longer leave. -/
def OrderStatus.isTerminal : OrderStatus → Bool
  | .filled | .cancelled | .rejected | .expired | .failed => true
  | _ => false

@[simp] theorem transitionOrder_orderId (o : ExecutionOrder) (dst : OrderStatus) (now : ℤ) :
    (transitionOrder o dst now).orderId = o.orderId := by
  unfold transitionOrder; split <;> rfl

@[simp] theorem transitionOrder_role (o : ExecutionOrder) (dst : OrderStatus) (now : ℤ) :
    (transitionOrder o dst now).role = o.role := by
  unfold transitionOrder; split <;> rfl

@[simp] theorem transitionOrder_quantity (o : ExecutionOrder) (dst : OrderStatus) (now : ℤ) :
    (transitionOrder o dst now).quantity = o.quantity := by
  unfold transitionOrder; split <;> rfl

@[simp] theorem transitionOrder_filledQuantity (o : ExecutionOrder) (dst : OrderStatus) (now : ℤ) :
    (transitionOrder o dst now).filledQuantity = o.filledQuantity := by
  unfold transitionOrder; split <;> rfl

theorem transitionOrder_status (o : ExecutionOrder) (dst : OrderStatus) (now : ℤ) :
    (transitionOrder o dst now).status =
      if canTransitionOrder o.status dst then dst else o.status := by
  unfold transitionOrder; split <;> rfl

@[simp] theorem applyFillToOrder_orderId (o : ExecutionOrder) (p q : JsNumber) (now : ℤ) :
    (applyFillToOrder o p q now).orderId = o.orderId := rfl

@[simp] theorem applyFillToOrder_role (o : ExecutionOrder) (p q : JsNumber) (now : ℤ) :
    (applyFillToOrder o p q now).role = o.role := rfl

@[simp] theorem applyFillToOrder_quantity (o : ExecutionOrder) (p q : JsNumber) (now : ℤ) :
    (applyFillToOrder o p q now).quantity = o.quantity := rfl

/-- The fill brings the order to its full quantity. -/
def completesOrder (o : ExecutionOrder) (q : JsNumber) : Bool :=
  match o.quantity with
  | none => false
  | some t => JsNumber.le (.fin t) (JsNumber.min (.fin t) (.fin o.filledQuantity + JsNumber.max (.fin 0) q))

theorem applyFillToOrder_status (o : ExecutionOrder) (p q : JsNumber) (now : ℤ) :
    (applyFillToOrder o p q now).status =
      if canTransitionOrder o.status (if completesOrder o q then .filled else .partiallyFilled) then
        (if completesOrder o q then .filled else .partiallyFilled)
      else o.status := by
  unfold applyFillToOrder completesOrder
  cases o.quantity <;> rfl

theorem applyFillToOrder_filledQuantity_mem_grid (o : ExecutionOrder) (p q : JsNumber) (now : ℤ) :
    (applyFillToOrder o p q now).filledQuantity ∈ grid 8 :=
  JsNumber.round_mem_grid _ 8

/-- A decimal fill that does not exceed what is left of the order is added as it is. -/
theorem applyFillToOrder_filledQuantity {o : ExecutionOrder} (p : JsNumber) {q t : ℚ} (now : ℤ)
    (hquantity : o.quantity = some t) (hfilled : o.filledQuantity ∈ grid 8) (hgrid : q ∈ grid 8)
    (hpos : 0 < q) (hroom : o.filledQuantity + q ≤ t) :
    (applyFillToOrder o p (.fin q) now).filledQuantity = o.filledQuantity + q := by
  have hsum : o.filledQuantity + q ∈ grid 8 := (grid 8).add_mem hfilled hgrid
  simp only [applyFillToOrder, hquantity, JsNumber.fin_max, max_eq_right hpos.le, JsNumber.fin_add,
    JsNumber.fin_min, min_eq_right hroom, JsNumber.round_fin]
  exact roundTo_eq_self hsum

/-! ## Fills (`fills.ts`) -/

structure MakeFillArgs where
  order : ExecutionOrder
  fillSeq : ℕ
  price : JsNumber
  quantity : JsNumber
  cumulativeQuantity : ℚ
  now : ℤ

def makeFill (a : MakeFillArgs) : ExecutionFill :=
  let qty := JsNumber.max (.fin 0) a.quantity
  -- The record keeps the reported quantity, also where the order takes less.
  let status : FillStatus :=
    if JsNumber.le qty (.fin 0) then .void
    else match a.order.quantity with
      | some target => if target ≤ a.cumulativeQuantity then .full else .partialFill
      | none => .partialFill
  { fillId := makeFillId a.order.orderId a.fillSeq
    orderId := a.order.orderId
    intentId := a.order.intentId
    symbol := a.order.symbol
    side := a.order.side
    price := JsNumber.round a.price 8
    quantity := JsNumber.round qty 8
    status
    cumulativeQuantity := roundTo 8 a.cumulativeQuantity
    provenance := .derived
    ts := a.now }

def nextFillSeq (fills : List ExecutionFill) (orderId : String) : ℕ :=
  (fills.filter (fun f => f.orderId = orderId)).length

theorem makeFill_quantity {a : MakeFillArgs} {q : ℚ} (hq : a.quantity = .fin q)
    (hgrid : q ∈ grid 8) (hpos : 0 < q) : (makeFill a).quantity = q := by
  simp only [makeFill, hq, JsNumber.fin_max, max_eq_right hpos.le, JsNumber.round_fin]
  exact roundTo_eq_self hgrid

theorem makeFill_cumulativeQuantity {a : MakeFillArgs} (hgrid : a.cumulativeQuantity ∈ grid 8) :
    (makeFill a).cumulativeQuantity = a.cumulativeQuantity :=
  roundTo_eq_self hgrid

/-! ## The position (`positions.ts`) -/

def sign : SignalDecision → ℚ
  | .long => 1
  | .short => -1
  | .flat => 0

def emptyPosition (intent : ExecutionIntent) : ExecutionPosition where
  positionId := makePositionId intent.intentId
  intentId := intent.intentId
  symbol := intent.symbol
  direction := intent.direction
  status := .none
  quantity := 0
  entryQuantity := 0
  closedQuantity := 0
  avgEntryPrice := none
  stop := intent.stop
  targets := intent.targets
  openedAt := none
  closedAt := none
  provenance := if intent.stop = none then .unavailable else .verbatim

def openPosition (intent : ExecutionIntent) (filledQuantity : ℚ) (avgEntryPrice : Option ℚ)
    (now : ℤ) : ExecutionPosition :=
  let qty := max 0 (roundTo 8 filledQuantity)
  { positionId := makePositionId intent.intentId
    intentId := intent.intentId
    symbol := intent.symbol
    direction := intent.direction
    -- A filled quantity that rounds to zero opens nothing.
    status := if 0 < qty then .opened else .opening
    quantity := roundTo 8 (sign intent.direction * qty)
    entryQuantity := qty
    closedQuantity := 0
    avgEntryPrice := avgEntryPrice.map (roundTo 8)
    stop := intent.stop
    targets := intent.targets
    openedAt := some now
    closedAt := none
    provenance := if intent.stop = none then .unavailable else .verbatim }

/-- What `reducePosition` takes off a position, before it is clamped to what remains. -/
def reduction (reduceQuantity : JsNumber) : ℚ := max 0 (JsNumber.round reduceQuantity 8)

def reducePosition (position : ExecutionPosition) (reduceQuantity : JsNumber) (now : ℤ) :
    ExecutionPosition :=
  let add := reduction reduceQuantity
  -- A reduction past the position closes it.
  let closed := min position.entryQuantity (roundTo 8 (position.closedQuantity + add))
  let remaining := roundTo 8 (position.entryQuantity - closed)
  { position with
    status := if remaining ≤ 0 then .closed else .reducing
    quantity := roundTo 8 (sign position.direction * remaining)
    closedQuantity := closed
    closedAt := if remaining ≤ 0 then some now else position.closedAt }

def closePosition (position : ExecutionPosition) (now : ℤ) : ExecutionPosition :=
  { position with
    status := .closed
    quantity := 0
    closedQuantity := position.entryQuantity
    closedAt := some now }

/-- The test the reducer makes before it touches a position. -/
def ExecutionPosition.isOpen (p : ExecutionPosition) : Bool :=
  p.status = .opened || p.status = .reducing

/-- The two quantities of a position are decimals with eight places, and no more is closed than was
entered. -/
structure ExecutionPosition.Decimal (p : ExecutionPosition) : Prop where
  entry : p.entryQuantity ∈ grid 8
  closed : p.closedQuantity ∈ grid 8
  closed_le : p.closedQuantity ≤ p.entryQuantity

theorem reduction_mem_grid (q : JsNumber) : reduction q ∈ grid 8 := by
  unfold reduction
  rcases max_choice 0 (JsNumber.round q 8) with h | h
  · rw [h]; exact (grid 8).zero_mem
  · rw [h]; exact JsNumber.round_mem_grid q 8

theorem reduction_fin {q : ℚ} (hgrid : q ∈ grid 8) (hpos : 0 < q) : reduction (.fin q) = q := by
  rw [reduction, JsNumber.round_fin, roundTo_eq_self hgrid, max_eq_right hpos.le]

theorem reducePosition_closedQuantity {p : ExecutionPosition} (hp : p.Decimal) (q : JsNumber)
    (now : ℤ) :
    (reducePosition p q now).closedQuantity =
      min p.entryQuantity (p.closedQuantity + reduction q) := by
  have hsum := (grid 8).add_mem hp.closed (reduction_mem_grid q)
  simp only [reducePosition, roundTo_eq_self hsum]

theorem reducePosition_decimal {p : ExecutionPosition} (hp : p.Decimal) (q : JsNumber) (now : ℤ) :
    (reducePosition p q now).Decimal := by
  have hclosed := reducePosition_closedQuantity hp q now
  refine ⟨hp.entry, ?_, ?_⟩
  · rw [hclosed]
    exact min_mem_grid hp.entry ((grid 8).add_mem hp.closed (reduction_mem_grid q))
  · rw [hclosed]
    exact min_le_left _ _

/-- What remains of the position after a reduction. -/
theorem reducePosition_remaining {p : ExecutionPosition} (hp : p.Decimal) (q : JsNumber) :
    roundTo 8 (p.entryQuantity - min p.entryQuantity (roundTo 8 (p.closedQuantity + reduction q))) =
      p.entryQuantity - min p.entryQuantity (p.closedQuantity + reduction q) := by
  have hsum := (grid 8).add_mem hp.closed (reduction_mem_grid q)
  rw [roundTo_eq_self hsum]
  exact roundTo_eq_self ((grid 8).sub_mem hp.entry (min_mem_grid hp.entry hsum))

/-- A reduction closes the position exactly when it reaches the entry quantity. -/
theorem reducePosition_status {p : ExecutionPosition} (hp : p.Decimal) (q : JsNumber) (now : ℤ) :
    (reducePosition p q now).status =
      if p.entryQuantity ≤ p.closedQuantity + reduction q then .closed else .reducing := by
  simp only [reducePosition, reducePosition_remaining hp]
  by_cases hclose : p.entryQuantity ≤ p.closedQuantity + reduction q
  · rw [if_pos hclose, min_eq_left hclose, sub_self, if_pos le_rfl]
  · have hlt := not_le.mp hclose
    rw [if_neg hclose, min_eq_right hlt.le, if_neg (by linarith)]

theorem reducePosition_quantity_of_closed {p : ExecutionPosition} (hp : p.Decimal) {q : JsNumber}
    {now : ℤ} (hclosed : (reducePosition p q now).status = .closed) :
    (reducePosition p q now).quantity = 0 := by
  rw [reducePosition_status hp] at hclosed
  have hclose : p.entryQuantity ≤ p.closedQuantity + reduction q := by
    by_contra hne
    rw [if_neg hne] at hclosed
    exact PositionStatus.noConfusion hclosed
  simp only [reducePosition, reducePosition_remaining hp, min_eq_left hclose, sub_self, mul_zero,
    roundTo_zero]

theorem openPosition_entryQuantity (intent : ExecutionIntent) {f : ℚ} (avg : Option ℚ) (now : ℤ)
    (hgrid : f ∈ grid 8) (hpos : 0 < f) : (openPosition intent f avg now).entryQuantity = f := by
  simp only [openPosition, roundTo_eq_self hgrid, max_eq_right hpos.le]

theorem openPosition_status {intent : ExecutionIntent} {f : ℚ} {avg : Option ℚ} {now : ℤ}
    (hgrid : f ∈ grid 8) (hpos : 0 < f) : (openPosition intent f avg now).status = .opened := by
  simp only [openPosition, roundTo_eq_self hgrid, max_eq_right hpos.le, if_pos hpos]

theorem openPosition_decimal {intent : ExecutionIntent} {f : ℚ} {avg : Option ℚ} {now : ℤ}
    (hgrid : f ∈ grid 8) (hpos : 0 < f) : (openPosition intent f avg now).Decimal := by
  have hentry := openPosition_entryQuantity intent avg now hgrid hpos
  refine ⟨?_, (grid 8).zero_mem, ?_⟩
  · rw [hentry]; exact hgrid
  · rw [hentry]; exact hpos.le

end NexusQuant.ExecutionCore
