import NexusQuant.ExecutionCore.Exposure

/-!
# Fill conservation

A fill is booked three times: as a fill record with the quantity of the command, on the order with
the quantity clamped to what is left of the order, and on the position with the quantity clamped to
what is left of the position.  The three agree as long as no clamp is reached and no OPEN restarts
the position; `FillsFit` is that condition on one command, and `SplitsEvenly` the condition on the
intent under which no target order is planned with a negative quantity.
-/

namespace NexusQuant.ExecutionCore

open Rounding Run

/-! ## The planned quantities -/

/-- The equal parts of the targets do not exceed the position size. -/
def SplitsEvenly (intent : ExecutionIntent) : Prop :=
  ∀ t ∈ num intent.positionSize,
    roundTo 8 (t / intent.targets.length) * (intent.targets.length - 1 : ℕ) ≤ t

instance (intent : ExecutionIntent) : Decidable (SplitsEvenly intent) := by
  dsimp only [SplitsEvenly]; infer_instance

theorem splitQuantity_mem {t : ℚ} {n : ℕ} (hpos : 0 ≤ t)
    (hsplit : roundTo 8 (t / n) * (n - 1 : ℕ) ≤ t) {i : ℕ} (hi : i < n) :
    ∃ x, ((splitQuantity (some t) n)[i]?).getD none = some x ∧ 0 ≤ x := by
  have hper : 0 ≤ roundTo 8 (t / n) := roundTo_nonneg (div_nonneg hpos (Nat.cast_nonneg n))
  have hn : n ≠ 0 := by omega
  simp only [splitQuantity, if_neg hn]
  -- The equal parts are not negative; the last one by the condition.
  by_cases hlast : i < n - 1
  · refine ⟨roundTo 8 (t / n), ?_, hper⟩
    rw [List.getElem?_append_left (by simpa using hlast)]
    simp [hlast]
  · obtain rfl : i = n - 1 := by omega
    refine ⟨roundTo 8 (t - roundTo 8 (t / n) * (n - 1 : ℕ)), ?_, roundTo_nonneg (by linarith)⟩
    rw [List.getElem?_append_right (by simp)]
    simp

/-- Under `SplitsEvenly` every order is planned with a quantity that is not negative. -/
theorem buildOrders_quantity {intent : ExecutionIntent} {t : ℚ}
    (hsize : num intent.positionSize = some t) (hpos : 0 < t) (hsplit : SplitsEvenly intent)
    {o : ExecutionOrder} (ho : o ∈ buildOrders intent) :
    ∃ x, o.quantity = some x ∧ 0 ≤ x := by
  simp only [buildOrders, hsize, List.mem_cons, List.mem_mapIdx] at ho
  rcases ho with rfl | rfl | ⟨i, hi, rfl⟩
  · exact ⟨t, rfl, hpos.le⟩
  · exact ⟨t, rfl, hpos.le⟩
  · exact splitQuantity_mem hpos.le (hsplit t hsize) hi

/-! ## Runs that remember a manual reduction -/

/-- An execution and whether a REDUCE, CLOSE, CANCEL or KILL has been applied to it. -/
structure Traced where
  state : ExecutionState
  manual : Bool

/-- The commands that take the position down without a fill. -/
def ExecutionCommand.isManual : ExecutionCommand → Bool
  | .reduce _ _ _ | .close _ _ | .cancel _ _ | .kill _ => true
  | _ => false

def tracedStep (t : Traced) (c : ExecutionCommand) : Traced where
  state := (reduceExecution t.state c).state
  manual := t.manual || ((reduceExecution t.state c).ok && c.isManual)

def tracedStart (intent : ExecutionIntent) : Traced := ⟨start intent, false⟩

/-- The fill quantity is a multiple of `1e-8`. -/
def DecimalFill : ExecutionCommand → Prop
  | .fill _ _ _ quantity => ∃ q ∈ grid 8, quantity = .fin q
  | _ => True

/-- What is left of the order, and of the position, takes the fill. -/
def FillsFit (t : Traced) : ExecutionCommand → Prop
  | .fill _ orderId price quantity =>
      ∀ order ∈ t.state.orders.find? (fun o => o.orderId = orderId),
        price.isFinite → JsNumber.le quantity (.fin 0) = false →
        if order.role = .entry then
          t.state.status = .acknowledged ∨ t.state.status = .partiallyFilled →
            ∀ x ∈ order.quantity, JsNumber.le (.fin order.filledQuantity + quantity) (.fin x)
        else whileOpen t.state.status →
          (∀ x ∈ order.quantity, JsNumber.le (.fin order.filledQuantity + quantity) (.fin x)) ∧
          (t.manual = false → ∀ p ∈ t.state.position,
            JsNumber.le (.fin p.closedQuantity + quantity) (.fin p.entryQuantity))
  | .open _ => t.state.status = .reducing → t.manual
  | _ => True

instance (t : Traced) : DecidablePred (FillsFit t)
  | .fill _ _ _ _ => by unfold FillsFit; infer_instance
  | .open _ => inferInstanceAs (Decidable (t.state.status = .reducing → t.manual))
  | .plan _ | .arm _ | .submit _ | .acknowledge _ | .reduce _ _ _ | .close _ _ | .cancel _ _
  | .reject _ _ | .expire _ | .fail _ _ | .kill _ | .runtimeUnhealthy _ =>
      inferInstanceAs (Decidable True)

/-! ## The ledgers -/

/-- The fills recorded for an order. -/
def fillsOf (fills : List ExecutionFill) (orderId : String) : List ExecutionFill :=
  fills.filter fun f => f.orderId = orderId

def fillTotal (fills : List ExecutionFill) (orderId : String) : ℚ :=
  ((fillsOf fills orderId).map (·.quantity)).sum

/-- What the stop and the targets have filled. -/
def protectiveFilled (orders : List ExecutionOrder) : ℚ :=
  (orders.map fun o => if o.role = .entry then 0 else o.filledQuantity).sum

/-- The record, the order and the last fill agree, within the quantity of the order. -/
structure Booked (fills : List ExecutionFill) (o : ExecutionOrder) : Prop where
  total : fillTotal fills o.orderId = o.filledQuantity
  bound : ∃ x, o.quantity = some x ∧ o.filledQuantity ≤ x
  last : ∀ f ∈ (fillsOf fills o.orderId).getLast?, f.cumulativeQuantity = o.filledQuantity

/-- The order ledger, the fills before OPEN, and, until a manual reduction, the position ledger. -/
structure Ledgers (b : Books) (manual : Bool) : Prop where
  booked : ∀ o ∈ b.orders, Booked b.fills o
  unopened : beforeOpen b.status → (∀ p ∈ b.position, p.closedQuantity = 0) ∧
    ∀ o ∈ b.orders, o.role ≠ .entry → o.filledQuantity = 0
  position : manual = false → ∀ p ∈ b.position, p.closedQuantity = protectiveFilled b.orders

theorem fillsOf_append_self (fills : List ExecutionFill) (f : ExecutionFill) :
    fillsOf (fills ++ [f]) f.orderId = fillsOf fills f.orderId ++ [f] := by
  simp [fillsOf]

theorem fillsOf_append_other (fills : List ExecutionFill) {f : ExecutionFill} {id : String}
    (hne : f.orderId ≠ id) : fillsOf (fills ++ [f]) id = fillsOf fills id := by
  simp [fillsOf, hne]

theorem Booked.transitionOrder {fills : List ExecutionFill} {o : ExecutionOrder}
    (h : Booked fills o) (dst : OrderStatus) (now : ℤ) :
    Booked fills (transitionOrder o dst now) := by
  refine ⟨?_, ?_, ?_⟩
  · rw [transitionOrder_orderId, transitionOrder_filledQuantity]; exact h.total
  · rw [transitionOrder_quantity, transitionOrder_filledQuantity]; exact h.bound
  · rw [transitionOrder_orderId, transitionOrder_filledQuantity]; exact h.last

theorem Booked.append_other {fills : List ExecutionFill} {o : ExecutionOrder} (h : Booked fills o)
    {f : ExecutionFill} (hne : f.orderId ≠ o.orderId) : Booked (fills ++ [f]) o := by
  have hfills := fillsOf_append_other fills hne
  refine ⟨?_, h.bound, ?_⟩
  · rw [fillTotal, hfills]; exact h.total
  · rw [hfills]; exact h.last

/-- A fill that fits is booked alike in the record and on the order. -/
theorem Booked.fill {s : ExecutionState} {o : ExecutionOrder} {price : JsNumber} {q x : ℚ}
    {now : ℤ} (h : Booked s.fills o) (hgrid : o.filledQuantity ∈ grid 8) (hq : q ∈ grid 8)
    (hpos : 0 < q) (hx : o.quantity = some x) (hroom : o.filledQuantity + q ≤ x) :
    Booked (s.fills ++ [fillRecord s o price (.fin q) now])
      (applyFillToOrder o price (.fin q) now) := by
  have hfilled := applyFillToOrder_filledQuantity price now hx hgrid hq hpos hroom
  have hquantity : (fillRecord s o price (.fin q) now).quantity = q :=
    makeFill_quantity rfl hq hpos
  have hcumulative : (fillRecord s o price (.fin q) now).cumulativeQuantity =
      (applyFillToOrder o price (.fin q) now).filledQuantity :=
    makeFill_cumulativeQuantity
      (applyFillToOrder_filledQuantity_mem_grid o price (.fin q) now)
  -- The record of the order grows by this one fill.
  have hfills := fillsOf_append_self s.fills (fillRecord s o price (.fin q) now)
  change fillsOf _ o.orderId = fillsOf s.fills o.orderId ++ _ at hfills
  refine ⟨?_, ⟨x, hx, hfilled ▸ hroom⟩, ?_⟩
  · rw [fillTotal, applyFillToOrder_orderId, hfills, List.map_append, List.sum_append, hfilled,
      ← h.total]
    simp [fillTotal, hquantity]
  · rw [applyFillToOrder_orderId, hfills]
    intro f hf
    rw [List.getLast?_concat, Option.mem_some_iff] at hf
    rw [← hf]
    exact hcumulative

theorem protectiveFilled_terminateOrders (orders : List ExecutionOrder) (dst : OrderStatus)
    (now : ℤ) : protectiveFilled (terminateOrders orders dst now) = protectiveFilled orders := by
  unfold protectiveFilled
  rw [map_terminateOrders]
  intro o
  simp

theorem protectiveFilled_of_unfilled {orders : List ExecutionOrder}
    (h : ∀ o ∈ orders, o.role ≠ .entry → o.filledQuantity = 0) : protectiveFilled orders = 0 := by
  apply List.sum_eq_zero
  intro x hx
  obtain ⟨o, ho, rfl⟩ := List.mem_map.mp hx
  by_cases hrole : o.role = .entry
  · rw [if_pos hrole]
  · rw [if_neg hrole]; exact h o ho hrole

section Steps

variable {s : ExecutionState} {manual : Bool}

/-- The ledgers after a command that only moves the statuses of the orders. -/
theorem Ledgers.sweep (h : Ledgers s.books manual) {st : ExecutionStatus}
    {position : Option ExecutionPosition} (dst : OrderStatus) (now : ℤ) (manual' : Bool)
    (hst : beforeOpen st → beforeOpen s.status ∧ position = s.position)
    (hposition : manual' = false → manual = false ∧ position = s.position) :
    Ledgers ⟨st, terminateOrders s.orders dst now, s.fills, position⟩ manual' := by
  refine ⟨?_, ?_, ?_⟩
  · intro o ho
    obtain ⟨o', ho', rfl⟩ := mem_terminateOrders ho
    exact (h.booked o' ho').transitionOrder dst now
  · intro hbefore
    obtain ⟨hsrc, hsame⟩ := hst hbefore
    refine ⟨by rw [hsame]; exact (h.unopened hsrc).1, ?_⟩
    intro o ho hrole
    obtain ⟨o', ho', rfl⟩ := mem_terminateOrders ho
    rw [transitionOrder_filledQuantity]
    exact (h.unopened hsrc).2 o' ho' (by rwa [transitionOrder_role] at hrole)
  · intro hm
    obtain ⟨hm', hsame⟩ := hposition hm
    change ∀ p ∈ position, _ = protectiveFilled (terminateOrders s.orders dst now)
    rw [hsame, protectiveFilled_terminateOrders]
    exact h.position hm'

/-- The order ledger after a fill that fits. -/
theorem Ledgers.booked_fill (h : Ledgers s.books manual) (hsound : Sound s.books)
    (hlayout : Layout s.intent s.books) {order : ExecutionOrder} (price : JsNumber) {q : ℚ}
    (now : ℤ) (ho : order ∈ s.orders) (hq : q ∈ grid 8) (hpos : 0 < q)
    (hroom : ∀ x ∈ order.quantity, order.filledQuantity + q ≤ x) :
    (∀ o ∈ replaceOrder s.orders order (applyFillToOrder order price (.fin q) now),
      Booked (s.fills ++ [fillRecord s order price (.fin q) now]) o) ∧
    (applyFillToOrder order price (.fin q) now).filledQuantity = order.filledQuantity + q ∧
    protectiveFilled (replaceOrder s.orders order (applyFillToOrder order price (.fin q) now)) =
      protectiveFilled s.orders + if order.role = .entry then 0 else q := by
  obtain ⟨x, hx, -⟩ := (h.booked order ho).bound
  have hgrid := hsound.filled order ho
  have hfilled := applyFillToOrder_filledQuantity price now hx hgrid hq hpos (hroom x hx)
  refine ⟨?_, hfilled, ?_⟩
  · intro o ho'
    rcases mem_replaceOrder ho' with rfl | ⟨hmem, hne⟩
    · exact (h.booked order ho).fill hgrid hq hpos hx (hroom x hx)
    · exact (h.booked o hmem).append_other (Ne.symm hne)
  -- Of all the orders only this one has filled more, and the entry does not count.
  · have hnodup : (s.orders.map (·.orderId)).Nodup := hlayout.nodup
    rw [protectiveFilled, sum_replaceOrder hnodup ho, applyFillToOrder_role, hfilled]
    change protectiveFilled s.orders - _ + _ = _
    split
    · ring
    · ring

theorem fin_room {f q x : ℚ} (h : JsNumber.le (.fin f + .fin q) (.fin x)) : f + q ≤ x := by
  simpa using h

/-- The ledgers after a fill of the entry that fits: the position is not opened yet. -/
theorem Ledgers.fillEntry (h : Ledgers s.books manual) (hsound : Sound s.books)
    (hlayout : Layout s.intent s.books) {order : ExecutionOrder} (price : JsNumber) {q : ℚ} (now : ℤ)
    {st : ExecutionStatus} (ho : order ∈ s.orders) (hrole : order.role = .entry) (hq : q ∈ grid 8)
    (hpos : 0 < q) (hroom : ∀ x ∈ order.quantity, order.filledQuantity + q ≤ x)
    (hbefore : beforeOpen s.status) :
    Ledgers
      ⟨st, replaceOrder s.orders order (applyFillToOrder order price (.fin q) now),
        s.fills ++ [fillRecord s order price (.fin q) now], s.position⟩ manual := by
  obtain ⟨hbooked, -, hsum⟩ := h.booked_fill hsound hlayout price now ho hq hpos hroom
  rw [if_pos hrole, add_zero] at hsum
  refine ⟨hbooked, fun _ => ⟨(h.unopened hbefore).1, ?_⟩, ?_⟩
  · intro o ho' hne
    rcases mem_replaceOrder ho' with rfl | ⟨hmem, -⟩
    · exact absurd hrole hne
    · exact (h.unopened hbefore).2 o hmem hne
  · intro hm p hp
    rw [hsum]
    exact h.position hm p hp

/-- The ledgers after a protective fill that fits, for which the position has room as well. -/
theorem Ledgers.fillProtective (h : Ledgers s.books manual) (hsound : Sound s.books)
    (hlayout : Layout s.intent s.books) {order : ExecutionOrder} (price : JsNumber) {q : ℚ} (now : ℤ)
    {st : ExecutionStatus} {p : ExecutionPosition} (ho : order ∈ s.orders) (hrole : order.role ≠ .entry)
    (hq : q ∈ grid 8) (hpos : 0 < q) (hroom : ∀ x ∈ order.quantity, order.filledQuantity + q ≤ x)
    (hposition : s.position = some p)
    (hleft : manual = false → JsNumber.le (.fin p.closedQuantity + .fin q) (.fin p.entryQuantity))
    (hafter : beforeOpen st = false) :
    Ledgers
      ⟨st, replaceOrder s.orders order (applyFillToOrder order price (.fin q) now),
        s.fills ++ [fillRecord s order price (.fin q) now], some (reducePosition p (.fin q) now)⟩
      manual := by
  obtain ⟨hbooked, -, hsum⟩ := h.booked_fill hsound hlayout price now ho hq hpos hroom
  rw [if_neg hrole] at hsum
  refine ⟨hbooked, ?_, ?_⟩
  · intro hb
    rw [hafter] at hb
    cases hb
  · intro hm p' hp'
    cases hp'
    obtain ⟨p₀, hp₀, hdec⟩ := hsound.position
    obtain rfl : p₀ = p := Option.some.inj (hp₀.symm.trans hposition)
    have hle := fin_room (hleft hm)
    rw [reducePosition_closedQuantity hdec, reduction_fin hq hpos, min_eq_right hle, hsum,
      h.position hm p₀ hposition]
    rfl

/-- One accepted command keeps the ledgers. -/
theorem Accepted.ledgers {c : ExecutionCommand} {b : Books} (h : Accepted s c b)
    (hsound : Sound s.books) (hlayout : Layout s.intent s.books) (hl : Ledgers s.books manual)
    (hdecimal : DecimalFill c) (hfit : FillsFit ⟨s, manual⟩ c) :
    Ledgers b (manual || c.isManual) := by
  have htable : ∀ st dst, canTransition st dst → beforeFill dst → beforeFill st := by decide +kernel
  -- a command of the forward path, or one that ends the execution with the position as it is
  have hsweep : ∀ st dst now, (beforeOpen st → beforeOpen s.status) →
      Ledgers ⟨st, terminateOrders s.orders dst now, s.fills, s.position⟩ (manual || false) := by
    intro st dst now hst
    exact hl.sweep dst now _ (fun hb => ⟨hst hb, rfl⟩) fun hm => ⟨by simpa using hm, rfl⟩
  -- a command that ends the execution and may close the position
  have hmanual : ∀ st dst now position, beforeOpen st = false →
      Ledgers ⟨st, terminateOrders s.orders dst now, s.fills, position⟩ (manual || true) := by
    intro st dst now position hst
    refine hl.sweep dst now _ ?_ ?_
    · intro hb; rw [hst] at hb; cases hb
    · intro hm; simp at hm
  cases h with
  | kill now => exact hmanual _ _ _ _ rfl
  | close now price => exact hmanual _ _ _ _ rfl
  | cancel now reason => exact hmanual _ _ _ _ rfl
  | runtimeUnhealthy now => exact hsweep _ _ _ fun hb => by cases hb
  | reject now reason => exact hsweep _ _ _ fun hb => by cases hb
  | expire now => exact hsweep _ _ _ fun hb => by cases hb
  | fail now reason => exact hsweep _ _ _ fun hb => by cases hb
  | plan now hstatus =>
      have hsrc : beforeOpen s.status := by simp [beforeOpen, htable _ _ hstatus rfl]
      exact ⟨hl.booked, fun _ => hl.unopened hsrc, fun hm => hl.position (Bool.or_eq_false_iff.mp hm).1⟩
  | arm now hstatus => exact hsweep _ _ _ fun _ => by simp [beforeOpen, htable _ _ hstatus rfl]
  | submit now hstatus => exact hsweep _ _ _ fun _ => by simp [beforeOpen, htable _ _ hstatus rfl]
  | acknowledge now hstatus =>
      exact hsweep _ _ _ fun _ => by simp [beforeOpen, htable _ _ hstatus rfl]
  | fillEntry now orderId price quantity order hfind hrole hpos hprice hstatus =>
      obtain ⟨q, hq, rfl⟩ := hdecimal
      have hqpos : 0 < q := by simpa using hpos
      have hentry : ∀ st dst, (dst = .filled ∨ dst = .partiallyFilled) → canTransition st dst →
          (st = .acknowledged ∨ st = .partiallyFilled) ∧ beforeOpen st := by decide +kernel
      obtain ⟨hst, hbefore⟩ := hentry _ _ (fillTarget_cases _) hstatus
      have hroom := hfit order hfind hprice hpos
      rw [if_pos hrole] at hroom
      have hmanual' : (manual || ExecutionCommand.isManual (.fill now orderId price (.fin q))) = manual :=
        Bool.or_false _
      rw [hmanual']
      exact hl.fillEntry hsound hlayout price now (mem_of_find_orderId hfind).1 hrole hq hqpos
        (fun x hx => fin_room (hroom hst x hx)) hbefore
  | fillProtective now orderId price quantity order p hfind hrole hpos hprice hposition hopen
      hstatus =>
      obtain ⟨q, hq, rfl⟩ := hdecimal
      have hqpos : 0 < q := by simpa using hpos
      have hprotective : ∀ st dst, (dst = .closed ∨ dst = .reducing) → canTransition st dst →
          whileOpen st ∧ beforeOpen dst = false := by decide +kernel
      obtain ⟨hst, hafter⟩ := hprotective _ _ (reducedStatus_cases _) hstatus
      -- The condition says that the order, and here also the position, has room for the fill.
      have hroom := hfit order hfind hprice hpos
      rw [if_neg hrole] at hroom
      obtain ⟨horder, hpos'⟩ := hroom hst
      have hmanual' : (manual || ExecutionCommand.isManual (.fill now orderId price (.fin q))) = manual :=
        Bool.or_false _
      rw [hmanual']
      exact hl.fillProtective hsound hlayout price now (mem_of_find_orderId hfind).1 hrole hq hqpos
        (fun x hx => fin_room (horder x hx)) hposition (fun hm => hpos' hm p hposition) hafter
  | «open» now entry hstatus =>
      refine ⟨hl.booked, ?_, ?_⟩
      · intro hb; cases hb
      · intro hm p hp
        cases hp
        have hm' : manual = false := (Bool.or_eq_false_iff.mp hm).1
        have hopen : ∀ st, canTransition st .opened → st = .filled ∨ st = .reducing := by decide
        rcases hopen _ hstatus with hst | hst
        · exact (protectiveFilled_of_unfilled
            (hl.unopened (by change beforeOpen s.status; rw [hst]; rfl)).2).symm
        -- Opening again out of REDUCING starts from a fresh position; the condition confines it to
        -- manual runs.
        · have hflag : manual = true := hfit hst
          rw [hm'] at hflag
          cases hflag
  | reduce now quantity price p hstatus =>
      refine ⟨hl.booked, ?_, fun hm => by simp [ExecutionCommand.isManual] at hm⟩
      intro hb
      change beforeOpen (reducedStatus (reducePosition p quantity now)) at hb
      rcases reducedStatus_cases (reducePosition p quantity now) with hclosed | hreducing
      · rw [hclosed] at hb
        cases hb
      · rw [hreducing] at hb
        cases hb

end Steps

/-! ## Runs -/

theorem start_ledgers {intent : ExecutionIntent} {t : ℚ} (hsize : num intent.positionSize = some t)
    (hpos : 0 < t) (hsplit : SplitsEvenly intent) : Ledgers (start intent).books false := by
  refine ⟨?_, ?_, ?_⟩
  · intro o ho
    have hfilled := (buildOrders_fresh ho).2
    obtain ⟨x, hx, hnonneg⟩ := buildOrders_quantity hsize hpos hsplit ho
    refine ⟨hfilled.symm, ⟨x, hx, hfilled ▸ hnonneg⟩, ?_⟩
    intro f hf
    cases hf
  · intro _
    refine ⟨?_, fun o ho _ => (buildOrders_fresh ho).2⟩
    intro p hp
    cases hp
    rfl
  · intro _ p hp
    cases hp
    exact (protectiveFilled_of_unfilled fun o ho _ => (buildOrders_fresh ho).2).symm

/-- What a traced run keeps. -/
structure Conserved (t : Traced) : Prop where
  sound : Sound t.state.books
  layout : Layout t.state.intent t.state.books
  ledgers : Ledgers t.state.books t.manual

theorem tracedStep_conserved {t : Traced} {c : ExecutionCommand} (h : Conserved t)
    (hdecimal : DecimalFill c) (hfit : FillsFit t c) : Conserved (tracedStep t c) := by
  unfold tracedStep
  -- A refused command is no manual reduction either.
  rcases reduceExecution_outcome t.state c with ⟨hok, hsame⟩ | ⟨hok, hacc, hintent, -⟩
  · rw [hok, hsame, Bool.false_and, Bool.or_false]
    exact h
  · rw [hok, Bool.true_and]
    refine ⟨hacc.sound h.sound, ?_, hacc.ledgers h.sound h.layout h.ledgers hdecimal hfit⟩
    rw [hintent]
    exact hacc.layout h.layout

/-- In every run of decimal fills that fit, the fill records, the order totals and the last
cumulative quantities agree within the order quantities, and until a manual reduction is applied the
closed quantity of the position is what the stop and the targets have filled. -/
theorem fills_conserved (intent : ExecutionIntent) (size : ℚ)
    (hsize : intent.positionSize = some (.fin size)) (hpos : 0 < size)
    (hsplit : SplitsEvenly intent) (commands visited : List ExecutionCommand)
    (hpart : visited <+: commands) (hdecimal : ∀ c ∈ commands, DecimalFill c)
    (hfit : RunMeets tracedStep FillsFit (tracedStart intent) commands) :
    let t := run tracedStep (tracedStart intent) visited
    (∀ o ∈ t.state.orders,
      fillTotal t.state.fills o.orderId = o.filledQuantity ∧
      (∃ x, o.quantity = some x ∧ o.filledQuantity ≤ x) ∧
      ∀ f ∈ (fillsOf t.state.fills o.orderId).getLast?,
        f.cumulativeQuantity = o.filledQuantity) ∧
    (t.manual = false →
      ∀ p ∈ t.state.position, p.closedQuantity = protectiveFilled t.state.orders) := by
  obtain ⟨rest, rfl⟩ := hpart
  have hnum : num intent.positionSize = some size := by rw [hsize]; rfl
  -- Planned orders are unfilled, so all the ledgers start at zero.
  have hstart : Conserved (tracedStart intent) :=
    ⟨start_sound intent, start_layout intent, start_ledgers hnum hpos hsplit⟩
  have hdecimals : RunMeets tracedStep (fun _ c => DecimalFill c) (tracedStart intent)
      (visited ++ rest) := runMeets_of_forall fun c hc _ => hdecimal c hc
  have hrun := run_invariant (fun t c h hc => tracedStep_conserved h hc.1 hc.2) hstart
    (hdecimals.and hfit).of_append
  refine ⟨?_, hrun.ledgers.position⟩
  intro o ho
  have hbooked := hrun.ledgers.booked o ho
  exact ⟨hbooked.total, hbooked.bound, hbooked.last⟩

theorem fills_conserved_partial_exits :
    let t := run tracedStep (tracedStart sampleIntent)
      (openRun ++ [.fill 7 "exec:sig-1:plan:ord:target:2" (.fin 102) (.fin 1),
        .fill 8 "exec:sig-1:plan:ord:stop:1" (.fin 98) (.fin 2)])
    (∀ o ∈ t.state.orders,
      fillTotal t.state.fills o.orderId = o.filledQuantity ∧
      (∃ x, o.quantity = some x ∧ o.filledQuantity ≤ x) ∧
      ∀ f ∈ (fillsOf t.state.fills o.orderId).getLast?,
        f.cumulativeQuantity = o.filledQuantity) ∧
    (t.manual = false →
      ∀ p ∈ t.state.position, p.closedQuantity = protectiveFilled t.state.orders) := by
  have hgrid : ∀ n : ℕ, ∃ q ∈ grid 8, JsNumber.fin n = .fin q := fun n =>
    ⟨n, natCast_mem_grid 8 n, rfl⟩
  refine fills_conserved sampleIntent 3 rfl (by norm_num) (by decide +kernel) _ _
    (List.prefix_refl _) ?_ (by decide +kernel)
  simp only [openRun, List.cons_append, List.nil_append, List.forall_mem_cons]
  exact ⟨trivial, trivial, trivial, trivial, hgrid 3, trivial, hgrid 1, hgrid 2, by simp⟩

/-- An entry order of three units that is filled with four: the record holds four, the order
three. -/
theorem overfill_breaks_conservation :
    let t := run tracedStep (tracedStart sampleIntent) [.plan 1, .arm 2, .submit 3, .acknowledge 4,
      .fill 5 "exec:sig-1:plan:ord:entry:0" (.fin 100) (.fin 4)]
    ∃ o ∈ t.state.orders, fillTotal t.state.fills o.orderId = 4 ∧ o.filledQuantity = 3 := by
  decide +kernel

end NexusQuant.ExecutionCore
