import NexusQuant.ExecutionCore.Exposure

/-!
# The account of a position

OPEN builds a position from the filled entry, REDUCE and protective fills take their quantity off
it, and CLOSE, KILL and CANCEL take what is left.  Whatever the commands are, the signed quantity is
what was entered less what was closed.  OPEN is also legal while the position is being reduced: it
then builds the position anew, with nothing closed, and `OpensOnce` excludes it.
-/

namespace NexusQuant.ExecutionCore

open Rounding Run

/-- The quantities of a position and its status agree. -/
structure ExecutionPosition.Balanced (direction : SignalDecision) (p : ExecutionPosition) :
    Prop where
  closed_nonneg : 0 ≤ p.closedQuantity
  closed_le : p.closedQuantity ≤ p.entryQuantity
  quantity : p.quantity = sign direction * (p.entryQuantity - p.closedQuantity)
  status : p.status = .opened ∨ p.status = .reducing ↔ 0 < p.entryQuantity - p.closedQuantity

/-- What does not change, and what only grows, from `p` to a later state `q` of the position. -/
structure ExecutionPosition.Continues (p q : ExecutionPosition) : Prop where
  opened : q.openedAt.isSome
  closedQuantity : p.closedQuantity ≤ q.closedQuantity
  entryQuantity : q.entryQuantity = p.entryQuantity
  avgEntryPrice : q.avgEntryPrice = p.avgEntryPrice
  stop : q.stop = p.stop
  targets : q.targets = p.targets

/-- A position that has been opened in `s` goes on in `s'`. -/
def KeepsAccount (s s' : ExecutionState) : Prop :=
  ∀ p ∈ s.position, p.openedAt.isSome → ∃ q ∈ s'.position, p.Continues q

/-- An OPEN while REDUCING finds that nothing has been closed yet. -/
def OpensOnce (s : ExecutionState) : ExecutionCommand → Prop
  | .open _ => s.status = .reducing → ∀ p ∈ s.position, p.closedQuantity = 0
  | _ => True

instance (s : ExecutionState) : DecidablePred (OpensOnce s)
  | .open _ => inferInstanceAs (Decidable (s.status = .reducing →
      ∀ p ∈ s.position, p.closedQuantity = 0))
  | .plan _ | .arm _ | .submit _ | .acknowledge _ | .fill _ _ _ _ | .reduce _ _ _ | .close _ _
  | .cancel _ _ | .reject _ _ | .expire _ | .fail _ _ | .kill _ | .runtimeUnhealthy _ =>
      inferInstanceAs (Decidable True)

/-! ## The constructors of a position -/

section Constructors

variable {p : ExecutionPosition} {intent : ExecutionIntent} {direction : SignalDecision}

theorem roundTo_sign_mul {x : ℚ} (hx : x ∈ grid 8) (direction : SignalDecision) :
    roundTo 8 (sign direction * x) = sign direction * x := by
  apply roundTo_eq_self
  cases direction with
  | long => rw [sign, one_mul]; exact hx
  | short => rw [sign, neg_one_mul]; exact (grid 8).neg_mem hx
  | flat => rw [sign, zero_mul]; exact (grid 8).zero_mem

theorem emptyPosition_balanced (intent : ExecutionIntent) :
    (emptyPosition intent).Balanced intent.direction := by
  refine ⟨le_rfl, le_rfl, ?_, ?_⟩
  · show (0 : ℚ) = sign intent.direction * (0 - 0)
    rw [sub_zero, mul_zero]
  · simp [emptyPosition]

theorem openPosition_entryQuantity_mem (intent : ExecutionIntent) (f : ℚ) (avg : Option ℚ)
    (now : ℤ) : (openPosition intent f avg now).entryQuantity ∈ grid 8 := by
  show max 0 (roundTo 8 f) ∈ grid 8
  rcases max_choice 0 (roundTo 8 f) with hmax | hmax
  · rw [hmax]; exact (grid 8).zero_mem
  · rw [hmax]; exact roundTo_mem_grid 8 f

theorem openPosition_balanced (intent : ExecutionIntent) (f : ℚ) (avg : Option ℚ) (now : ℤ) :
    (openPosition intent f avg now).Balanced intent.direction := by
  refine ⟨le_rfl, le_max_left _ _, ?_, ?_⟩
  · show roundTo 8 (sign intent.direction * max 0 (roundTo 8 f)) =
      sign intent.direction * (max 0 (roundTo 8 f) - 0)
    rw [sub_zero]
    exact roundTo_sign_mul (openPosition_entryQuantity_mem intent f avg now) _
  · show (if 0 < max 0 (roundTo 8 f) then PositionStatus.opened else .opening) = .opened ∨
      (if 0 < max 0 (roundTo 8 f) then PositionStatus.opened else .opening) = .reducing ↔
      0 < max 0 (roundTo 8 f) - 0
    rw [sub_zero]
    by_cases hpos : 0 < max 0 (roundTo 8 f)
    · simp [hpos]
    · simp [hpos]

theorem reducePosition_balanced (hdec : p.Decimal) (hbalanced : p.Balanced direction)
    (hdirection : p.direction = direction) (quantity : JsNumber) (now : ℤ) :
    (reducePosition p quantity now).Balanced direction := by
  have hclosed := reducePosition_closedQuantity hdec quantity now
  have hremaining := reducePosition_remaining hdec quantity
  have hreduction : 0 ≤ reduction quantity := le_max_left _ _
  have hsum : 0 ≤ p.closedQuantity + reduction quantity :=
    add_nonneg hbalanced.closed_nonneg hreduction
  have hentry : 0 ≤ p.entryQuantity := hbalanced.closed_nonneg.trans hbalanced.closed_le
  refine ⟨?_, (reducePosition_decimal hdec quantity now).closed_le, ?_, ?_⟩
  · rw [hclosed]
    exact le_min hentry hsum
  · rw [hclosed, ← hdirection]
    show roundTo 8 (sign p.direction * roundTo 8 (p.entryQuantity -
      min p.entryQuantity (roundTo 8 (p.closedQuantity + reduction quantity)))) = _
    rw [hremaining]
    exact roundTo_sign_mul ((grid 8).sub_mem hdec.entry (min_mem_grid hdec.entry
      ((grid 8).add_mem hdec.closed (reduction_mem_grid quantity)))) _
  · rw [reducePosition_status hdec, hclosed]
    show _ ↔ 0 < p.entryQuantity - min p.entryQuantity (p.closedQuantity + reduction quantity)
    -- The reduction either reaches the entry or leaves something of it.
    by_cases hclose : p.entryQuantity ≤ p.closedQuantity + reduction quantity
    · rw [if_pos hclose, min_eq_left hclose, sub_self]
      simp
    · have hlt := not_le.mp hclose
      rw [if_neg hclose, min_eq_right hlt.le]
      simp [hlt]

theorem closePosition_balanced (hbalanced : p.Balanced direction) (now : ℤ) :
    (closePosition p now).Balanced direction := by
  refine ⟨hbalanced.closed_nonneg.trans hbalanced.closed_le, le_rfl, ?_, ?_⟩
  · show (0 : ℚ) = sign direction * (p.entryQuantity - p.entryQuantity)
    rw [sub_self, mul_zero]
  · simp [closePosition]

theorem ExecutionPosition.Continues.refl (hopened : p.openedAt.isSome) : p.Continues p :=
  ⟨hopened, le_rfl, rfl, rfl, rfl, rfl⟩

theorem ExecutionPosition.Continues.trans {q r : ExecutionPosition} (hpq : p.Continues q)
    (hqr : q.Continues r) : p.Continues r where
  opened := hqr.opened
  closedQuantity := hpq.closedQuantity.trans hqr.closedQuantity
  entryQuantity := hqr.entryQuantity.trans hpq.entryQuantity
  avgEntryPrice := hqr.avgEntryPrice.trans hpq.avgEntryPrice
  stop := hqr.stop.trans hpq.stop
  targets := hqr.targets.trans hpq.targets

theorem continues_reducePosition (hdec : p.Decimal) (hopened : p.openedAt.isSome)
    (quantity : JsNumber) (now : ℤ) : p.Continues (reducePosition p quantity now) := by
  refine ⟨hopened, ?_, rfl, rfl, rfl, rfl⟩
  have hreduction : 0 ≤ reduction quantity := le_max_left _ _
  rw [reducePosition_closedQuantity hdec]
  exact le_min hdec.closed_le (by linarith)

theorem continues_closePosition (hdec : p.Decimal) (hopened : p.openedAt.isSome) (now : ℤ) :
    p.Continues (closePosition p now) :=
  ⟨hopened, hdec.closed_le, rfl, rfl, rfl, rfl⟩

end Constructors

/-! ## The invariant -/

/-- The position in the books is that of the intent, and once it is open it is what the filled entry
opened. -/
structure Accounted (intent : ExecutionIntent) (b : Books) (p : ExecutionPosition) : Prop where
  decimal : p.Decimal
  balanced : p.Balanced intent.direction
  direction : p.direction = intent.direction
  stop : p.stop = intent.stop
  targets : p.targets = intent.targets
  unopened : beforeOpen b.status → p.openedAt = none
  entered : whileOpen b.status → p.openedAt.isSome ∧
    ∃ entry, b.orders.find? (fun o => o.role = .entry) = some entry ∧ 0 < entry.filledQuantity ∧
      p.entryQuantity = max 0 (roundTo 8 entry.filledQuantity) ∧
      p.avgEntryPrice = entry.avgFillPrice.map (roundTo 8)

/-- The orders have distinct identifiers, and there is a position that is accounted for. -/
structure Kept (intent : ExecutionIntent) (b : Books) : Prop where
  nodup : (b.orders.map (·.orderId)).Nodup
  position : ∃ p, b.position = some p ∧ Accounted intent b p

section Steps

variable {intent : ExecutionIntent} {s : ExecutionState} {b b' : Books} {p : ExecutionPosition}

/-- Before OPEN and after the end, the orders do not matter. -/
theorem Accounted.of_status (h : Accounted intent b p) (hwhile : whileOpen b'.status = false)
    (hbefore : beforeOpen b'.status → beforeOpen b.status) : Accounted intent b' p := by
  refine ⟨h.decimal, h.balanced, h.direction, h.stop, h.targets,
    fun hst => h.unopened (hbefore hst), ?_⟩
  intro hst
  rw [hwhile] at hst
  cases hst

theorem Accounted.closePosition (h : Accounted intent b p) (hst : isTerminal b'.status) (now : ℤ) :
    Accounted intent b' (closePosition p now) := by
  obtain ⟨-, hbefore, hwhile⟩ := (phases_disjoint b'.status).2.2 hst
  refine ⟨closePosition_decimal h.decimal now, closePosition_balanced h.balanced now, h.direction,
    h.stop, h.targets, ?_, ?_⟩
  · intro hst'
    rw [hbefore] at hst'
    cases hst'
  · intro hst'
    rw [hwhile] at hst'
    cases hst'

/-- A reduction keeps the entry that the position was opened from. -/
theorem Accounted.reducePosition (h : Accounted intent b p) (hsrc : whileOpen b.status)
    {quantity : JsNumber} {now : ℤ}
    (hst : b'.status = reducedStatus (reducePosition p quantity now))
    (hentry : b'.orders.find? (fun o => o.role = .entry) =
      b.orders.find? (fun o => o.role = .entry)) :
    Accounted intent b' (reducePosition p quantity now) := by
  refine ⟨reducePosition_decimal h.decimal quantity now,
    reducePosition_balanced h.decimal h.balanced h.direction quantity now, h.direction, h.stop,
    h.targets, ?_, ?_⟩
  · intro hbefore
    rw [hst] at hbefore
    rcases reducedStatus_cases (ExecutionCore.reducePosition p quantity now) with heq | heq
    · rw [heq] at hbefore; cases hbefore
    · rw [heq] at hbefore; cases hbefore
  · intro _
    rw [hentry]
    exact h.entered hsrc

/-- Replacing an order that is not an entry leaves the entry in place. -/
theorem find?_entry_replaceOrder {orders : List ExecutionOrder} {order filled : ExecutionOrder}
    (hnodup : (orders.map (·.orderId)).Nodup) (ho : order ∈ orders) (hrole : order.role ≠ .entry)
    (hfilled : filled.role = order.role) :
    (replaceOrder orders order filled).find? (fun o => o.role = .entry) =
      orders.find? (fun o => o.role = .entry) := by
  have hsame : ∀ o ∈ orders, o.orderId = order.orderId → o = order := fun o ho' hid =>
    List.inj_on_of_nodup_map hnodup ho' ho hid
  have hkept (rest : List ExecutionOrder) (hrest : ∀ o ∈ rest, o.orderId = order.orderId → o = order) :
      (replaceOrder rest order filled).find? (fun o => o.role = .entry) =
        rest.find? (fun o => o.role = .entry) := by
    induction rest with
    | nil => rfl
    | cons o rest ih =>
        have htail := ih fun o' ho' => hrest o' (List.mem_cons_of_mem o ho')
        have hcons : replaceOrder (o :: rest) order filled =
            (if o.orderId = order.orderId then filled else o) :: replaceOrder rest order filled := rfl
        rw [hcons, List.find?_cons, List.find?_cons, htail]
        by_cases hid : o.orderId = order.orderId
        · -- the replaced order: neither it nor what replaces it is an entry
          rw [if_pos hid, hfilled, hrest o List.mem_cons_self hid]
          simp [hrole]
        · rw [if_neg hid]
  exact hkept orders hsame

theorem orderIds_replaceOrder (orders : List ExecutionOrder) {order filled : ExecutionOrder}
    (hid : filled.orderId = order.orderId) :
    (replaceOrder orders order filled).map (·.orderId) = orders.map (·.orderId) :=
  map_replaceOrder fun _ _ hsame => hid.trans hsame.symm

theorem orderIds_terminateOrders (orders : List ExecutionOrder) (dst : OrderStatus) (now : ℤ) :
    (terminateOrders orders dst now).map (·.orderId) = orders.map (·.orderId) :=
  map_terminateOrders (fun o => transitionOrder_orderId o dst now) orders

/-- Commands that only move the execution on before OPEN, or end it without a position. -/
theorem Kept.of_status (h : Kept intent b) (hposition : b'.position = b.position)
    (hids : b'.orders.map (·.orderId) = b.orders.map (·.orderId))
    (hwhile : whileOpen b'.status = false)
    (hbefore : beforeOpen b'.status → beforeOpen b.status) : Kept intent b' := by
  obtain ⟨p, hp, haccounted⟩ := h.position
  refine ⟨by rw [hids]; exact h.nodup, p, by rw [hposition]; exact hp, ?_⟩
  exact haccounted.of_status hwhile hbefore

/-- KILL and CANCEL. -/
theorem Kept.closeIfOpen (h : Kept intent b) {now : ℤ}
    (hposition : b'.position = closeIfOpen b.position now)
    (hids : b'.orders.map (·.orderId) = b.orders.map (·.orderId))
    (hst : isTerminal b'.status) : Kept intent b' := by
  obtain ⟨p, hp, haccounted⟩ := h.position
  obtain ⟨-, hbefore, hwhile⟩ := (phases_disjoint b'.status).2.2 hst
  refine ⟨by rw [hids]; exact h.nodup, ?_⟩
  rw [hposition, hp, closeIfOpen_some]
  by_cases hopen : p.isOpen
  · rw [if_pos hopen]
    exact ⟨_, rfl, haccounted.closePosition hst now⟩
  · rw [if_neg hopen]
    refine ⟨p, rfl, haccounted.of_status hwhile fun hst' => ?_⟩
    rw [hbefore] at hst'
    cases hst'

theorem Accepted.kept {c : ExecutionCommand} (h : Accepted s c b) (hkept : Kept s.intent s.books) :
    Kept s.intent b := by
  obtain ⟨p₀, hp₀, haccounted⟩ := hkept.position
  change s.position = some p₀ at hp₀
  have hended : ∀ dst : ExecutionStatus, isTerminal dst →
      whileOpen dst = false ∧ (beforeOpen dst → beforeOpen s.status) := by
    intro dst hdst
    obtain ⟨-, hbefore, hwhile⟩ := (phases_disjoint dst).2.2 hdst
    refine ⟨hwhile, fun hst => ?_⟩
    rw [hbefore] at hst
    cases hst
  cases h with
  | kill now => exact hkept.closeIfOpen rfl (orderIds_terminateOrders _ _ _) rfl
  | cancel now => exact hkept.closeIfOpen rfl (orderIds_terminateOrders _ _ _) rfl
  | runtimeUnhealthy now =>
      exact hkept.of_status rfl (orderIds_terminateOrders _ _ _) (hended .failed rfl).1
        (hended .failed rfl).2
  | fail now =>
      exact hkept.of_status rfl (orderIds_terminateOrders _ _ _) (hended .failed rfl).1
        (hended .failed rfl).2
  | reject now =>
      exact hkept.of_status rfl (orderIds_terminateOrders _ _ _) (hended .rejected rfl).1
        (hended .rejected rfl).2
  | expire now =>
      exact hkept.of_status rfl (orderIds_terminateOrders _ _ _) (hended .expired rfl).1
        (hended .expired rfl).2
  | plan now hstatus =>
      have htable : ∀ st, canTransition st .planned → beforeOpen st := by decide
      exact hkept.of_status rfl rfl rfl fun _ => htable _ hstatus
  | arm now hstatus =>
      have htable : ∀ st, canTransition st .ready → beforeOpen st := by decide
      exact hkept.of_status rfl (orderIds_terminateOrders _ _ _) rfl fun _ => htable _ hstatus
  | submit now hstatus =>
      have htable : ∀ st, canTransition st .submitted → beforeOpen st := by decide
      exact hkept.of_status rfl (orderIds_terminateOrders _ _ _) rfl fun _ => htable _ hstatus
  | acknowledge now hstatus =>
      have htable : ∀ st, canTransition st .acknowledged → beforeOpen st := by decide
      exact hkept.of_status rfl (orderIds_terminateOrders _ _ _) rfl fun _ => htable _ hstatus
  | fillEntry now orderId price quantity order hfind hrole hpos hprice hstatus =>
      have htable : ∀ st dst, (dst = .filled ∨ dst = .partiallyFilled) → canTransition st dst →
          beforeOpen st ∧ whileOpen dst = false := by decide +kernel
      obtain ⟨hsrc, hdst⟩ := htable _ _ (fillTarget_cases _) hstatus
      exact hkept.of_status rfl (orderIds_replaceOrder _ rfl) hdst fun _ => hsrc
  | fillProtective now orderId price quantity order p hfind hrole hpos hprice hposition hopen
      hstatus =>
      obtain rfl : p₀ = p := Option.some.inj (hp₀.symm.trans hposition)
      have htable : ∀ st dst, (dst = .closed ∨ dst = .reducing) → canTransition st dst →
          whileOpen st := by decide +kernel
      have hsrc := htable _ _ (reducedStatus_cases _) hstatus
      refine ⟨?_, _, rfl, haccounted.reducePosition hsrc rfl ?_⟩
      · show ((replaceOrder s.orders order _).map (·.orderId)).Nodup
        rw [orderIds_replaceOrder _ (applyFillToOrder_orderId order price quantity now)]
        exact hkept.nodup
      · exact find?_entry_replaceOrder hkept.nodup (mem_of_find_orderId hfind).1 hrole rfl
  | «open» now entry hstatus hfind hfilled =>
      refine ⟨hkept.nodup, _, rfl, ?_⟩
      have hbalanced := openPosition_balanced s.intent entry.filledQuantity entry.avgFillPrice now
      refine ⟨⟨openPosition_entryQuantity_mem _ _ _ _, (grid 8).zero_mem, hbalanced.closed_le⟩,
        hbalanced, rfl, rfl, rfl, ?_, fun _ => ⟨rfl, entry, hfind, hfilled, rfl, rfl⟩⟩
      intro hst
      cases hst
  | reduce now quantity price p hstatus hposition hopen =>
      obtain rfl : p₀ = p := Option.some.inj (hp₀.symm.trans hposition)
      have htable : ∀ st, canTransition st .reducing → whileOpen st := by decide
      exact ⟨hkept.nodup, _, rfl, haccounted.reducePosition (htable _ hstatus) rfl rfl⟩
  | close now price hstatus =>
      refine ⟨?_, closePosition p₀ now, by rw [hp₀]; rfl, haccounted.closePosition rfl now⟩
      show ((terminateOrders s.orders _ _).map (·.orderId)).Nodup
      rw [orderIds_terminateOrders]
      exact hkept.nodup

/-- An accepted command that is not an OPEN while REDUCING, or finds nothing closed, goes on with the
position. -/
theorem Accepted.continues {c : ExecutionCommand} (h : Accepted s c b) (hp : s.position = some p)
    (haccounted : Accounted s.intent s.books p) (hopened : p.openedAt.isSome)
    (honce : OpensOnce s c) : ∃ q, b.position = some q ∧ p.Continues q := by
  have hsame : ∃ q, s.position = some q ∧ p.Continues q := ⟨p, hp, .refl hopened⟩
  have hclosed : ∀ now, ∃ q, closeIfOpen s.position now = some q ∧ p.Continues q := by
    intro now
    rw [hp, closeIfOpen_some]
    by_cases hopen : p.isOpen
    · rw [if_pos hopen]
      exact ⟨_, rfl, continues_closePosition haccounted.decimal hopened now⟩
    · rw [if_neg hopen]
      exact ⟨p, rfl, .refl hopened⟩
  cases h with
  | kill now => exact hclosed now
  | cancel now => exact hclosed now
  | fillProtective now orderId price quantity order p' hfind hrole hpos hprice hposition =>
      obtain rfl : p = p' := Option.some.inj (hp.symm.trans hposition)
      exact ⟨_, rfl, continues_reducePosition haccounted.decimal hopened quantity now⟩
  | reduce now quantity price p' hstatus hposition =>
      obtain rfl : p = p' := Option.some.inj (hp.symm.trans hposition)
      exact ⟨_, rfl, continues_reducePosition haccounted.decimal hopened quantity now⟩
  | close now price =>
      exact ⟨_, by rw [hp]; rfl, continues_closePosition haccounted.decimal hopened now⟩
  | «open» now entry hstatus hfind hfilled =>
      have htable : ∀ st, canTransition st .opened → beforeOpen st ∨ st = .reducing := by decide
      rcases htable _ hstatus with hbefore | hreducing
      · -- from FILLED: no position has been opened before
        rw [haccounted.unopened hbefore] at hopened
        cases hopened
      · obtain ⟨-, entry', hfind', -, hentry, havg⟩ := haccounted.entered
          (show whileOpen s.status = true by rw [hreducing]; rfl)
        obtain rfl : entry = entry' := Option.some.inj (hfind.symm.trans hfind')
        refine ⟨_, rfl, rfl, ?_, hentry.symm, havg.symm, haccounted.stop.symm,
          haccounted.targets.symm⟩
        rw [honce hreducing p hp]
        exact le_rfl
  | _ => exact hsame

/-- OPEN while REDUCING is accepted, and closes nothing of the position it builds. -/
theorem reduceExecution_reopen (h : Kept s.intent s.books) (hstatus : s.status = .reducing)
    (now : ℤ) : ∃ q, (step s (.open now)).position = some q ∧ q.closedQuantity = 0 := by
  obtain ⟨p, -, haccounted⟩ := h.position
  obtain ⟨-, entry, hfind, hfilled, -⟩ := haccounted.entered
    (show whileOpen s.status = true by rw [hstatus]; rfl)
  change s.orders.find? (fun o => o.role = .entry) = some entry at hfind
  have hlive : ¬(isTerminal s.status ∧ (ExecutionCommand.open now).isKill = false) := by
    simp [hstatus, isTerminal]
  have hlegal : ¬canTransition s.status .opened = false := by
    rw [hstatus]
    decide
  refine ⟨openPosition s.intent entry.filledQuantity entry.avgFillPrice now, ?_, rfl⟩
  unfold step reduceExecution
  rw [if_neg hlive]
  dsimp only
  rw [if_neg hlegal, hfind]
  dsimp only
  rw [if_neg (not_le.mpr hfilled)]
  rfl

theorem step_kept (c : ExecutionCommand) (h : Kept s.intent s.books) :
    Kept (step s c).intent (step s c).books :=
  step_keeps Kept h fun _ haccepted => haccepted.kept h

/-- One command goes on with the open position exactly when it is no OPEN of a reduced one. -/
theorem keepsAccount_step_iff (c : ExecutionCommand) (h : Kept s.intent s.books) :
    KeepsAccount s (step s c) ↔ OpensOnce s c := by
  obtain ⟨p, hp, haccounted⟩ := h.position
  change s.position = some p at hp
  constructor
  · intro hkeeps
    cases c with
    | «open» now =>
        intro hstatus p' hp'
        obtain rfl : p = p' := Option.some.inj (hp.symm.trans hp')
        obtain ⟨hopened, -⟩ := haccounted.entered
          (show whileOpen s.status = true by rw [hstatus]; rfl)
        obtain ⟨q, hq, hcontinues⟩ := hkeeps p hp hopened
        obtain ⟨q', hq', hzero⟩ := reduceExecution_reopen h hstatus now
        obtain rfl : q = q' := Option.some.inj (hq.symm.trans hq')
        have hle := hcontinues.closedQuantity
        rw [hzero] at hle
        exact le_antisymm hle haccounted.balanced.closed_nonneg
    | _ => trivial
  · intro honce p' hp' hopened
    obtain rfl : p = p' := Option.some.inj (hp.symm.trans hp')
    rcases reduceExecution_outcome s c with ⟨-, hsame⟩ | ⟨-, haccepted, -, -⟩
    · -- a rejected command changes nothing
      refine ⟨p, ?_, .refl hopened⟩
      show (reduceExecution s c).state.position = some p
      rw [hsame, hp]
    · exact haccepted.continues hp haccounted hopened honce

end Steps

/-! ## Runs -/

theorem keepsAccount_refl (s : ExecutionState) : KeepsAccount s s :=
  fun p hp hopened => ⟨p, hp, .refl hopened⟩

theorem keepsAccount_trans (s s' s'' : ExecutionState) (h : KeepsAccount s s')
    (h' : KeepsAccount s' s'') : KeepsAccount s s'' := by
  intro p hp hopened
  obtain ⟨q, hq, hpq⟩ := h p hp hopened
  obtain ⟨r, hr, hqr⟩ := h' q hq hpq.opened
  exact ⟨r, hr, hpq.trans hqr⟩

theorem init_kept (intent : ExecutionIntent) {plan : Option ExecutionPlan}
    (hplan : ∀ p ∈ plan, (p.orders.map (·.orderId)).Nodup) :
    Kept (initExecutionState intent plan).intent (initExecutionState intent plan).books := by
  refine ⟨?_, emptyPosition intent, rfl,
    ⟨(grid 8).zero_mem, (grid 8).zero_mem, le_rfl⟩, emptyPosition_balanced intent, rfl, rfl, rfl,
    fun _ => rfl, ?_⟩
  · cases plan with
    | none => exact List.nodup_nil
    | some p => exact hplan p rfl
  · intro hst
    cases hst

/-- A target takes one of three units, and a reduction of five is clamped to the two that are left. -/
def clampedRun : List ExecutionCommand :=
  openRun ++ [.fill 7 "exec:sig-1:plan:ord:target:2" (.fin 102) (.fin 1),
    .reduce 8 (.fin (-1)) (.fin 101), .reduce 9 (.fin 5) (.fin 101)]

end NexusQuant.ExecutionCore
