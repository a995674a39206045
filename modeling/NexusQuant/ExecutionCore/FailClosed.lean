import NexusQuant.ExecutionCore.AuditTrail
import NexusQuant.ExecutionCore.SubmittableTrade

/-!
# Fail-closed submission

The submit gate is evaluated when the plan is built and looked at again by ARM and SUBMIT only; a
fill, an OPEN and the sweeps of the orders have guards of their own.  Until SUBMIT is accepted nothing
leaves the core: `Unsent` is what every command but SUBMIT keeps, and SUBMIT needs the gate and comes
right after READY.  From then on `Sent` stays.
-/

namespace NexusQuant.ExecutionCore

open Run TradingPlan
open TradingDecision (buildTradingDecision)

/-! ## Before anything is sent -/

/-- The order statuses before and beside a submission. -/
def OrderStatus.isUnsent : OrderStatus → Bool
  | .submitted | .acknowledged | .partiallyFilled | .filled => false
  | _ => true

/-- The statuses of an execution that was not submitted, or that ended before it was. -/
def ExecutionStatus.isUnsent : ExecutionStatus → Bool
  | .notCreated | .planned | .ready | .rejected | .expired | .cancelled | .failed => true
  | _ => false

/-- Nothing has been sent: no order went out, nothing is filled and there is no position. -/
structure Unsent (b : Books) : Prop where
  status : b.status.isUnsent
  orders : ∀ o ∈ b.orders, o.status.isUnsent
  fills : b.fills = []
  position : ∀ p ∈ b.position, p.status = .none

theorem isUnsent_sweep : ∀ o swept, OrderStatus.isUnsent o → OrderStatus.isUnsent swept →
    (if canTransitionOrder o swept then swept else o).isUnsent := by
  decide

theorem unsent_terminateOrders {orders : List ExecutionOrder} {swept : OrderStatus} {now : ℤ}
    (h : ∀ o ∈ orders, o.status.isUnsent) (hswept : swept.isUnsent) :
    ∀ o ∈ terminateOrders orders swept now, o.status.isUnsent := by
  intro o ho
  obtain ⟨o', ho', rfl⟩ := mem_terminateOrders ho
  rw [transitionOrder_status]
  exact isUnsent_sweep _ _ (h o' ho') hswept

theorem unsent_closeIfOpen {position : Option ExecutionPosition}
    (h : ∀ p ∈ position, p.status = .none) (now : ℤ) :
    ∀ p ∈ closeIfOpen position now, p.status = .none := by
  intro p hp
  obtain ⟨p₀, hp₀, rfl⟩ := Option.map_eq_some_iff.mp hp
  have hnone := h p₀ hp₀
  have hopen : p₀.isOpen = false := by simp [ExecutionPosition.isOpen, hnone]
  rw [hopen]
  exact hnone

/-- SUBMIT is the only way out of the statuses in which nothing is sent. -/
theorem isUnsent_next : ∀ src dst, ExecutionStatus.isUnsent src → canTransition src dst →
    dst = .submitted ∨ ExecutionStatus.isUnsent dst := by
  decide

theorem isUnsent_fillTarget (filled : ExecutionOrder) : (fillTarget filled).isUnsent = false := by
  unfold fillTarget
  split <;> rfl

theorem isUnsent_reducedStatus (p : ExecutionPosition) : (reducedStatus p).isUnsent = false := by
  unfold reducedStatus
  split <;> rfl

/-- Every accepted command but SUBMIT keeps everything unsent. -/
theorem Accepted.unsent {s : ExecutionState} {c : ExecutionCommand} {b : Books}
    (h : Accepted s c b) (hs : Unsent s.books) (hb : b.status ≠ .submitted) : Unsent b := by
  have hstatus : b.status.isUnsent :=
    (isUnsent_next _ _ hs.status h.legal).resolve_left hb
  have hfree : ∀ p ∈ s.position, p.status = .none := hs.position
  have hswept : ∀ swept now, OrderStatus.isUnsent swept →
      ∀ o ∈ terminateOrders s.orders swept now, o.status.isUnsent :=
    fun swept now hswept => unsent_terminateOrders hs.orders hswept
  cases h with
  | kill now | cancel now => exact ⟨hstatus, hswept _ _ rfl, hs.fills, unsent_closeIfOpen hfree now⟩
  | plan now => exact ⟨hstatus, hs.orders, hs.fills, hfree⟩
  | runtimeUnhealthy now | arm now | reject now | expire now | fail now =>
      exact ⟨hstatus, hswept _ _ rfl, hs.fills, hfree⟩
  | submit now => exact absurd rfl hb
  -- The other commands end in a status that is reached after SUBMIT only.
  | acknowledge now | «open» now | close now => cases hstatus
  | fillEntry now orderId price quantity order =>
      rw [isUnsent_fillTarget] at hstatus
      cases hstatus
  | fillProtective now orderId price quantity order p =>
      rw [isUnsent_reducedStatus] at hstatus
      cases hstatus
  | reduce now quantity price p =>
      rw [isUnsent_reducedStatus] at hstatus
      cases hstatus

theorem start_unsent (intent : ExecutionIntent) : Unsent (start intent).books where
  status := rfl
  orders := by
    intro o ho
    rw [(buildOrders_fresh ho).1]
    rfl
  fills := rfl
  position := by
    intro p hp
    cases hp
    rfl

/-! ## The submission -/

/-- The intent passed the gate, and the execution was submitted right after it was armed. -/
structure Sent (s : ExecutionState) : Prop where
  gate : checkSubmittable s.intent = none
  history : [ExecutionStatus.ready, .submitted] <:+: s.lifecycle.history

/-- The plan of the state is the one that was built from its intent. -/
def PlannedByIntent (s : ExecutionState) : Prop := s.plan = some (buildExecutionPlan s.intent)

theorem gate_of_submitBlock {s : ExecutionState} (hplan : PlannedByIntent s)
    (h : submitBlock s = none) : checkSubmittable s.intent = none := by
  unfold submitBlock at h
  rw [hplan] at h
  dsimp only at h
  split at h
  · rename_i hsubmittable
    exact of_decide_eq_true hsubmittable
  · cases h

/-- What a state is in: before the submission nothing is sent. -/
structure FailClosed (intent : ExecutionIntent) (s : ExecutionState) : Prop where
  intent : s.intent = intent
  planned : PlannedByIntent s
  trail : Trail s
  layout : Layout s.intent s.books
  sent : Unsent s.books ∨ Sent s

theorem Sent.commit {s : ExecutionState} (h : Sent s) (k : Commit) : Sent (commit s k).state where
  gate := h.gate
  history := h.history.trans (List.prefix_append _ _).isInfix

/-- What ends in SUBMITTED is SUBMIT, with its guards. -/
theorem Accepted.guards_of_submitted {s : ExecutionState} {c : ExecutionCommand} {b : Books}
    (h : Accepted s c b) (hb : b.status = .submitted) :
    canTransition s.status .submitted ∧ submitBlock s = none := by
  have hfill : ∀ o, fillTarget o ≠ .submitted := by
    intro o
    rcases fillTarget_cases o with heq | heq <;> rw [heq] <;> decide
  have hreduced : ∀ p, reducedStatus p ≠ .submitted := by
    intro p
    rcases reducedStatus_cases p with heq | heq <;> rw [heq] <;> decide
  cases h with
  | submit now hstatus hgate => exact ⟨hstatus, hgate⟩
  | fillEntry => exact absurd hb (hfill _)
  | fillProtective => exact absurd hb (hreduced _)
  | reduce => exact absurd hb (hreduced _)
  | _ => cases hb

theorem ready_of_submitted : ∀ st, canTransition st .submitted → st = .ready := by
  decide

theorem Sent.step {s : ExecutionState} (h : Sent s) (c : ExecutionCommand) : Sent (step s c) := by
  unfold ExecutionCore.step
  rcases reduceExecution_cases s c with ⟨why, message, now, hreject⟩ | ⟨k, hcommit, -⟩
  · rw [hreject]
    exact h
  · rw [hcommit]
    exact h.commit k

theorem sent_of_submit {intent : ExecutionIntent} {s : ExecutionState} {k : Commit}
    (hs : FailClosed intent s)
    (hstatus : canTransition s.status .submitted) (hgate : submitBlock s = none)
    (hk : k.status = .submitted) : Sent (commit s k).state where
  gate := gate_of_submitBlock hs.planned hgate
  history := by
    show [ExecutionStatus.ready, .submitted] <:+: s.lifecycle.history ++ [k.status]
    -- The last entry of the history is the status SUBMIT is accepted in.
    have hlast := hs.trail.last
    rw [ready_of_submitted _ hstatus] at hlast
    obtain ⟨before, hbefore⟩ := List.getLast?_eq_some_iff.mp hlast
    rw [hbefore, hk]
    exact ⟨before, [], by simp⟩

theorem FailClosed.step {intent : ExecutionIntent} {s : ExecutionState} (h : FailClosed intent s)
    (c : ExecutionCommand) : FailClosed intent (step s c) := by
  have htrail := h.trail.step c
  have hlayout : Layout (ExecutionCore.step s c).intent (ExecutionCore.step s c).books :=
    step_keeps Layout h.layout fun b hacc => hacc.layout h.layout
  unfold ExecutionCore.step at htrail hlayout ⊢
  rcases reduceExecution_cases s c with ⟨why, message, now, hreject⟩ | ⟨k, hcommit, hacc⟩
  · rw [hreject]
    exact h
  · rw [hcommit] at htrail hlayout ⊢
    refine ⟨h.intent, h.planned, htrail, hlayout, ?_⟩
    rcases h.sent with hunsent | hsent
    · by_cases hk : k.status = .submitted
      · obtain ⟨hstatus, hgate⟩ := hacc.guards_of_submitted hk
        exact .inr (sent_of_submit h hstatus hgate hk)
      · exact .inl (hacc.unsent hunsent hk)
    · exact .inr (hsent.commit k)

theorem start_failClosed (intent : ExecutionIntent) : FailClosed intent (start intent) where
  intent := rfl
  planned := rfl
  trail := trail_init intent _
  layout := start_layout intent
  sent := .inl (start_unsent intent)

theorem run_failClosed (intent : ExecutionIntent) (commands : List ExecutionCommand) :
    FailClosed intent (run step (start intent) commands) :=
  run_keeps (fun _ c h => h.step c) (start_failClosed intent) commands

/-! ## The protective side -/

/-- What no command changes about the terms of an order. -/
def ExecutionOrder.terms (o : ExecutionOrder) : OrderRole × OrderSide × Option JsNumber :=
  (o.role, o.side, o.price)

/-- The orders of the books have the terms of the planned ones. -/
def Terms (intent : ExecutionIntent) (b : Books) : Prop :=
  b.orders.map (·.terms) = (buildOrders intent).map (·.terms)

theorem terms_transitionOrder (o : ExecutionOrder) (dst : OrderStatus) (now : ℤ) :
    (transitionOrder o dst now).terms = o.terms := by
  unfold transitionOrder
  split <;> rfl

theorem terms_terminateOrders (orders : List ExecutionOrder) (dst : OrderStatus) (now : ℤ) :
    (terminateOrders orders dst now).map (·.terms) = orders.map (·.terms) :=
  map_terminateOrders (fun o => terms_transitionOrder o dst now) orders

theorem Accepted.terms {s : ExecutionState} {c : ExecutionCommand} {b : Books}
    (h : Accepted s c b) (hlayout : Layout s.intent s.books) (hs : Terms s.intent s.books) :
    Terms s.intent b := by
  have hsame : s.orders.map (·.terms) = (buildOrders s.intent).map (·.terms) := hs
  have hswept : ∀ dst now, (terminateOrders s.orders dst now).map (·.terms) =
      (buildOrders s.intent).map (·.terms) := by
    intro dst now
    rw [terms_terminateOrders]
    exact hsame
  have hfilled : ∀ {order}, order ∈ s.orders → ∀ price quantity now,
      (replaceOrder s.orders order (applyFillToOrder order price quantity now)).map (·.terms) =
        (buildOrders s.intent).map (·.terms) := by
    intro order ho price quantity now
    have hterms : (applyFillToOrder order price quantity now).terms = order.terms := rfl
    exact (hlayout.map_replaceOrder (·.terms) ho hterms).trans hsame
  cases h with
  | plan now => exact hsame
  | «open» now => exact hsame
  | reduce now => exact hsame
  | fillEntry now orderId price quantity order hfind =>
      exact hfilled (mem_of_find_orderId hfind).1 price quantity now
  | fillProtective now orderId price quantity order p hfind =>
      exact hfilled (mem_of_find_orderId hfind).1 price quantity now
  | _ => exact hswept _ _

theorem run_terms (intent : ExecutionIntent) (commands : List ExecutionCommand) :
    Terms (run step (start intent) commands).intent (run step (start intent) commands).books := by
  have hstep : ∀ s c, Layout s.intent s.books ∧ Terms s.intent s.books →
      Layout (step s c).intent (step s c).books ∧ Terms (step s c).intent (step s c).books := by
    intro s c hs
    exact step_keeps (fun intent b => Layout intent b ∧ Terms intent b) hs fun b hacc =>
      ⟨hacc.layout hs.1, hacc.terms hs.1 hs.2⟩
  exact (run_keeps hstep ⟨start_layout intent, rfl⟩ commands).2

theorem Terms.exists_order {intent : ExecutionIntent} {b : Books} (h : Terms intent b)
    {o : ExecutionOrder} (ho : o ∈ buildOrders intent) : ∃ o' ∈ b.orders, o'.terms = o.terms := by
  have hmem : o.terms ∈ b.orders.map (·.terms) := by
    rw [h]
    exact List.mem_map_of_mem ho
  exact List.mem_map.mp hmem

/-- A stop with a price and a target, both against the entry. -/
def HasProtectiveSide (orders : List ExecutionOrder) : Prop :=
  ∃ entry ∈ orders, entry.role = .entry ∧
    (∃ stop ∈ orders, stop.role = .stop ∧ stop.price ≠ none ∧ stop.side ≠ entry.side) ∧
    ∃ target ∈ orders, target.role = .target ∧ target.side ≠ entry.side

theorem sideForRole_protective (direction : SignalDecision) {role : OrderRole}
    (hrole : role ≠ .entry) : sideForRole direction role ≠ sideForRole direction .entry := by
  revert hrole
  cases direction <;> cases role <;> decide

/-- What the gate asks of the levels. -/
theorem levels_of_gate {intent : ExecutionIntent} (h : checkSubmittable intent = none) :
    intent.stop ≠ none ∧ intent.targets.length ≠ 0 := by
  unfold checkSubmittable at h
  split at h
  · cases h
  · split at h
    · cases h
    · split at h
      · cases h
      · split at h
        · cases h
        · rename_i hstop
          split at h
          · cases h
          · rename_i htargets
            exact ⟨hstop, htargets⟩

theorem Terms.protectiveSide {intent : ExecutionIntent} {b : Books} (h : Terms intent b)
    (hgate : checkSubmittable intent = none) : HasProtectiveSide b.orders := by
  obtain ⟨hstop, htargets⟩ := levels_of_gate hgate
  have hfirst : 0 < intent.targets.length := by omega
  -- The three orders as they were planned; every order kept its role, side and price.
  have hentryPlanned : planOrder intent "entry" 0 .entry .limit intent.entry
      (num intent.positionSize) ∈ buildOrders intent := List.mem_cons_self
  have hstopPlanned : planOrder intent "stop" 1 .stop .stop intent.stop
      (num intent.positionSize) ∈ buildOrders intent :=
    List.mem_cons_of_mem _ List.mem_cons_self
  have htargetPlanned : ∃ price quantity,
      planOrder intent "target" 2 .target .limit price quantity ∈ buildOrders intent := by
    refine ⟨some intent.targets[0],
      ((splitQuantity (num intent.positionSize) intent.targets.length)[0]?).getD none, ?_⟩
    apply List.mem_cons_of_mem
    apply List.mem_cons_of_mem
    rw [List.mem_mapIdx]
    exact ⟨0, hfirst, rfl⟩
  obtain ⟨price, quantity, htargetPlanned⟩ := htargetPlanned
  obtain ⟨entry, hentry, hentryTerms⟩ := h.exists_order hentryPlanned
  obtain ⟨stop, hstopMem, hstopTerms⟩ := h.exists_order hstopPlanned
  obtain ⟨target, htarget, htargetTerms⟩ := h.exists_order htargetPlanned
  simp only [ExecutionOrder.terms, planOrder, makeOrder, Prod.mk.injEq]
    at hentryTerms hstopTerms htargetTerms
  refine ⟨entry, hentry, hentryTerms.1, ⟨stop, hstopMem, hstopTerms.1, ?_, ?_⟩,
    target, htarget, htargetTerms.1, ?_⟩
  · rw [hstopTerms.2.2]
    exact hstop
  · rw [hstopTerms.2.1, hentryTerms.2.1]
    exact sideForRole_protective _ (by decide)
  · rw [htargetTerms.2.1, hentryTerms.2.1]
    exact sideForRole_protective _ (by decide)

/-! ## Every run -/

/-- Something went out: an order is submitted, acknowledged or filled, a fill is recorded, or there is
a position. -/
def Touched (s : ExecutionState) : Prop :=
  (∃ o ∈ s.orders, o.status = .submitted ∨ o.status = .acknowledged ∨
      o.status = .partiallyFilled ∨ o.status = .filled) ∨
    s.fills ≠ [] ∨ ∃ p ∈ s.position, p.status ≠ .none

theorem Unsent.not_touched {s : ExecutionState} (h : Unsent s.books) : ¬Touched s := by
  rintro (⟨o, ho, hstatus⟩ | hfills | ⟨p, hp, hstatus⟩)
  · have hunsent := h.orders o ho
    rcases hstatus with heq | heq | heq | heq
    all_goals
      rw [heq] at hunsent
      cases hunsent
  · exact hfills h.fills
  · exact hstatus (h.position p hp)

/-- What a run is in once something went out, however it goes on. -/
theorem gated_of_touched {intent : ExecutionIntent} {commands visited : List ExecutionCommand}
    (hpart : visited <+: commands) (htouched : Touched (run step (start intent) visited)) :
    checkSubmittable intent = none ∧
      [ExecutionStatus.ready, .submitted] <:+:
        (run step (start intent) commands).lifecycle.history ∧
      HasProtectiveSide (run step (start intent) commands).orders := by
  obtain ⟨rest, rfl⟩ := hpart
  have hsent : Sent (run step (start intent) visited) :=
    (run_failClosed intent visited).sent.resolve_left fun hunsent => hunsent.not_touched htouched
  have hend : Sent (run step (start intent) (visited ++ rest)) := by
    rw [run_append]
    exact run_keeps (fun _ c h => h.step c) hsent rest
  have hgate := hend.gate
  rw [(run_failClosed intent (visited ++ rest)).intent] at hgate
  exact ⟨hgate, hend.history, (run_terms intent (visited ++ rest)).protectiveSide hend.gate⟩

/-- For every decision and trade plan: once something went out, the intent has passed the gate, the
history has READY followed by SUBMITTED, and the protective side is there. -/
theorem fail_closed_submission (decision : TradingDecision.Decision) (plan : TradingPlan.TradePlan)
    (opts : BuildIntentOptions) (commands visited : List ExecutionCommand)
    (hpart : visited <+: commands)
    (htouched : Touched (run step (start (buildExecutionIntent decision plan opts)) visited)) :
    checkSubmittable (buildExecutionIntent decision plan opts) = none ∧
      [ExecutionStatus.ready, .submitted] <:+:
        (run step (start (buildExecutionIntent decision plan opts)) commands).lifecycle.history ∧
      HasProtectiveSide
        (run step (start (buildExecutionIntent decision plan opts)) commands).orders :=
  gated_of_touched hpart htouched

instance (s : ExecutionState) : Decidable (Touched s) := by
  unfold Touched
  infer_instance

/-- A submitted trade whose orders are then cancelled. -/
theorem fail_closed_submission_cancelled :
    let inputs := sampleInputs 100 2 "HEALTHY"
    let commands := [ExecutionCommand.plan 1, .arm 2, .submit 3, .cancel 4 none]
    let s := run step (start (intentOf inputs (.fin 0) (some (.fin 100)) {} ⟨0, none, none⟩)) commands
    s.status = .cancelled ∧ [ExecutionStatus.ready, .submitted] <:+: s.lifecycle.history ∧
      HasProtectiveSide s.orders := by
  have hgated := fail_closed_submission (buildTradingDecision (sampleInputs 100 2 "HEALTHY"))
    (buildTradePlan (planInputsOf (sampleInputs 100 2 "HEALTHY") (.fin 0) (some (.fin 100)) {}))
    ⟨0, none, none⟩ [.plan 1, .arm 2, .submit 3, .cancel 4 none] [.plan 1, .arm 2, .submit 3]
    (by decide) (by decide +kernel)
  exact ⟨by decide +kernel, hgated.2⟩

end NexusQuant.ExecutionCore
