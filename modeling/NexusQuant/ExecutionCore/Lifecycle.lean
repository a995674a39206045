import NexusQuant.ExecutionCore.Books

/-!
# Terminal executions and live orders

Orders move in lockstep with the execution: `admits` lists the order statuses an execution status
goes with.  The commands that end an execution sweep the orders, except two: a reduction to zero and
a protective fill that empties the position close the execution and leave the other orders alone.
`ClosesCleanly` is the condition under which these two do no harm.
-/

namespace NexusQuant.ExecutionCore

open Rounding Run

/-- The order statuses that go with an execution status. -/
def admits : ExecutionStatus → OrderStatus → Bool
  | .notCreated, o | .planned, o => o = .planned
  | .ready, o => o = .ready
  | .submitted, o => o = .submitted
  | .acknowledged, o => o = .acknowledged
  | .partiallyFilled, o | .filled, o | .opened, o | .reducing, o =>
      o = .acknowledged || o = .partiallyFilled || o = .filled
  | .closed, o | .rejected, o | .expired, o | .cancelled, o | .failed, o => o.isTerminal

/-- The statuses of an execution whose orders are being filled. -/
def isFilling (st : ExecutionStatus) : Bool :=
  st = .partiallyFilled || st = .filled || st = .opened || st = .reducing

/-! The order table against the execution table.  Each fact is a check over the two finite tables. -/

theorem admits_sweep_cancelled : ∀ st o, admits st o →
    (if canTransitionOrder o .cancelled then .cancelled else o).isTerminal := by
  decide

theorem admits_sweep_failed : ∀ st o, admits st o →
    (if canTransitionOrder o .failed then .failed else o).isTerminal := by
  decide

theorem admits_sweep_rejected : ∀ st o, canTransition st .rejected → admits st o →
    (if canTransitionOrder o .rejected then .rejected else o).isTerminal := by
  decide

theorem admits_sweep_expired : ∀ st o, canTransition st .expired → admits st o →
    (if canTransitionOrder o .expired then .expired else o).isTerminal := by
  decide

theorem admits_ready : ∀ st o, canTransition st .ready → admits st o →
    admits .ready (if canTransitionOrder o .ready then .ready else o) := by
  decide

theorem admits_submitted : ∀ st o, canTransition st .submitted → admits st o →
    admits .submitted (if canTransitionOrder o .submitted then .submitted else o) := by
  decide

theorem admits_acknowledged : ∀ st o, canTransition st .acknowledged → admits st o →
    admits .acknowledged (if canTransitionOrder o .acknowledged then .acknowledged else o) := by
  decide

theorem admits_filling : ∀ st dst o, isFilling dst → canTransition st dst → admits st o →
    admits dst o := by
  decide +kernel

theorem admits_filled : ∀ st, isFilling st → admits st .filled ∧ admits st .partiallyFilled := by
  decide

/-- Every order has a status that goes with the status of the execution. -/
def Lockstep (b : Books) : Prop := ∀ o ∈ b.orders, admits b.status o.status

/-- The command does not close the position while another order is live: when a reduction reaches the
entry quantity, every order has ended; when a protective fill does, the filled order has ended or is
completed by it, and every other order has ended. -/
def ClosesCleanly (s : ExecutionState) : ExecutionCommand → Prop
  | .reduce _ quantity _ => ∀ p ∈ s.position, p.isOpen →
      p.entryQuantity ≤ p.closedQuantity + reduction quantity →
      ∀ o ∈ s.orders, o.status.isTerminal
  | .fill _ orderId price quantity => ∀ p ∈ s.position, p.isOpen →
      ∀ order ∈ s.orders.find? (fun o => o.orderId = orderId), order.role ≠ .entry →
      price.isFinite → JsNumber.le quantity (.fin 0) = false →
      p.entryQuantity ≤ p.closedQuantity + reduction quantity →
      (order.status.isTerminal ∨ completesOrder order quantity) ∧
        ∀ o ∈ s.orders, o.orderId ≠ orderId → o.status.isTerminal
  | _ => True

instance (s : ExecutionState) (c : ExecutionCommand) : Decidable (ClosesCleanly s c) := by
  cases c <;> dsimp only [ClosesCleanly] <;> infer_instance

theorem lockstep_terminateOrders {orders : List ExecutionOrder} {st dst : ExecutionStatus}
    {swept : OrderStatus} {now : ℤ} (h : ∀ o ∈ orders, admits st o.status)
    (htable : ∀ o, admits st o → admits dst (if canTransitionOrder o swept then swept else o)) :
    ∀ o ∈ terminateOrders orders swept now, admits dst o.status := by
  intro o ho
  obtain ⟨o', ho', rfl⟩ := mem_terminateOrders ho
  rw [transitionOrder_status]
  exact htable _ (h o' ho')

theorem admits_applyFillToOrder {order : ExecutionOrder} {st dst : ExecutionStatus}
    (price quantity : JsNumber) (now : ℤ) (hdst : isFilling dst) (hst : canTransition st dst)
    (ho : admits st order.status) :
    admits dst (applyFillToOrder order price quantity now).status := by
  have hkept := admits_filling st dst order.status hdst hst ho
  have hnext : admits dst (if completesOrder order quantity then .filled else .partiallyFilled) := by
    split
    · exact (admits_filled dst hdst).1
    · exact (admits_filled dst hdst).2
  rw [applyFillToOrder_status]
  -- An order that cannot take the status keeps its own, which goes with the new one too.
  by_cases hcan : canTransitionOrder order.status
      (if completesOrder order quantity then .filled else .partiallyFilled)
  · rw [if_pos hcan]; exact hnext
  · rw [if_neg hcan]; exact hkept

theorem isFilling_fillTarget (o : ExecutionOrder) : isFilling (fillTarget o) := by
  unfold fillTarget; split <;> rfl

/-- A fill that ends its order, or finds it ended. -/
theorem applyFillToOrder_isTerminal {order : ExecutionOrder} {st : ExecutionStatus}
    (price : JsNumber) {quantity : JsNumber} (now : ℤ) (hst : canTransition st .closed)
    (ho : admits st order.status) (h : order.status.isTerminal ∨ completesOrder order quantity) :
    (applyFillToOrder order price quantity now).status.isTerminal := by
  -- An order that goes with an open position can still be filled.
  have htable : ∀ st o, canTransition st .closed → admits st o →
      (if canTransitionOrder o .filled then OrderStatus.filled else o).isTerminal := by decide
  have hkept : ∀ o next, OrderStatus.isTerminal o →
      (if canTransitionOrder o next then next else o).isTerminal := by decide
  rw [applyFillToOrder_status]
  rcases h with hended | hcomplete
  · exact hkept _ _ hended
  · rw [if_pos hcomplete]
    exact htable st _ hst ho

/-- One accepted command keeps the orders in lockstep. -/
theorem Accepted.lockstep {s : ExecutionState} {c : ExecutionCommand} {b : Books}
    (h : Accepted s c b) (hsound : Sound s.books) (hlock : Lockstep s.books)
    (hclean : ClosesCleanly s c) : Lockstep b := by
  obtain ⟨⟨p₀, hp₀, hdec⟩, -⟩ := hsound
  change s.position = some p₀ at hp₀
  change ∀ o ∈ s.orders, admits s.status o.status at hlock
  -- A sweep ends every order that can still end; only fills and reductions look at single orders.
  cases h with
  | kill now => exact lockstep_terminateOrders hlock (admits_sweep_cancelled _)
  | runtimeUnhealthy now => exact lockstep_terminateOrders hlock (admits_sweep_failed _)
  | plan now hstatus =>
      have htable : ∀ st o, canTransition st .planned → admits st o → admits .planned o := by
        decide
      intro o ho
      exact htable _ _ hstatus (hlock o ho)
  | arm now hstatus =>
      exact lockstep_terminateOrders hlock fun o => admits_ready _ o hstatus
  | submit now hstatus =>
      exact lockstep_terminateOrders hlock fun o => admits_submitted _ o hstatus
  | acknowledge now hstatus =>
      exact lockstep_terminateOrders hlock fun o => admits_acknowledged _ o hstatus
  | fillEntry now orderId price quantity order hfind hrole hpos hprice hstatus =>
      have hdst := isFilling_fillTarget (applyFillToOrder order price quantity now)
      intro o ho
      rcases mem_replaceOrder ho with rfl | ⟨ho', -⟩
      · exact admits_applyFillToOrder price quantity now hdst hstatus
          (hlock order (mem_of_find_orderId hfind).1)
      · exact admits_filling _ _ _ hdst hstatus (hlock o ho')
  | fillProtective now orderId price quantity order p hfind hrole hpos hprice hposition hopen
      hstatus =>
      have hmem := mem_of_find_orderId hfind
      obtain rfl : p₀ = p := Option.some.inj (hp₀.symm.trans hposition)
      have hcases := reducePosition_status hdec quantity now
      by_cases hclose : p₀.entryQuantity ≤ p₀.closedQuantity + reduction quantity
      · -- the closing fill: the execution ends, and the condition ends every order
        rw [if_pos hclose] at hcases
        rw [reducedStatus, if_pos hcases] at hstatus ⊢
        obtain ⟨hself, hothers⟩ :=
          hclean p₀ hposition hopen order hfind hrole hprice hpos hclose
        intro o ho
        rcases mem_replaceOrder ho with rfl | ⟨ho', hne⟩
        · exact applyFillToOrder_isTerminal price now hstatus (hlock order hmem.1) hself
        · exact hothers o ho' (by rw [← hmem.2]; exact hne)
      · rw [if_neg hclose] at hcases
        -- A part fill: the execution stays open, and so may its orders.
        have hst : reducedStatus (reducePosition p₀ quantity now) = .reducing := by
          rw [reducedStatus, hcases]; rfl
        rw [hst] at hstatus ⊢
        intro o ho
        rcases mem_replaceOrder ho with rfl | ⟨ho', -⟩
        · exact admits_applyFillToOrder price quantity now rfl hstatus (hlock order hmem.1)
        · exact admits_filling _ _ _ rfl hstatus (hlock o ho')
  | «open» now entry hstatus =>
      intro o ho
      exact admits_filling _ _ _ rfl hstatus (hlock o ho)
  | reduce now quantity price p hstatus hposition hopen =>
      obtain rfl : p₀ = p := Option.some.inj (hp₀.symm.trans hposition)
      have hcases := reducePosition_status hdec quantity now
      intro o ho
      by_cases hclose : p₀.entryQuantity ≤ p₀.closedQuantity + reduction quantity
      · rw [if_pos hclose] at hcases
        rw [reducedStatus, if_pos hcases]
        exact hclean p₀ hposition hopen hclose o ho
      · rw [if_neg hclose] at hcases
        rw [reducedStatus, hcases]
        exact admits_filling _ _ _ rfl hstatus (hlock o ho)
  | close now price => exact lockstep_terminateOrders hlock (admits_sweep_cancelled _)
  | cancel now reason => exact lockstep_terminateOrders hlock (admits_sweep_cancelled _)
  | reject now reason hstatus =>
      exact lockstep_terminateOrders hlock fun o => admits_sweep_rejected _ o hstatus
  | expire now hstatus =>
      exact lockstep_terminateOrders hlock fun o => admits_sweep_expired _ o hstatus
  | fail now reason => exact lockstep_terminateOrders hlock (admits_sweep_failed _)

theorem admits_terminal : ∀ st o, isTerminal st → admits st o → OrderStatus.isTerminal o := by
  decide

theorem start_lockstep (intent : ExecutionIntent) : Lockstep (start intent).books := by
  intro o ho
  rw [(buildOrders_fresh ho).1]
  rfl

theorem run_lockstep {intent : ExecutionIntent} {commands : List ExecutionCommand}
    (h : RunMeets step ClosesCleanly (start intent) commands) :
    Lockstep (run step (start intent) commands).books := by
  -- The closing reduction is decided on decimals, so the invariant of decimals comes along.
  have hstep : ∀ s c, Sound s.books ∧ Lockstep s.books → ClosesCleanly s c →
      Sound (step s c).books ∧ Lockstep (step s c).books := by
    intro s c hs hclean
    exact step_keeps (fun _ b => Sound b ∧ Lockstep b) hs fun b hacc =>
      ⟨hacc.sound hs.1, hacc.lockstep hs.1 hs.2 hclean⟩
  exact (run_invariant hstep ⟨start_sound intent, start_lockstep intent⟩ h).2

/-- A run up to an open position of three units. -/
def openRun : List ExecutionCommand :=
  [.plan 1, .arm 2, .submit 3, .acknowledge 4,
    .fill 5 "exec:sig-1:plan:ord:entry:0" (.fin 100) (.fin 3), .open 6]

/-- A target is filled and the rest is closed. -/
def closeRun : List ExecutionCommand :=
  openRun ++ [.fill 7 "exec:sig-1:plan:ord:target:2" (.fin 102) (.fin 1), .close 8 none]

end NexusQuant.ExecutionCore
