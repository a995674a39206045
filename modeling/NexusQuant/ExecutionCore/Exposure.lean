import NexusQuant.ExecutionCore.Books
import NexusQuant.ExecutionCore.Lifecycle

/-!
# Entry fills and the position

The position is only created by OPEN, after the entry is filled, and is closed by CLOSE, KILL,
CANCEL, a reduction to zero or a closing protective fill.  FAIL and RUNTIME_UNHEALTHY end an
execution without touching the position, and every command that ends an execution between the first
entry fill and OPEN leaves the filled quantity out of it.  `CarriesExposure` excludes these steps.
-/

namespace NexusQuant.ExecutionCore

open Rounding Run

/-- No entry quantity has been filled, or a position was opened from it. -/
def NoUnopenedEntry (s : ExecutionState) : Prop :=
  ∀ p ∈ s.position, p.status = .none → ∀ o ∈ s.orders, o.role = .entry → o.filledQuantity ≤ 0

/-- The command does not abandon exposure: FAIL and RUNTIME_UNHEALTHY find no open position, and
neither they nor CANCEL or KILL find an entry fill that no position was opened from. -/
def CarriesExposure (s : ExecutionState) : ExecutionCommand → Prop
  | .fail _ _ | .runtimeUnhealthy _ => isTerminal s.status = false →
      (∀ p ∈ s.position, p.isOpen = false) ∧ NoUnopenedEntry s
  | .cancel _ _ | .kill _ => isTerminal s.status = false → NoUnopenedEntry s
  | _ => True

instance (s : ExecutionState) : Decidable (NoUnopenedEntry s) :=
  inferInstanceAs (Decidable (∀ p ∈ s.position, p.status = .none →
    ∀ o ∈ s.orders, o.role = .entry → o.filledQuantity ≤ 0))

instance (s : ExecutionState) : DecidablePred (CarriesExposure s)
  | .fail _ _ | .runtimeUnhealthy _ => inferInstanceAs (Decidable (isTerminal s.status = false →
      (∀ p ∈ s.position, p.isOpen = false) ∧ NoUnopenedEntry s))
  | .cancel _ _ | .kill _ =>
      inferInstanceAs (Decidable (isTerminal s.status = false → NoUnopenedEntry s))
  | .plan _ | .arm _ | .submit _ | .acknowledge _ | .fill _ _ _ _ | .open _ | .reduce _ _ _
  | .close _ _ | .reject _ _ | .expire _ => inferInstanceAs (Decidable True)

/-- The statuses before the first fill, and those before OPEN. -/
def beforeFill (st : ExecutionStatus) : Bool :=
  st = .notCreated || st = .planned || st = .ready || st = .submitted || st = .acknowledged

def beforeOpen (st : ExecutionStatus) : Bool :=
  beforeFill st || st = .partiallyFilled || st = .filled

def whileOpen (st : ExecutionStatus) : Bool := st = .opened || st = .reducing

theorem beforeOpen_or_whileOpen : ∀ st, isTerminal st = false → beforeOpen st ∨ whileOpen st := by
  decide

theorem phases_disjoint : ∀ st, (beforeOpen st → whileOpen st = false ∧ isTerminal st = false) ∧
    (whileOpen st → beforeFill st = false ∧ beforeOpen st = false ∧ isTerminal st = false) ∧
    (isTerminal st → beforeFill st = false ∧ beforeOpen st = false ∧ whileOpen st = false) := by
  decide

/-- Every entry order has a filled quantity that satisfies `P`. -/
def EntryFilled (orders : List ExecutionOrder) (P : ℚ → Prop) : Prop :=
  ∀ o ∈ orders, o.role = .entry → P o.filledQuantity

theorem EntryFilled.terminateOrders {orders : List ExecutionOrder} {P : ℚ → Prop}
    (h : EntryFilled orders P) (dst : OrderStatus) (now : ℤ) :
    EntryFilled (terminateOrders orders dst now) P := by
  intro o ho hrole
  obtain ⟨o', ho', rfl⟩ := mem_terminateOrders ho
  rw [transitionOrder_filledQuantity]
  exact h o' ho' (by rwa [transitionOrder_role] at hrole)

theorem EntryFilled.replaceOrder {orders : List ExecutionOrder} {P : ℚ → Prop}
    (h : EntryFilled orders P) (order : ExecutionOrder) {filled : ExecutionOrder}
    (hrole : filled.role ≠ .entry) :
    EntryFilled (replaceOrder orders order filled) P := by
  intro o ho hentry
  rcases mem_replaceOrder ho with rfl | ⟨ho', -⟩
  · exact absurd hentry hrole
  · exact h o ho' hentry

/-- The entry and the position agree, phase by phase. -/
structure Carried (b : Books) (p : ExecutionPosition) : Prop where
  unfilled : beforeFill b.status → EntryFilled b.orders (· = 0)
  unopened : beforeOpen b.status → p.status = .none ∧ p.quantity = 0 ∧ p.entryQuantity = 0
  opened : whileOpen b.status → p.isOpen ∧ EntryFilled b.orders (· = p.entryQuantity)
  ended : isTerminal b.status → p.isOpen = false ∧ p.quantity = 0 ∧
    EntryFilled b.orders (fun f => 0 < f → p.entryQuantity = f)

section Phases

variable {b : Books} {p : ExecutionPosition}

theorem Carried.of_ended (hst : isTerminal b.status) (hopen : p.isOpen = false)
    (hquantity : p.quantity = 0)
    (hentry : EntryFilled b.orders (fun f => 0 < f → p.entryQuantity = f)) : Carried b p := by
  obtain ⟨h₁, h₂, h₃⟩ := (phases_disjoint b.status).2.2 hst
  refine ⟨?_, ?_, ?_, fun _ => ⟨hopen, hquantity, hentry⟩⟩
  · intro h; rw [h₁] at h; cases h
  · intro h; rw [h₂] at h; cases h
  · intro h; rw [h₃] at h; cases h

theorem Carried.of_opened (hst : whileOpen b.status) (hopen : p.isOpen)
    (hentry : EntryFilled b.orders (· = p.entryQuantity)) : Carried b p := by
  obtain ⟨h₁, h₂, h₃⟩ := (phases_disjoint b.status).2.1 hst
  refine ⟨?_, ?_, fun _ => ⟨hopen, hentry⟩, ?_⟩
  · intro h; rw [h₁] at h; cases h
  · intro h; rw [h₂] at h; cases h
  · intro h; rw [h₃] at h; cases h

theorem Carried.of_unopened (hst : beforeOpen b.status)
    (hp : p.status = .none ∧ p.quantity = 0 ∧ p.entryQuantity = 0)
    (hentry : beforeFill b.status → EntryFilled b.orders (· = 0)) : Carried b p := by
  obtain ⟨h₁, h₂⟩ := (phases_disjoint b.status).1 hst
  refine ⟨hentry, fun _ => hp, ?_, ?_⟩
  · intro h; rw [h₁] at h; cases h
  · intro h; rw [h₂] at h; cases h

end Phases

theorem isOpen_of_none {p : ExecutionPosition} (h : p.status = .none) : p.isOpen = false := by
  simp [ExecutionPosition.isOpen, h]

theorem closePosition_isOpen (p : ExecutionPosition) (now : ℤ) :
    (closePosition p now).isOpen = false := rfl

/-- A command that ends a live execution and leaves an unopened position alone. -/
theorem Carried.end_unopened {s : ExecutionState} {p : ExecutionPosition} {b : Books}
    (h : Carried s.books p) (hposition : s.position = some p) (hbefore : beforeOpen s.status)
    (hnone : NoUnopenedEntry s) (hst : isTerminal b.status)
    (horders : ∀ P, EntryFilled s.orders P → EntryFilled b.orders P) : Carried b p := by
  obtain ⟨hstatus, hquantity, -⟩ := h.unopened hbefore
  refine .of_ended hst (isOpen_of_none hstatus) hquantity (horders _ ?_)
  intro o ho hrole hpos
  exact absurd hpos (not_lt.mpr (hnone p hposition hstatus o ho hrole))

/-- REJECT and EXPIRE, which are only legal before the first fill. -/
theorem Carried.end_unfilled {s : ExecutionState} {p : ExecutionPosition} {b : Books}
    (h : Carried s.books p) (hposition : s.position = some p) (hbefore : beforeFill s.status)
    (hst : isTerminal b.status)
    (horders : ∀ P, EntryFilled s.orders P → EntryFilled b.orders P) : Carried b p := by
  refine h.end_unopened hposition (by simp [beforeOpen, hbefore]) ?_ hst horders
  intro _ _ _ o ho hrole
  exact (h.unfilled hbefore o ho hrole).le

/-- A command that ends an execution and closes its open position. -/
theorem Carried.end_opened {s : ExecutionState} {p : ExecutionPosition} {b : Books} {now : ℤ}
    (h : Carried s.books p) (hwhile : whileOpen s.status) (hst : isTerminal b.status)
    (horders : ∀ P, EntryFilled s.orders P → EntryFilled b.orders P) :
    Carried b (closePosition p now) := by
  refine .of_ended hst (closePosition_isOpen p now) rfl (horders _ ?_)
  intro o ho hrole _
  exact ((h.opened hwhile).2 o ho hrole).symm

/-- KILL and CANCEL. -/
theorem Carried.closeIfOpen {s : ExecutionState} {p : ExecutionPosition} {b : Books} {now : ℤ}
    (h : Carried s.books p) (hposition : s.position = some p) (hlive : isTerminal s.status = false)
    (hnone : NoUnopenedEntry s) (hst : isTerminal b.status)
    (horders : ∀ P, EntryFilled s.orders P → EntryFilled b.orders P) :
    Carried b (if p.isOpen then closePosition p now else p) := by
  rcases beforeOpen_or_whileOpen s.status hlive with hbefore | hwhile
  · rw [isOpen_of_none (h.unopened hbefore).1]
    exact h.end_unopened hposition hbefore hnone hst horders
  · rw [if_pos (h.opened hwhile).1]
    exact h.end_opened hwhile hst horders

/-- FAIL and RUNTIME_UNHEALTHY. -/
theorem Carried.keepPosition {s : ExecutionState} {p : ExecutionPosition} {b : Books}
    (h : Carried s.books p) (hposition : s.position = some p) (hlive : isTerminal s.status = false)
    (hclosed : ∀ p ∈ s.position, p.isOpen = false) (hnone : NoUnopenedEntry s)
    (hst : isTerminal b.status)
    (horders : ∀ P, EntryFilled s.orders P → EntryFilled b.orders P) : Carried b p := by
  rcases beforeOpen_or_whileOpen s.status hlive with hbefore | hwhile
  · exact h.end_unopened hposition hbefore hnone hst horders
  · have hopen := (h.opened hwhile).1
    rw [hclosed p hposition] at hopen
    cases hopen

/-- A reduction, by REDUCE or by a protective fill. -/
theorem Carried.reducePosition {s : ExecutionState} {p : ExecutionPosition} {b : Books}
    {quantity : JsNumber} {now : ℤ} (h : Carried s.books p) (hdec : p.Decimal)
    (hwhile : whileOpen s.status)
    (hst : b.status = reducedStatus (reducePosition p quantity now))
    (horders : ∀ P, EntryFilled s.orders P → EntryFilled b.orders P) :
    Carried b (reducePosition p quantity now) := by
  have hentry := horders _ (h.opened hwhile).2
  have hcases := reducePosition_status hdec quantity now
  -- Either the reduction reaches the entry quantity and the execution ends flat, or it stays open.
  by_cases hclose : p.entryQuantity ≤ p.closedQuantity + reduction quantity
  · rw [if_pos hclose] at hcases
    rw [reducedStatus, if_pos hcases] at hst
    refine .of_ended (by rw [hst]; rfl) ?_ (reducePosition_quantity_of_closed hdec hcases) ?_
    · simp [ExecutionPosition.isOpen, hcases]
    · intro o ho hrole _
      exact (hentry o ho hrole).symm
  · rw [if_neg hclose] at hcases
    rw [reducedStatus, hcases, if_neg (by decide)] at hst
    refine .of_opened (by rw [hst]; rfl) ?_ hentry
    simp [ExecutionPosition.isOpen, hcases]

theorem Accepted.carried {s : ExecutionState} {c : ExecutionCommand} {b : Books}
    (h : Accepted s c b) (hsound : Sound s.books) (hlayout : Layout s.intent s.books)
    (hcarried : ∀ p ∈ s.position, Carried s.books p) (hcond : CarriesExposure s c) :
    ∀ p ∈ b.position, Carried b p := by
  obtain ⟨⟨p₀, hp₀, hdec⟩, hgrid⟩ := hsound
  change s.position = some p₀ at hp₀
  change ∀ o ∈ s.orders, _ at hgrid
  have hc : Carried s.books p₀ := hcarried p₀ hp₀
  -- Sweeping the orders leaves what the entry has filled.
  have hswept : ∀ dst now P, EntryFilled s.orders P →
      EntryFilled (terminateOrders s.orders dst now) P :=
    fun dst now _ hP => hP.terminateOrders dst now
  -- Every transition starts in a status that is not terminal.
  have hlive : ∀ dst, canTransition s.status dst → isTerminal s.status = false := by
    have htable : ∀ st dst, canTransition st dst → isTerminal st = false := by decide +kernel
    exact fun dst => htable s.status dst
  -- the forward path before the first fill
  have hforward : ∀ (dst : ExecutionStatus) (orders : List ExecutionOrder),
      beforeFill s.status → beforeFill dst →
      (∀ P, EntryFilled s.orders P → EntryFilled orders P) →
      ∀ p ∈ s.position, Carried ⟨dst, orders, s.fills, s.position⟩ p := by
    intro dst orders hsrc hdst horders p hp
    have hsrc' : beforeOpen s.status := by simp [beforeOpen, hsrc]
    have hdst' : beforeOpen dst := by simp [beforeOpen, hdst]
    have hcp := hcarried p hp
    exact .of_unopened hdst' (hcp.unopened hsrc') fun _ => horders _ (hcp.unfilled hsrc)
  cases h with
  | kill now hl =>
      intro p hp
      rw [hp₀, closeIfOpen_some] at hp
      cases hp
      exact hc.closeIfOpen hp₀ hl (hcond hl) rfl (hswept _ _)
  | runtimeUnhealthy now hl =>
      intro p hp
      obtain ⟨hclosed, hnone⟩ := hcond hl
      exact (hcarried p hp).keepPosition hp hl hclosed hnone rfl (hswept _ _)
  | plan now hstatus =>
      have htable : ∀ st, canTransition st .planned → beforeFill st := by decide
      exact hforward _ _ (htable _ hstatus) rfl fun _ hP => hP
  | arm now hstatus =>
      have htable : ∀ st, canTransition st .ready → beforeFill st := by decide
      exact hforward _ _ (htable _ hstatus) rfl (hswept _ _)
  | submit now hstatus =>
      have htable : ∀ st, canTransition st .submitted → beforeFill st := by decide
      exact hforward _ _ (htable _ hstatus) rfl (hswept _ _)
  | acknowledge now hstatus =>
      have htable : ∀ st, canTransition st .acknowledged → beforeFill st := by decide
      exact hforward _ _ (htable _ hstatus) rfl (hswept _ _)
  | fillEntry now orderId price quantity order hfind hrole hpos hprice hstatus =>
      intro p hp
      have htable : ∀ st dst, (dst = .filled ∨ dst = .partiallyFilled) → canTransition st dst →
          beforeOpen st ∧ beforeOpen dst ∧ beforeFill dst = false := by decide +kernel
      obtain ⟨hsrc, hdst, hfill⟩ := htable _ _ (fillTarget_cases _) hstatus
      refine .of_unopened hdst ((hcarried p hp).unopened hsrc) ?_
      intro h
      rw [hfill] at h
      cases h
  | fillProtective now orderId price quantity order p hfind hrole hpos hprice hposition hopen
      hstatus =>
      intro p' hp'
      cases hp'
      obtain rfl : p₀ = p := Option.some.inj (hp₀.symm.trans hposition)
      have htable : ∀ st dst, (dst = .closed ∨ dst = .reducing) → canTransition st dst →
          whileOpen st := by decide +kernel
      exact hc.reducePosition hdec (htable _ _ (reducedStatus_cases _) hstatus) rfl
        fun P hP => hP.replaceOrder order hrole
  | «open» now entry hstatus hfind hfilled =>
      intro p hp
      cases hp
      have hmem := List.mem_of_find?_eq_some hfind
      have hrole : entry.role = .entry := by simpa using List.find?_some hfind
      have hent := hgrid entry hmem
      refine .of_opened rfl ?_ ?_
      · simp [ExecutionPosition.isOpen, openPosition_status hent hfilled]
      · intro o ho ho'
        rw [openPosition_entryQuantity _ _ _ hent hfilled, hlayout.entry_unique ho hmem ho' hrole]
  | reduce now quantity price p hstatus hposition hopen =>
      intro p' hp'
      cases hp'
      obtain rfl : p₀ = p := Option.some.inj (hp₀.symm.trans hposition)
      have htable : ∀ st, canTransition st .reducing → whileOpen st := by decide
      exact hc.reducePosition hdec (htable _ hstatus) rfl fun _ hP => hP
  | close now price hstatus =>
      intro p hp
      rw [hp₀] at hp
      cases hp
      have htable : ∀ st, canTransition st .closed → whileOpen st := by decide
      exact hc.end_opened (htable _ hstatus) rfl (hswept _ _)
  | cancel now reason hstatus =>
      intro p hp
      rw [hp₀, closeIfOpen_some] at hp
      cases hp
      exact hc.closeIfOpen hp₀ (hlive _ hstatus) (hcond (hlive _ hstatus)) rfl (hswept _ _)
  | reject now reason hstatus =>
      intro p hp
      have htable : ∀ st, canTransition st .rejected → beforeFill st := by decide
      exact (hcarried p hp).end_unfilled hp (htable _ hstatus) rfl (hswept _ _)
  | expire now hstatus =>
      intro p hp
      have htable : ∀ st, canTransition st .expired → beforeFill st := by decide
      exact (hcarried p hp).end_unfilled hp (htable _ hstatus) rfl (hswept _ _)
  | fail now reason hstatus =>
      intro p hp
      obtain ⟨hclosed, hnone⟩ := hcond (hlive _ hstatus)
      exact (hcarried p hp).keepPosition hp (hlive _ hstatus) hclosed hnone rfl (hswept _ _)

theorem start_carried (intent : ExecutionIntent) :
    ∀ p ∈ (start intent).position, Carried (start intent).books p := by
  intro p hp
  cases hp
  refine .of_unopened rfl ⟨rfl, rfl, rfl⟩ fun _ => ?_
  intro o ho _
  exact (buildOrders_fresh ho).2

theorem run_carried {intent : ExecutionIntent} {commands : List ExecutionCommand}
    (h : RunMeets step CarriesExposure (start intent) commands) :
    Sound (run step (start intent) commands).books ∧
    ∀ p ∈ (run step (start intent) commands).position,
      Carried (run step (start intent) commands).books p := by
  -- The three invariants go together: decimals, the layout of the plan, and the exposure.
  have hstep : ∀ s c,
      (Sound s.books ∧ Layout s.intent s.books ∧ ∀ p ∈ s.books.position, Carried s.books p) →
      CarriesExposure s c →
      (Sound (step s c).books ∧ Layout (step s c).intent (step s c).books ∧
        ∀ p ∈ (step s c).books.position, Carried (step s c).books p) := by
    intro s c hs hcond
    exact step_keeps
      (fun intent b => Sound b ∧ Layout intent b ∧ ∀ p ∈ b.position, Carried b p) hs
      fun b hacc => ⟨hacc.sound hs.1, hacc.layout hs.2.1, hacc.carried hs.1 hs.2.1 hs.2.2 hcond⟩
  have hrun := run_invariant hstep
    ⟨start_sound intent, start_layout intent, start_carried intent⟩ h
  exact ⟨hrun.1, hrun.2.2⟩

/-- In every run that abandons no exposure, an execution that has ended has a flat position, into
which everything the entry filled was carried. -/
theorem terminal_position_flat (intent : ExecutionIntent)
    (commands visited : List ExecutionCommand) (hpart : visited <+: commands)
    (hcond : RunMeets step CarriesExposure (start intent) commands)
    (hterminal : isTerminal (run step (start intent) visited).status) :
    ∃ p, (run step (start intent) visited).position = some p ∧
      p.status ≠ .opened ∧ p.status ≠ .reducing ∧ p.quantity = 0 ∧
      ∀ o ∈ (run step (start intent) visited).orders, o.role = .entry → 0 < o.filledQuantity →
        p.entryQuantity = o.filledQuantity := by
  obtain ⟨rest, rfl⟩ := hpart
  obtain ⟨hsound, hcarried⟩ := run_carried hcond.of_append
  -- There is always a position record, flat or not.
  obtain ⟨p, hp, -⟩ := hsound.position
  obtain ⟨hopen, hquantity, hentry⟩ := (hcarried p hp).ended hterminal
  simp only [ExecutionPosition.isOpen, Bool.or_eq_false_iff, decide_eq_false_iff_not] at hopen
  exact ⟨p, hp, hopen.1, hopen.2, hquantity, hentry⟩

theorem terminal_position_flat_kill :
    let s := run step (start sampleIntent)
      (openRun ++ [.fill 7 "exec:sig-1:plan:ord:target:2" (.fin 102) (.fin 1), .kill 8])
    ∃ p, s.position = some p ∧ p.status ≠ .opened ∧ p.status ≠ .reducing ∧ p.quantity = 0 ∧
      ∀ o ∈ s.orders, o.role = .entry → 0 < o.filledQuantity →
        p.entryQuantity = o.filledQuantity :=
  terminal_position_flat sampleIntent _ _ (List.prefix_refl _) (by decide +kernel)
    (by decide +kernel)

/-- A failure after OPEN leaves three units open, and a cancellation after a partial entry fill
leaves one unit in no position. -/
theorem fail_and_cancel_abandon_exposure :
    let failed := run step (start sampleIntent) (openRun ++ [.fail 7 none])
    let cancelled := run step (start sampleIntent) [.plan 1, .arm 2, .submit 3, .acknowledge 4,
      .fill 5 "exec:sig-1:plan:ord:entry:0" (.fin 100) (.fin 1), .cancel 6 none]
    (failed.status = .failed ∧
      failed.position.map (fun p => (p.status, p.quantity)) = some (.opened, 3)) ∧
    (cancelled.status = .cancelled ∧
      cancelled.position.map (·.entryQuantity) = some 0 ∧
      ∃ o ∈ cancelled.orders, o.role = .entry ∧ o.filledQuantity = 1) := by
  decide +kernel

end NexusQuant.ExecutionCore
