import NexusQuant.ExecutionCore.Books

/-!
# Audit and lifecycle

An accepted command appends one event to the audit trail and one status to the lifecycle; a rejected
one touches neither.  Some branches of the reducer guard one target and commit another (a reduction
guards REDUCING and may end in CLOSED), and two guard none, so that the legality of what is recorded
is a fact about the whole table: `Accepted.legal`.
-/

namespace NexusQuant.ExecutionCore

open Run

/-- The audit trail and the lifecycle of a state tell the same story. -/
structure AuditConsistent (s : ExecutionState) : Prop where
  seq : s.seq = s.audit.count
  count : s.audit.count = s.audit.events.length
  numbered : ∀ (k : ℕ) (e : ExecutionEvent), s.audit.events[k]? = some e → e.seq = k + 1
  distinct : (s.audit.events.map (·.eventId)).Nodup
  recorded : ∀ (k : ℕ) (e : ExecutionEvent), s.audit.events[k]? = some e →
    e.previousStatus.isSome ∧ e.previousStatus = s.lifecycle.history[k]? ∧
    e.newStatus.isSome ∧ e.newStatus = s.lifecycle.history[k + 1]?
  length : s.lifecycle.history.length = s.audit.events.length + 1
  legal : ∀ (k : ℕ) (src dst : ExecutionStatus), s.lifecycle.history[k]? = some src →
    s.lifecycle.history[k + 1]? = some dst → canTransition src dst
  last : s.lifecycle.history.getLast? = some s.status
  current : s.lifecycle.current = s.status
  terminal : s.lifecycle.terminal = isTerminal s.status

/-! ## Every recorded step is legal -/

/-- CANCELLED and FAILED are reachable from every live status. -/
theorem canTransition_of_live : ∀ st, isTerminal st = false →
    canTransition st .cancelled ∧ canTransition st .failed := by
  decide

/-- A status that can be reduced can be closed. -/
theorem canTransition_closed_of_reducing : ∀ st, canTransition st .reducing →
    canTransition st .closed := by
  decide

theorem canTransition_reducedStatus {st : ExecutionStatus} (h : canTransition st .reducing)
    (p : ExecutionPosition) : canTransition st (reducedStatus p) := by
  unfold reducedStatus
  split
  · exact canTransition_closed_of_reducing st h
  · exact h

/-- Every accepted command moves along the transition table. -/
theorem Accepted.legal {s : ExecutionState} {c : ExecutionCommand} {b : Books}
    (h : Accepted s c b) : canTransition s.status b.status := by
  cases h with
  | kill now hlive => exact (canTransition_of_live _ hlive).1
  | runtimeUnhealthy now hlive => exact (canTransition_of_live _ hlive).2
  | reduce now quantity price p hstatus hposition hopen =>
      exact canTransition_reducedStatus hstatus _
  | fillProtective now orderId price quantity order p hfind hrole hpos hprice hposition hopen
      hstatus => exact hstatus
  | fillEntry now orderId price quantity order hfind hrole hpos hprice hstatus => exact hstatus
  | plan now hstatus | arm now hstatus | submit now hstatus | acknowledge now hstatus => exact hstatus
  | «open» now entry hstatus | close now price hstatus | cancel now reason hstatus => exact hstatus
  | reject now reason hstatus | expire now hstatus | fail now reason hstatus => exact hstatus

/-! ## One commit -/

theorem makeEventId_injective (intentId : String) : Function.Injective (makeEventId intentId) := by
  intro i j h
  simp only [makeEventId, String.append_right_inj] at h
  exact Nat.repr_injective h

/-- Identifiers that are made from the positions are distinct. -/
theorem nodup_eventIds {events : List ExecutionEvent} {intentId : String}
    (h : ∀ (k : ℕ) (e : ExecutionEvent), events[k]? = some e →
      e.eventId = makeEventId intentId (k + 1)) : (events.map (·.eventId)).Nodup := by
  -- The identifiers are those of the positions 1, 2, and so on.
  have hids : events.map (·.eventId) =
      (List.range events.length).map fun k => makeEventId intentId (k + 1) := by
    apply List.ext_getElem?
    intro k
    rw [List.getElem?_map, List.getElem?_map]
    cases he : events[k]? with
    | none =>
        rw [List.getElem?_eq_none_iff] at he
        rw [List.getElem?_eq_none (by rwa [List.length_range])]
        rfl
    | some e =>
        rw [List.getElem?_range (List.getElem?_eq_some_iff.mp he).1]
        exact congrArg some (h k e he)
  rw [hids]
  apply List.nodup_range.map
  intro i j hij
  exact Nat.succ_injective (makeEventId_injective intentId hij)

/-- The invariant of a run: the trail is consistent, and its identifiers are made from the
positions. -/
structure Trail (s : ExecutionState) : Prop extends AuditConsistent s where
  identified : ∀ (k : ℕ) (e : ExecutionEvent), s.audit.events[k]? = some e →
    e.eventId = makeEventId s.intentId (k + 1)

theorem trail_init (intent : ExecutionIntent) (plan : Option ExecutionPlan) :
    Trail (initExecutionState intent plan) where
  seq := rfl
  count := rfl
  numbered := by simp [initExecutionState, emptyAudit]
  distinct := List.nodup_nil
  recorded := by simp [initExecutionState, emptyAudit]
  length := rfl
  legal := by
    intro k src dst _ hdst
    cases hdst
  last := rfl
  current := rfl
  terminal := rfl
  identified := by simp [initExecutionState, emptyAudit]

/-- The identifier of the event a commit appends. -/
theorem Trail.commit_identified {s : ExecutionState} (h : Trail s) (k : Commit) :
    ∀ (i : ℕ) (e : ExecutionEvent), (commit s k).state.audit.events[i]? = some e →
      e.eventId = makeEventId s.intentId (i + 1) := by
  show ∀ (i : ℕ) (e : ExecutionEvent), (s.audit.events ++ [_])[i]? = some e → _
  apply forall_getElem?_concat
    (P := fun i (e : ExecutionEvent) _ => e.eventId = makeEventId s.intentId (i + 1)) h.identified
  -- The new event takes the next number, which is one past the length of the trail.
  rw [← h.count, ← h.seq]

theorem Trail.commit {s : ExecutionState} (h : Trail s) {k : Commit}
    (hlegal : canTransition s.status k.status) : Trail (commit s k).state where
  seq := by
    show s.seq + 1 = (s.audit.events ++ [_]).length
    rw [List.length_append, List.length_singleton, h.seq, h.count]
  count := rfl
  numbered := by
    show ∀ (i : ℕ) (e : ExecutionEvent), (s.audit.events ++ [_])[i]? = some e → _
    apply forall_getElem?_concat (P := fun i (e : ExecutionEvent) _ => e.seq = i + 1) h.numbered
    rw [← h.count, ← h.seq]
  distinct := nodup_eventIds (h.commit_identified k)
  recorded := by
    -- The history is one longer than the events, so the status before the event is its last entry.
    have hlast : s.lifecycle.history[s.audit.events.length]? = some s.status := by
      have hend := h.last
      rwa [List.getLast?_eq_getElem?, h.length, Nat.add_sub_cancel] at hend
    have hlen := h.length
    show ∀ (i : ℕ) (e : ExecutionEvent), (s.audit.events ++ [_])[i]? = some e →
      e.previousStatus.isSome ∧ e.previousStatus = (s.lifecycle.history ++ [k.status])[i]? ∧
      e.newStatus.isSome ∧ e.newStatus = (s.lifecycle.history ++ [k.status])[i + 1]?
    apply forall_getElem?_concat (P := fun i (e : ExecutionEvent) _ =>
      e.previousStatus.isSome ∧ e.previousStatus = (s.lifecycle.history ++ [k.status])[i]? ∧
      e.newStatus.isSome ∧ e.newStatus = (s.lifecycle.history ++ [k.status])[i + 1]?)
    · -- the entries that were there are still at their places
      intro i e he
      have hi : i < s.audit.events.length := (List.getElem?_eq_some_iff.mp he).1
      rw [List.getElem?_append_left (by omega), List.getElem?_append_left (by omega)]
      exact h.recorded i e he
    · rw [List.getElem?_append_left (by omega), hlast, List.getElem?_append_right (by omega), hlen,
        Nat.sub_self]
      exact ⟨rfl, rfl, rfl, rfl⟩
  length := by
    show (s.lifecycle.history ++ [k.status]).length = (s.audit.events ++ [_]).length + 1
    rw [List.length_append, List.length_append, List.length_singleton, List.length_singleton, h.length]
  legal := by
    show ∀ (i : ℕ) (src dst : ExecutionStatus), (s.lifecycle.history ++ [k.status])[i]? = some src →
      (s.lifecycle.history ++ [k.status])[i + 1]? = some dst → canTransition src dst
    intro i src dst hsrc hdst
    have hlen : i + 1 < (s.lifecycle.history ++ [k.status]).length :=
      (List.getElem?_eq_some_iff.mp hdst).1
    rw [List.length_append, List.length_singleton] at hlen
    rw [List.getElem?_append_left (by omega)] at hsrc
    by_cases hold : i + 1 < s.lifecycle.history.length
    · rw [List.getElem?_append_left hold] at hdst
      exact h.legal i src dst hsrc hdst
    · -- the new pair is the committed transition
      have hi : i + 1 = s.lifecycle.history.length := by omega
      have hend := h.last
      rw [List.getLast?_eq_getElem?, ← hi, Nat.add_sub_cancel, hsrc] at hend
      rw [hi, List.getElem?_append_right le_rfl, Nat.sub_self] at hdst
      rw [Option.some.inj hend, ← Option.some.inj hdst]
      exact hlegal
  last := List.getLast?_concat ..
  current := rfl
  terminal := rfl
  identified := h.commit_identified k

/-- One command keeps the trail. -/
theorem Trail.step {s : ExecutionState} (h : Trail s) (c : ExecutionCommand) : Trail (step s c) := by
  unfold ExecutionCore.step
  rcases reduceExecution_cases s c with ⟨why, message, now, hreject⟩ | ⟨k, hcommit, haccepted⟩
  · rw [hreject]
    exact h
  · rw [hcommit]
    exact h.commit haccepted.legal

/-! ## The type of a recorded event -/

/-- The types of event that record the arrival in a status. -/
def recordedAs : ExecutionStatus → List ExecutionEventType
  | .notCreated => []
  | .planned => [.planned]
  | .ready => [.armed]
  | .submitted => [.submitted]
  | .acknowledged => [.acknowledged]
  | .partiallyFilled => [.partiallyFilled]
  | .filled => [.filled]
  | .opened => [.opened]
  | .reducing => [.reduced]
  | .closed => [.closed]
  | .rejected => [.rejected]
  | .expired => [.expired]
  | .cancelled => [.cancelled, .killed]
  | .failed => [.failed]

/-- The event of a result is of a type that fits the status it leads to, and carries the clock of
the command. -/
def EventFits (now : ℤ) (r : ExecutionResult) : Prop :=
  ∀ e ∈ r.event, e.type ∈ recordedAs r.state.status ∧ e.ts = now

theorem eventFits_reject (s : ExecutionState) (why : ExecutionFailureReason) (message : String)
    (now : ℤ) : EventFits now (reject s why message now) := by
  intro e he
  cases he

theorem eventFits_commit {s : ExecutionState} {k : Commit} (h : k.type ∈ recordedAs k.status) :
    EventFits k.at (commit s k) := by
  intro e he
  cases he
  exact ⟨h, rfl⟩

theorem fillTarget_recorded (filled : ExecutionOrder) :
    (if fillTarget filled = .filled then ExecutionEventType.filled else .partiallyFilled) ∈
      recordedAs (fillTarget filled) := by
  unfold fillTarget
  by_cases h : filled.status = .filled
  · rw [if_pos h]
    decide
  · rw [if_neg h]
    decide

theorem reducedStatus_recorded (p : ExecutionPosition) :
    (if reducedStatus p = .closed then ExecutionEventType.closed else .reduced) ∈
      recordedAs (reducedStatus p) := by
  unfold reducedStatus
  by_cases h : p.status = .closed
  · rw [if_pos h]
    decide
  · rw [if_neg h]
    decide

theorem reduceFill_eventFits (s : ExecutionState) (orderId : String) (price quantity : JsNumber)
    (now : ℤ) : EventFits now (reduceFill s orderId price quantity now) := by
  unfold reduceFill
  split
  · exact eventFits_reject _ _ _ _
  -- Guards first; then the entry commits by its target, the others by the reduced position.
  · split
    · exact eventFits_reject _ _ _ _
    · split
      · dsimp only
        split
        · exact eventFits_reject _ _ _ _
        · exact eventFits_commit (fillTarget_recorded _)
      · split
        · exact eventFits_reject _ _ _ _
        · dsimp only
          split
          · exact eventFits_reject _ _ _ _
          · exact eventFits_commit (reducedStatus_recorded _)

theorem reduceExecution_eventFits (s : ExecutionState) (c : ExecutionCommand) :
    EventFits c.now (reduceExecution s c) := by
  unfold reduceExecution
  split
  · exact eventFits_reject _ _ _ _
  · cases c with
    | fill now orderId price quantity => exact reduceFill_eventFits s orderId price quantity now
    | runtimeUnhealthy now => exact eventFits_commit (by simp [recordedAs])
    -- The commands with one guard, then those with two, and so on.
    | kill now | acknowledge now | close now price | cancel now reason | reject now reason
    | expire now | fail now reason =>
        dsimp only
        split
        · exact eventFits_reject _ _ _ _
        · exact eventFits_commit (by simp [recordedAs])
    | plan now | arm now | submit now =>
        dsimp only
        split
        · exact eventFits_reject _ _ _ _
        · split
          · exact eventFits_reject _ _ _ _
          · exact eventFits_commit (by simp [recordedAs])
    | «open» now =>
        dsimp only
        split
        · exact eventFits_reject _ _ _ _
        · split
          · exact eventFits_reject _ _ _ _
          · split
            · exact eventFits_reject _ _ _ _
            · exact eventFits_commit (by simp [recordedAs])
    | reduce now quantity price =>
        dsimp only
        split
        · exact eventFits_reject _ _ _ _
        · split
          · exact eventFits_reject _ _ _ _
          · exact eventFits_commit (reducedStatus_recorded _)

/-! ## Refused commands -/

theorem refused_unchanged {s : ExecutionState} {c : ExecutionCommand}
    (h : (reduceExecution s c).ok = false) :
    (reduceExecution s c).state = s ∧ (reduceExecution s c).event = none := by
  rcases reduceExecution_cases s c with ⟨why, message, now, hreject⟩ | ⟨k, hcommit, -⟩
  · rw [hreject]
    exact ⟨rfl, rfl⟩
  · rw [hcommit] at h
    cases h

theorem terminal_unchanged {s : ExecutionState} (h : isTerminal s.status) (c : ExecutionCommand) :
    (reduceExecution s c).state = s := by
  rcases reduceExecution_cases s c with ⟨why, message, now, hreject⟩ | ⟨k, -, haccepted⟩
  · rw [hreject]
    rfl
  -- The table has no way out of a terminal status.
  · have hstuck : ∀ src dst, isTerminal src → canTransition src dst = false := by decide
    have hlegal := haccepted.legal
    rw [hstuck _ _ h] at hlegal
    cases hlegal

/-- In every state that commands reach from a fresh execution the audit trail and the lifecycle are
consistent, a refused command changes nothing and records nothing, and no command changes a terminal
execution. -/
theorem audit_consistent (intent : ExecutionIntent) (plan : Option ExecutionPlan)
    (commands : List ExecutionCommand) :
    AuditConsistent (run step (initExecutionState intent plan) commands) ∧
    ∀ c : ExecutionCommand,
      let s := run step (initExecutionState intent plan) commands
      ((reduceExecution s c).ok = false →
        (reduceExecution s c).state = s ∧ (reduceExecution s c).event = none) ∧
      (isTerminal s.status → (reduceExecution s c).state = s) := by
  have htrail : Trail (run step (initExecutionState intent plan) commands) :=
    run_keeps (fun _ c htrail => htrail.step c) (trail_init intent plan) commands
  exact ⟨htrail.toAuditConsistent, fun c =>
    ⟨refused_unchanged, fun hterminal => terminal_unchanged hterminal c⟩⟩

end NexusQuant.ExecutionCore
