import NexusQuant.Control.Rules
import NexusQuant.Lib.Run
import NexusQuant.Lib.Slots

/-!
# The kill switch and its audit trail

The four commands of `apps/web/src/lib/control.ts` and `services/workers/src/control/store.ts`, one
step for each database statement: the switch row is upserted, then the audit row is created, and the
web reads the switch back.  Any number of commands run side by side; a statement may fail, or be
committed while its answer is lost, and a process may crash between two statements.  `changes` keeps
the commands that were applied to the switch, in their order.
-/

namespace NexusQuant.Control

open Run

/-! ## The rows -/

structure ControlKillSwitch where
  engaged : Bool
  actor : Option String
  reason : Option String
  engagedAt : Option String
  resumedBy : Option String
  resumedAt : Option String
deriving DecidableEq, Repr

structure ControlAuditLog where
  actor : String
  action : String
  reason : Option String
  result : String
  source : Option String
deriving DecidableEq, Repr

/-! ## The commands -/

inductive KillCommand where
  | kill | resume
deriving DecidableEq, Repr

def KillCommand.action : KillCommand → String
  | .kill => "KILL"
  | .resume => "RESUME"

inductive KillSource where
  | web | worker
deriving DecidableEq, Repr

/-- A call: the command, by whom and why, and the instant its function reads first. -/
structure KillCall where
  source : KillSource
  command : KillCommand
  actor : String
  reason : String
  now : String
deriving DecidableEq, Repr

def engageKill (actor reason now : String) : KillCall := ⟨.web, .kill, actor, reason, now⟩

def resumeKill (actor reason now : String) : KillCall := ⟨.web, .resume, actor, reason, now⟩

def engageKillSwitch (actor reason now : String) : KillCall := ⟨.worker, .kill, actor, reason, now⟩

def resumeKillSwitch (actor reason now : String) : KillCall :=
  ⟨.worker, .resume, actor, reason, now⟩

/-- The row an upsert creates a switch from. -/
def blankSwitch : ControlKillSwitch := ⟨false, none, none, none, none, none⟩

/-- The upsert: engaging clears the marks of the last resumption, resuming keeps those of the last
engagement. -/
def KillCall.upsert (call : KillCall) (row : Option ControlKillSwitch) : ControlKillSwitch :=
  match call.command with
  | .kill => ⟨true, some call.actor, some call.reason, some call.now, none, none⟩
  | .resume => { row.getD blankSwitch with
      engaged := false
      resumedBy := some call.actor
      reason := some call.reason
      resumedAt := some call.now }

/-- The audit row.  `appendAudit` leaves an empty reason out, the web writes it. -/
def KillCall.audit (call : KillCall) : ControlAuditLog where
  actor := call.actor
  action := call.command.action
  reason := if call.source = .worker ∧ call.reason = "" then none else some call.reason
  result := "ACCEPTED"
  source := some (if call.source = .web then "web" else "worker")

structure KillSwitchView where
  engaged : Bool
  actor : Option String
  reason : Option String
  engagedAt : Option String
deriving DecidableEq, Repr

def getKillSwitch (row : Option ControlKillSwitch) : KillSwitchView :=
  match row with
  | none => ⟨false, none, none, none⟩
  | some row => ⟨row.engaged, row.actor, row.reason, row.engagedAt⟩

structure ControlCommandResult where
  ok : Bool
  killSwitch : KillSwitchView
  message : String
deriving DecidableEq, Repr

def KillCommand.message : KillCommand → String
  | .kill => "kill switch engaged — trading stopped"
  | .resume => "kill switch disengaged — runtime will re-evaluate"

/-! ## Commands side by side -/

/-- The statement a call executes next. -/
inductive KillPhase where
  | upsert | audit | read
deriving DecidableEq, Repr

/-- A call under way; `mark` is the number of changes there were when it entered its phase, so that the
changes after the upsert of a call that owes its audit row are those from its mark on. -/
structure KillInFlight where
  call : KillCall
  phase : KillPhase
  mark : ℕ
deriving DecidableEq, Repr

/-- How a statement ends: committed and answered, not executed, or committed with its answer lost. -/
inductive StatementOutcome where
  | done | failed | lost
deriving DecidableEq, Repr

structure KillState where
  row : Option ControlKillSwitch
  auditLog : List ControlAuditLog
  changes : List KillCall
  inFlight : List KillInFlight
  returned : List ControlCommandResult
deriving DecidableEq, Repr

def KillState.initial : KillState := ⟨none, [], [], [], []⟩

inductive KillStep where
  | begin (call : KillCall)
  | upsert (i : ℕ) (outcome : StatementOutcome)
  | audit (i : ℕ) (outcome : StatementOutcome)
  | read (i : ℕ) (outcome : StatementOutcome)
  /-- The process of a call crashes. -/
  | crash (i : ℕ)
  /-- Another writer of the audit log. -/
  | note (entry : ControlAuditLog)
deriving DecidableEq, Repr

/-- The call at position `i`, if `phase` is what it is at. -/
def KillState.callAt (s : KillState) (i : ℕ) (phase : KillPhase) : Option KillCall :=
  (s.inFlight[i]?.filter fun c => c.phase = phase).map KillInFlight.call

def KillState.drop (s : KillState) (i : ℕ) : KillState :=
  { s with inFlight := s.inFlight.eraseIdx i }

def KillState.next (s : KillState) (i : ℕ) (call : KillCall) (phase : KillPhase) : KillState :=
  { s with inFlight := s.inFlight.set i ⟨call, phase, s.changes.length⟩ }

def KillState.apply (s : KillState) (call : KillCall) : KillState :=
  { s with row := some (call.upsert s.row), changes := s.changes ++ [call] }

def KillState.append (s : KillState) (entry : ControlAuditLog) : KillState :=
  { s with auditLog := s.auditLog ++ [entry] }

/-- A row about a command on the switch. -/
def ControlAuditLog.isCommand (entry : ControlAuditLog) : Bool :=
  entry.action = "KILL" || entry.action = "RESUME"

def killStep (s : KillState) : KillStep → KillState
  | .begin call => { s with inFlight := s.inFlight ++ [⟨call, .upsert, s.changes.length⟩] }
  | .upsert i outcome =>
      match s.callAt i .upsert, outcome with
      | none, _ => s
      | some call, .done => (s.apply call).next i call .audit
      | some _, .failed => s.drop i
      | some call, .lost => (s.apply call).drop i
  | .audit i outcome =>
      match s.callAt i .audit, outcome with
      | none, _ => s
      | some call, .done =>
          if call.source = .web then (s.append call.audit).next i call .read
          else (s.append call.audit).drop i
      | some _, .failed => s.drop i
      | some call, .lost => (s.append call.audit).drop i
  | .read i outcome =>
      match s.callAt i .read, outcome with
      | none, _ => s
      | some call, .done => { s.drop i with
          returned := s.returned ++ [⟨true, getKillSwitch s.row, call.command.message⟩] }
      | some _, _ => s.drop i
  | .crash i => s.drop i
  | .note entry => if entry.isCommand then s else s.append entry

/-! ## What the trail owes the switch -/

/-- The audit rows about the switch, oldest first. -/
def KillState.trail (s : KillState) : List ControlAuditLog :=
  s.auditLog.filter ControlAuditLog.isCommand

/-- The calls that have changed the switch and not yet written their audit row. -/
def KillState.owed (s : KillState) : ℕ := s.inFlight.countP fun c => c.phase = .audit

/-- No change loses its audit row, and the call whose row is written last, with none owed after it, is
also the one that has changed the switch last, but for calls of the same command and actor. -/
def Audited (s : KillState) : KillStep → Prop
  | .upsert i outcome => outcome = .lost → s.callAt i .upsert = none
  | .audit i outcome => ∀ c ∈ s.inFlight[i]?, c.phase = .audit → outcome ≠ .failed ∧
      (s.owed = 1 → ∀ later ∈ (s.changes.drop c.mark).getLast?,
        later.command = c.call.command ∧ later.actor = c.call.actor)
  | .crash i => s.callAt i .audit = none
  | _ => True

instance (s : KillState) (a : KillStep) : Decidable (Audited s a) := by
  cases a <;> dsimp only [Audited] <;> infer_instance

variable {s : KillState} {i : ℕ} {call : KillCall} {phase : KillPhase}

theorem callAt_eq_some :
    s.callAt i phase = some call ↔ ∃ mark, s.inFlight[i]? = some ⟨call, phase, mark⟩ := by
  unfold KillState.callAt
  cases hget : s.inFlight[i]? with
  | none => simp
  | some c =>
      obtain ⟨callee, at_, mark⟩ := c
      by_cases hphase : at_ = phase
      · simp [hphase]
      · simp [hphase]

@[simp] theorem isCommand_audit (call : KillCall) : call.audit.isCommand = true := by
  obtain ⟨-, command, -, -, -⟩ := call
  cases command <;> rfl

theorem trail_append_audit : (s.append call.audit).trail = s.trail ++ [call.audit] := by
  show (s.auditLog ++ [call.audit]).filter _ = _
  rw [List.filter_append, List.filter_singleton, isCommand_audit]
  rfl

theorem trail_append_other {entry : ControlAuditLog} (h : entry.isCommand = false) :
    (s.append entry).trail = s.trail := by
  show (s.auditLog ++ [entry]).filter _ = _
  rw [List.filter_append, List.filter_singleton, h]
  exact List.append_nil _

/-- One for a call that owes its audit row. -/
def KillPhase.debt (phase : KillPhase) : ℕ := if phase = .audit then 1 else 0

theorem owed_drop (h : s.callAt i phase = some call) : (s.drop i).owed + phase.debt = s.owed := by
  obtain ⟨mark, hget⟩ := callAt_eq_some.mp h
  have hcount := (Slots.perm_cons_eraseIdx hget).countP_eq fun c => decide (c.phase = .audit)
  rw [List.countP_cons] at hcount
  cases phase <;> exact hcount

theorem owed_next (h : s.callAt i phase = some call) (after : KillPhase) :
    (s.next i call after).owed + phase.debt = s.owed + after.debt := by
  obtain ⟨mark, hget⟩ := callAt_eq_some.mp h
  have hcount := (Slots.perm_cons_set (b := ⟨call, after, s.changes.length⟩) hget).countP_eq
    fun c => decide (c.phase = .audit)
  rw [List.countP_cons, List.countP_cons] at hcount
  cases phase <;> cases after <;> exact hcount

theorem owed_crash (h : s.callAt i .audit = none) : (s.drop i).owed = s.owed := by
  cases hget : s.inFlight[i]? with
  | none =>
      have hsame : s.drop i = s := by
        unfold KillState.drop
        rw [List.eraseIdx_of_length_le (List.getElem?_eq_none_iff.mp hget)]
      rw [hsame]
  | some c =>
      obtain ⟨callee, at_, mark⟩ := c
      have hdrop := owed_drop (callAt_eq_some.mpr ⟨mark, hget⟩)
      have hdebt : at_.debt = 0 := by
        apply if_neg
        rintro rfl
        rw [callAt_eq_some.mpr ⟨mark, hget⟩] at h
        cases h
      omega

theorem mem_of_mem_drop {c : KillInFlight} (h : c ∈ (s.drop i).inFlight) : c ∈ s.inFlight :=
  List.mem_of_mem_eraseIdx h

theorem mem_or_eq_of_mem_next {c : KillInFlight} (h : c ∈ (s.next i call phase).inFlight) :
    c ∈ s.inFlight ∨ c = ⟨call, phase, s.changes.length⟩ :=
  List.mem_or_eq_of_mem_set h

/-! ## The invariant -/

/-- What a change leaves in the switch. -/
def KillCall.Shown (call : KillCall) (row : ControlKillSwitch) : Prop :=
  match call.command with
  | .kill => row.engaged = true ∧ row.actor = some call.actor
  | .resume => row.engaged = false ∧ row.resumedBy = some call.actor

theorem shown_upsert (call : KillCall) (row : Option ControlKillSwitch) :
    call.Shown (call.upsert row) := by
  obtain ⟨-, command, -, -, -⟩ := call
  cases command <;> exact ⟨rfl, rfl⟩

/-- The changes up to the mark of a call end with its own. -/
def KillInFlight.Marked (c : KillInFlight) (changes : List KillCall) : Prop :=
  ∃ before later, changes = before ++ c.call :: later ∧ c.mark = before.length + 1

/-- Every change has its audit row or a call that owes it, which is marked; when none is owed the last row
is about a change like the latest. -/
structure KillSound (s : KillState) : Prop where
  row : s.row = s.changes.foldl (fun row call => some (call.upsert row)) none
  count : s.changes.length = s.trail.length + s.owed
  last : s.owed = 0 → s.trail.getLast?.map (fun e => (e.action, e.actor)) =
    s.changes.getLast?.map fun c => (c.command.action, c.actor)
  marked : ∀ c ∈ s.inFlight, c.phase = .audit → c.Marked s.changes

theorem killSound_initial : KillSound .initial := ⟨rfl, rfl, fun _ => rfl, by simp [KillState.initial]⟩

/-- A step that moves no row and no debt. -/
theorem KillSound.congr (h : KillSound s) {t : KillState} (hrow : t.row = s.row)
    (hchanges : t.changes = s.changes) (htrail : t.trail = s.trail) (howed : t.owed = s.owed)
    (hflight : ∀ c ∈ t.inFlight, c.phase = .audit → c ∈ s.inFlight) : KillSound t := by
  constructor
  · rw [hrow, hchanges]
    exact h.row
  · rw [hchanges, htrail, howed]
    exact h.count
  · rw [hchanges, htrail, howed]
    exact h.last
  · intro c hc hphase
    rw [hchanges]
    exact h.marked c (hflight c hc hphase) hphase

/-- A change is applied, and its audit row is owed. -/
theorem KillSound.apply (h : KillSound s) {t : KillState} (hrow : t.row = (s.apply call).row)
    (hchanges : t.changes = s.changes ++ [call]) (htrail : t.trail = s.trail)
    (howed : t.owed = s.owed + 1)
    (hflight : ∀ c ∈ t.inFlight, c ∈ s.inFlight ∨ c = ⟨call, .audit, (s.apply call).changes.length⟩) :
    KillSound t := by
  constructor
  · rw [hrow, hchanges, List.foldl_append, ← h.row]
    rfl
  · rw [hchanges, htrail, howed, List.length_append, h.count]
    exact Nat.add_assoc _ _ _
  · intro hzero
    omega
  · intro c hc hphase
    rw [hchanges]
    rcases hflight c hc with hold | rfl
    · obtain ⟨before, later, heq, hmark⟩ := h.marked c hold hphase
      refine ⟨before, later ++ [call], ?_, hmark⟩
      rw [heq, List.append_assoc, List.cons_append]
    · refine ⟨s.changes, [], rfl, ?_⟩
      show (s.changes ++ [call]).length = _
      simp

/-- The changes after the upsert of a marked call end with the latest one, unless that is its own. -/
theorem KillInFlight.Marked.latest {c : KillInFlight} {changes : List KillCall}
    (h : c.Marked changes) {latest : KillCall} (hlatest : changes.getLast? = some latest) :
    latest = c.call ∨ (changes.drop c.mark).getLast? = some latest := by
  obtain ⟨before, later, rfl, hmark⟩ := h
  have hdrop : (before ++ c.call :: later).drop c.mark = later := by
    rw [hmark, List.append_cons]
    exact List.drop_left' (by simp)
  rw [hdrop]
  rcases List.eq_nil_or_concat' later with rfl | ⟨init, last, rfl⟩
  · left
    rw [List.getLast?_concat] at hlatest
    exact (Option.some.inj hlatest).symm
  · right
    rw [← List.cons_append, ← List.append_assoc, List.getLast?_concat] at hlatest
    rw [List.getLast?_concat, hlatest]

/-- An owed row is written; if it is the last one owed it is about a change like the latest. -/
theorem KillSound.pay (h : KillSound s) {c : KillInFlight} (hget : s.inFlight[i]? = some c)
    (hphase : c.phase = .audit) {t : KillState} (hrow : t.row = s.row)
    (hchanges : t.changes = s.changes) (htrail : t.trail = s.trail ++ [c.call.audit])
    (howed : t.owed + 1 = s.owed)
    (hflight : ∀ c ∈ t.inFlight, c.phase = .audit → c ∈ s.inFlight)
    (horder : s.owed = 1 → ∀ later ∈ (s.changes.drop c.mark).getLast?,
      later.command = c.call.command ∧ later.actor = c.call.actor) : KillSound t := by
  constructor
  · rw [hrow, hchanges]
    exact h.row
  · rw [hchanges, htrail, List.length_append, h.count, ← howed, List.length_singleton]
    omega
  · intro hzero
    rw [hchanges, htrail, List.getLast?_concat]
    -- Something is owed, so there is a latest change.
    cases hlast : s.changes.getLast? with
    | none =>
        have hcount := h.count
        rw [List.getLast?_eq_none_iff.mp hlast] at hcount
        simp only [List.length_nil] at hcount
        omega
    | some latest =>
        have hlike : latest.command = c.call.command ∧ latest.actor = c.call.actor := by
          rcases (h.marked c (List.mem_of_getElem? hget) hphase).latest hlast with rfl | hlater
          · exact ⟨rfl, rfl⟩
          · exact horder (by omega) latest hlater
        show some (c.call.command.action, c.call.actor) = _
        rw [← hlike.1, ← hlike.2]
        rfl
  · intro c' hc' hphase'
    rw [hchanges]
    exact h.marked c' (hflight c' hc' hphase') hphase'

theorem KillSound.step (h : KillSound s) (a : KillStep) (haudited : Audited s a) :
    KillSound (killStep s a) := by
  cases a with
  | begin call =>
      apply @KillSound.congr s h (killStep s (.begin call)) rfl rfl rfl
      · show (s.inFlight ++ [_]).countP _ = _
        rw [List.countP_append]
        rfl
      · intro c hc hphase
        rcases List.mem_append.mp hc with hold | hnew
        · exact hold
        · rw [List.mem_singleton.mp hnew] at hphase
          cases hphase
  | upsert i outcome =>
      cases hcall : s.callAt i .upsert with
      | none =>
          simp only [killStep, hcall]
          exact h
      | some call =>
          have hdrop : (s.drop i).owed = s.owed := owed_drop hcall
          have hnext : ((s.apply call).next i call .audit).owed = s.owed + 1 :=
            owed_next (s := s.apply call) hcall .audit
          simp only [killStep, hcall]
          cases outcome with
          | done => exact h.apply rfl rfl rfl hnext fun c hc => mem_or_eq_of_mem_next hc
          | failed => exact h.congr rfl rfl rfl hdrop fun c hc _ => mem_of_mem_drop hc
          | lost =>
              rw [haudited rfl] at hcall
              cases hcall
  | audit i outcome =>
      cases hcall : s.callAt i .audit with
      | none =>
          simp only [killStep, hcall]
          exact h
      | some call =>
          obtain ⟨mark, hget⟩ := callAt_eq_some.mp hcall
          obtain ⟨hkept, horder⟩ := haudited _ hget rfl
          have hdrop : (s.drop i).owed + 1 = s.owed := owed_drop hcall
          have hnext : (s.next i call .read).owed + 1 = s.owed := owed_next hcall .read
          have hread : ∀ c ∈ (s.next i call .read).inFlight, c.phase = .audit → c ∈ s.inFlight := by
            intro c hc hphase
            rcases mem_or_eq_of_mem_next hc with hold | rfl
            · exact hold
            · cases hphase
          simp only [killStep, hcall]
          cases outcome with
          | done =>
              dsimp only
              split
              · exact h.pay hget rfl rfl rfl trail_append_audit hnext hread horder
              · exact h.pay hget rfl rfl rfl trail_append_audit hdrop
                  (fun c hc _ => mem_of_mem_drop hc) horder
          | failed => exact absurd rfl hkept
          | lost =>
              exact h.pay hget rfl rfl rfl trail_append_audit hdrop
                (fun c hc _ => mem_of_mem_drop hc) horder
  | read i outcome =>
      cases hcall : s.callAt i .read with
      | none =>
          simp only [killStep, hcall]
          exact h
      | some call =>
          have hdrop : (s.drop i).owed = s.owed := owed_drop hcall
          simp only [killStep, hcall]
          cases outcome <;> exact h.congr rfl rfl rfl hdrop fun c hc _ => mem_of_mem_drop hc
  | crash i => exact h.congr rfl rfl rfl (owed_crash haudited) fun c hc _ => mem_of_mem_drop hc
  | note entry =>
      show KillSound (if _ then _ else _)
      split
      · exact h
      · rename_i hother
        exact h.congr rfl rfl (trail_append_other (Bool.eq_false_iff.mpr hother)) rfl
          fun c hc _ => hc

/-! ## The switch and the trail -/

/-- The switch is engaged exactly when the last row about it is a `KILL`, that row and the switch name
the same actor, and there is one row for each change. -/
structure Agrees (s : KillState) : Prop where
  engaged : (getKillSwitch s.row).engaged = true ↔ ∃ e ∈ s.trail.getLast?, e.action = "KILL"
  actor : ∀ e ∈ s.trail.getLast?, ∃ row ∈ s.row,
    (if row.engaged then row.actor else row.resumedBy) = some e.actor
  count : s.trail.length = s.changes.length

theorem owed_of_quiet (h : s.inFlight = []) : s.owed = 0 := by
  unfold KillState.owed
  rw [h]
  rfl

theorem KillSound.agrees (h : KillSound s) (hquiet : s.inFlight = []) : Agrees s := by
  have hrow := h.row
  have hlast := h.last (owed_of_quiet hquiet)
  have hcount := h.count
  rw [owed_of_quiet hquiet, Nat.add_zero] at hcount
  rcases List.eq_nil_or_concat' s.changes with hnone | ⟨init, call, hsome⟩
  · -- Nothing was ever changed: no row and no trail.
    rw [hnone] at hrow hcount hlast
    have htrail : s.trail = [] := List.length_eq_zero_iff.mp hcount.symm
    rw [List.foldl_nil] at hrow
    constructor
    · rw [hrow, htrail]
      simp [getKillSwitch]
    · rw [htrail]
      nofun
    · rw [hnone]
      exact hcount.symm
  · rw [hsome, List.foldl_append] at hrow
    rw [hsome, List.getLast?_concat] at hlast
    generalize hbefore : init.foldl (fun row call => some (KillCall.upsert call row)) none = before
      at hrow
    have hshown := shown_upsert call before
    have hrow : s.row = some (call.upsert before) := hrow
    obtain ⟨e, he, heq⟩ := Option.map_eq_some_iff.mp hlast
    obtain ⟨haction, hactor⟩ := Prod.mk.inj heq
    rw [KillCall.Shown] at hshown
    constructor
    · rw [hrow, he]
      show (call.upsert before).engaged = true ↔ _
      cases hcommand : call.command with
      | kill =>
          rw [hcommand] at hshown haction
          simp [hshown.1, haction, KillCommand.action]
      | resume =>
          rw [hcommand] at hshown haction
          simp [hshown.1, haction, KillCommand.action]
    · intro e' he'
      rw [he] at he'
      cases he'
      refine ⟨call.upsert before, hrow, ?_⟩
      rw [hactor]
      cases hcommand : call.command with
      | kill =>
          rw [hcommand] at hshown
          rw [if_pos hshown.1, hshown.2]
      | resume =>
          rw [hcommand] at hshown
          rw [if_neg (by rw [hshown.1]; decide), hshown.2]
    · exact hcount.symm

/-- In every run in which no change loses its audit row, and the call whose row is written last is also
the one that has changed the switch last, switch and trail agree whenever no call is in flight. -/
theorem kill_switch_agrees (steps : List KillStep)
    (haudited : RunMeets killStep Audited .initial steps)
    (hquiet : (run killStep .initial steps).inFlight = []) :
    Agrees (run killStep .initial steps) := by
  have hsound := run_invariant (fun s a h => KillSound.step (s := s) h a) killSound_initial haudited
  exact hsound.agrees hquiet

/-- Two commands side by side: the resumption is applied and recorded while the web still has to read
the switch back. -/
theorem kill_switch_agrees_sideBySide :
    let steps : List KillStep := [.begin (engageKill "alice" "drill" "t0"),
      .begin (resumeKillSwitch "bob" "" "t1"), .upsert 0 .done, .audit 0 .done, .upsert 1 .done,
      .read 0 .done, .audit 0 .done]
    (run killStep .initial steps).trail.length = 2 ∧ Agrees (run killStep .initial steps) := by
  refine ⟨by decide, ?_⟩
  exact kill_switch_agrees _ (by decide) (by decide)

/-- A crash between the two statements leaves an engaged switch without a row; two opposite commands
whose rows are written in the other order leave a trail that ends with the kill of a resumed
switch. -/
theorem crash_or_crossing_disagrees :
    let crashed := run killStep .initial
      [.begin (engageKill "alice" "drill" "t0"), .upsert 0 .done, .crash 0]
    let crossed := run killStep .initial
      [.begin (engageKillSwitch "alice" "drill" "t0"), .begin (resumeKillSwitch "bob" "over" "t1"),
        .upsert 0 .done, .upsert 1 .done, .audit 1 .done, .audit 0 .done]
    (crashed.inFlight = [] ∧ ¬Agrees crashed) ∧ crossed.inFlight = [] ∧ ¬Agrees crossed := by
  refine ⟨⟨by decide, fun h => ?_⟩, by decide, fun h => ?_⟩
  · exact absurd h.count (by decide)
  · exact absurd (h.engaged.mpr ⟨_, rfl, rfl⟩) (by decide)

end NexusQuant.Control
