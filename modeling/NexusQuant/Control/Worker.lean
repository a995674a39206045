import NexusQuant.Control.VerifiedRecovery

/-!
# Boots, evaluations and what is left of them

The control plane inside a worker that may be restarted at any point.  A boot or an evaluation writes
its tables one row at a time; a process that dies after some of the writes leaves those in the tables
and loses what it remembered.  The writes of an evaluation are those of `evaluate`:
`run_evaluateWrites`.  The audit table is written and never read, and is not among them.
-/

namespace NexusQuant.Control

open Run

/-- `getCurrentState`. -/
def currentState (transitions : List Transition) : RuntimeState :=
  match transitions.getLast? with
  | some row => row.state
  | none => .booting

/-- The boot of a new process on the tables; `failed` names the startup checks that failed. -/
def boot (plane : ControlPlane) (failed : Option String) : ControlPlane :=
  let memory :=
    { booted plane.incidents with transitions := plane.transitions, audit := plane.audit }
  let persisted := currentState plane.transitions
  let plane := commitTransition memory .booting
    (if persisted = .booting then none else some persisted) "worker boot" []
  let plane := commitTransition plane .starting (some .booting) "running startup validation" []
  match failed with
  | none => plane
  | some checks =>
      appendAudit
        (commitTransition plane .failed (some .starting)
          ("startup validation failed: " ++ checks) [])
        "STARTUP_FAILED" "FAILED" ("failed checks: " ++ checks)

/-! ## The writes -/

structure ControlTables where
  incidents : List Incident
  transitions : List Transition
deriving DecidableEq, Repr

def ControlPlane.tables (plane : ControlPlane) : ControlTables := ⟨plane.incidents, plane.transitions⟩

inductive TableWrite where
  | transition (row : Transition)
  | openIncident (type : String) (affected : List ControlComponent) (detail : String)
  | resolveIncident (id : ℕ) (outcome : IncidentOutcome)
deriving DecidableEq, Repr

def writeTable (t : ControlTables) : TableWrite → ControlTables
  | .transition row => { t with transitions := t.transitions ++ [row] }
  | .openIncident type affected detail =>
      { t with incidents := openIncident t.incidents type affected detail }
  | .resolveIncident id outcome => { t with incidents := resolveIncident t.incidents id outcome }

def bootWrites (transitions : List Transition) (failed : Option String) : List TableWrite :=
  let persisted := currentState transitions
  [.transition ⟨.booting, if persisted = .booting then none else some persisted, "worker boot", []⟩,
    .transition ⟨.starting, some .booting, "running startup validation", []⟩] ++
  match failed with
  | none => []
  | some checks =>
      [.transition ⟨.failed, some .starting, "startup validation failed: " ++ checks, []⟩]

def engageWrites (incidents : List Incident) (active : List ProtectionVerdict) : List TableWrite :=
  match getOpenIncident incidents with
  | .found _ _ => []
  | _ =>
      let type := match active with
        | [a] => a.ruleId.text
        | _ => "multi"
      [.openIncident type (uniq (active.map (·.component))) ("; ".intercalate (active.map (·.detail)))]

def resolveWrites (incidents : List Incident) (outcome : IncidentOutcome) : List TableWrite :=
  match getOpenIncident incidents with
  | .found id _ => [.resolveIncident id outcome]
  | _ => []

def syncWrites (incidents : List Incident) (prev next : RuntimeState)
    (active : List ProtectionVerdict) : List TableWrite :=
  if next = .protected ∧ 0 < active.length then engageWrites incidents active
  else if next = .healthy ∧ (prev = .recovering ∨ prev = .protected) then
    resolveWrites incidents .verified
  else if prev = .stopped ∧ (next = .healthy ∨ next = .degraded) then
    resolveWrites incidents .manualResume
  else []

section Evaluation

variable (plane : ControlPlane) (tick : Tick)

/-- The state a tick starts its second half from. -/
def prevState : RuntimeState := (recover plane tick).1.lastState

def nextState : RuntimeStateResult :=
  deriveRuntimeState (prevState plane tick)
    { killEngaged := tick.inputs.killSwitch.engaged
      activeProtections := activeProtections tick.inputs
      degraded := isDegraded tick.inputs
      recoveryOutcome := (recover plane tick).2.1 }

def enterWrites : List TableWrite :=
  if leaving plane tick ∧ plane.lastState = .protected then
    [.transition ⟨.recovering, some .protected, "components healthy — verifying recovery", []⟩]
  else []

def settleWrites : List TableWrite :=
  if (nextState plane tick).state ≠ prevState plane tick then
    [.transition ⟨(nextState plane tick).state, some (prevState plane tick),
      (nextState plane tick).reason, (nextState plane tick).affectedComponents⟩]
  else []

def evaluateWrites : List TableWrite :=
  enterWrites plane tick ++
    (syncWrites plane.incidents (prevState plane tick) (nextState plane tick).state
      (activeProtections tick.inputs) ++ settleWrites plane tick)

end Evaluation

/-! ### They are the writes of the evaluator -/

theorem run_bootWrites (plane : ControlPlane) (failed : Option String) :
    run writeTable plane.tables (bootWrites plane.transitions failed) = (boot plane failed).tables := by
  cases failed with
  | none => simp [bootWrites, boot, writeTable, commitTransition, ControlPlane.tables, booted]
  | some checks =>
      simp [bootWrites, boot, writeTable, commitTransition, appendAudit, ControlPlane.tables, booted]

theorem run_engageWrites (plane : ControlPlane) (active : List ProtectionVerdict) :
    run writeTable plane.tables (engageWrites plane.incidents active) =
      (engageProtection plane active).tables := by
  unfold engageWrites engageProtection
  cases getOpenIncident plane.incidents with
  | found id affected => rfl
  | absent | corrupt => rfl

theorem run_resolveWrites (plane : ControlPlane) (outcome : IncidentOutcome) (reason : String) :
    run writeTable plane.tables (resolveWrites plane.incidents outcome) =
      (resolveOpen plane outcome reason).tables := by
  unfold resolveWrites resolveOpen
  cases getOpenIncident plane.incidents with
  | found id affected => rfl
  | absent | corrupt => rfl

theorem run_syncWrites (plane : ControlPlane) (prev next : RuntimeState)
    (active : List ProtectionVerdict) :
    run writeTable plane.tables (syncWrites plane.incidents prev next active) =
      (syncIncidentAndProtections plane prev next active).tables := by
  unfold syncWrites syncIncidentAndProtections
  dsimp only
  -- The three stages exclude each other.
  by_cases hengage : next = .protected ∧ 0 < active.length
  · have hnext := hengage.1
    rw [if_pos hengage, if_pos hengage, if_neg (by simp [hnext]), if_neg (by simp [hnext])]
    exact run_engageWrites plane active
  · rw [if_neg hengage, if_neg hengage]
    by_cases hverified : next = .healthy ∧ (prev = .recovering ∨ prev = .protected)
    · have hprev : ¬ (prev = .stopped ∧ (next = .healthy ∨ next = .degraded)) := by
        rcases hverified.2 with h | h <;> simp [h]
      rw [if_pos hverified, if_pos hverified, if_neg hprev]
      exact run_resolveWrites plane .verified _
    · rw [if_neg hverified, if_neg hverified]
      split
      · exact run_resolveWrites plane .manualResume _
      · rfl

/-- A recovery writes nothing but its audit row. -/
theorem runRecovery_frame (plane : ControlPlane) (tick : Tick) :
    (runRecovery plane tick).1.tables = plane.tables ∧
      (runRecovery plane tick).1.lastState = plane.lastState := by
  have hverify : ∀ affected, (runRecovery.verify plane tick affected).1.tables = plane.tables ∧
      (runRecovery.verify plane tick affected).1.lastState = plane.lastState := by
    intro affected
    unfold runRecovery.verify
    dsimp only
    split
    · exact ⟨rfl, rfl⟩
    · exact ⟨rfl, rfl⟩
  unfold runRecovery
  cases getOpenIncident plane.incidents with
  | corrupt => exact ⟨rfl, rfl⟩
  | absent => exact hverify []
  | found id affected => exact hverify affected

theorem run_enterWrites (plane : ControlPlane) (tick : Tick) :
    run writeTable plane.tables (enterWrites plane tick) = (recover plane tick).1.tables := by
  unfold enterWrites recover
  by_cases hleaving : leaving plane tick
  · rw [if_pos hleaving, (runRecovery_frame (enterRecovering plane) tick).1]
    unfold enterRecovering
    by_cases hprotected : plane.lastState = .protected
    · rw [if_pos ⟨hleaving, hprotected⟩, if_pos hprotected, hprotected]
      rfl
    · rw [if_neg (fun h => hprotected h.2), if_neg hprotected]
      rfl
  · rw [if_neg (fun h => hleaving h.1), if_neg hleaving]
    rfl

theorem recover_incidents (plane : ControlPlane) (tick : Tick) :
    (recover plane tick).1.incidents = plane.incidents := by
  unfold recover
  split
  · have hframe := congrArg ControlTables.incidents (runRecovery_frame (enterRecovering plane) tick).1
    exact hframe.trans enterRecovering_incidents
  · rfl

/-- An evaluation writes what `evaluate` leaves in the tables. -/
theorem run_evaluateWrites (plane : ControlPlane) (tick : Tick) :
    run writeTable plane.tables (evaluateWrites plane tick) = (evaluate plane tick).plane.tables := by
  unfold evaluateWrites
  rw [run_append, run_append, run_enterWrites, ← recover_incidents plane tick, run_syncWrites]
  unfold settleWrites
  rw [evaluate_eq]
  unfold settle
  dsimp only
  by_cases hstate : (nextState plane tick).state = prevState plane tick
  · rw [if_neg (not_not.mpr hstate)]
    unfold nextState prevState at hstate
    rw [if_neg (not_not.mpr hstate)]
    rfl
  · rw [if_pos hstate]
    unfold nextState prevState at hstate
    rw [if_pos hstate]
    rfl

/-! ## The worker -/

/-- The process: the plane, and whether its startup validation has passed. -/
structure Worker where
  plane : ControlPlane
  started : Bool

def freshWorker : Worker := ⟨booted [], false⟩

/-- With `cut`, the process dies after so many writes. -/
inductive WorkerEvent where
  | boot (failed : Option String) (cut : Option ℕ)
  | evaluate (tick : Tick) (cut : Option ℕ)

def writesOf (w : Worker) : WorkerEvent → List TableWrite
  | .boot failed _ => bootWrites w.plane.transitions failed
  | .evaluate tick _ => if w.started then evaluateWrites w.plane tick else []

/-- What a dead process leaves: the tables. -/
def deadWorker (w : Worker) (writes : List TableWrite) : Worker :=
  let t := run writeTable w.plane.tables writes
  ⟨{ booted t.incidents with transitions := t.transitions, audit := w.plane.audit }, false⟩

def workerStep (w : Worker) : WorkerEvent → Worker
  | .boot failed none => ⟨boot w.plane failed, failed.isNone⟩
  | .boot failed (some n) => deadWorker w ((writesOf w (.boot failed none)).take n)
  -- A worker whose startup validation failed does not evaluate.
  | .evaluate tick none => if w.started then ⟨(evaluate w.plane tick).plane, true⟩ else w
  | .evaluate tick (some n) => deadWorker w ((writesOf w (.evaluate tick none)).take n)

end NexusQuant.Control
