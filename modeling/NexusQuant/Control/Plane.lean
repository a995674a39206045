import NexusQuant.Control.Rules

/-!
# The control plane

`services/workers/src/control/evaluator.ts` with the tables of `store.ts` it reads back: one call of
`evaluate` on the gathered inputs and the answers of the recovery probes.  The incident table is a
list, newest row first; a row whose component list is not admitted reads as unreadable.  The protection
event table is written and never read, and is left out.
-/

namespace NexusQuant.Control

/-! ## Tables (`store.ts`) -/

inductive IncidentStatus where
  | open | resolved
deriving DecidableEq, Repr

inductive IncidentOutcome where
  | verified | failed | manualResume
deriving DecidableEq, Repr

/-- A row of the incident table.  `affectedComponents` is `none` when the stored value is not
admitted. -/
structure Incident where
  id : ℕ
  type : String
  affectedComponents : Option (List ControlComponent)
  status : IncidentStatus
  detail : String
  recoveryOutcome : Option IncidentOutcome
deriving DecidableEq, Repr

structure Transition where
  state : RuntimeState
  previousState : Option RuntimeState
  reason : String
  affectedComponents : List ControlComponent
deriving DecidableEq, Repr

structure AuditRow where
  action : String
  result : String
  reason : String
deriving DecidableEq, Repr

/-- What `getOpenIncident` returns: no open row, an unreadable one, or its components. -/
inductive OpenIncident where
  | absent
  | corrupt
  | found (id : ℕ) (affectedComponents : List ControlComponent)
deriving DecidableEq, Repr

def getOpenIncident (incidents : List Incident) : OpenIncident :=
  match incidents.find? (fun i => i.status = .open) with
  | none => .absent
  | some row =>
      match row.affectedComponents with
      | none => .corrupt
      | some affected => .found row.id affected

def openIncident (incidents : List Incident) (type : String)
    (affectedComponents : List ControlComponent) (detail : String) : List Incident :=
  { id := incidents.length
    type
    affectedComponents := some affectedComponents
    status := .open
    detail
    recoveryOutcome := none } :: incidents

def resolveIncident (incidents : List Incident) (id : ℕ) (outcome : IncidentOutcome) :
    List Incident :=
  incidents.map fun i =>
    if i.id = id then { i with status := .resolved, recoveryOutcome := some outcome } else i

/-! ## The evaluator (`evaluator.ts`) -/

structure ControlPlane where
  lastState : RuntimeState
  lastActiveComponents : List ControlComponent
  lastPermission : Option TradingPermission
  incidents : List Incident
  transitions : List Transition
  audit : List AuditRow
deriving DecidableEq, Repr

/-- What one call of `evaluate` meets: the gathered inputs, and the probe results each component
would answer a verification with. -/
structure Tick where
  inputs : ControlInputs
  probes : ControlComponent → List RecoveryStep

def uniq (xs : List ControlComponent) : List ControlComponent := xs.eraseDups

def verifyRecovery (probes : ControlComponent → List RecoveryStep) (component : ControlComponent) :
    RecoveryReport where
  component := component
  verified := 0 < (probes component).length && (probes component).all (·.passed)
  steps := probes component

def commitTransition (plane : ControlPlane) (state : RuntimeState)
    (previousState : Option RuntimeState) (reason : String) (affected : List ControlComponent) :
    ControlPlane :=
  { plane with
    lastState := state
    transitions := plane.transitions ++ [⟨state, previousState, reason, affected⟩]
    audit := plane.audit ++ [⟨"STATE_CHANGE", "OK", reason⟩] }

def appendAudit (plane : ControlPlane) (action result reason : String) : ControlPlane :=
  { plane with audit := plane.audit ++ [⟨action, result, reason⟩] }

/-- The components a recovery verifies. -/
def recoveryTargets (plane : ControlPlane) (affected : List ControlComponent) :
    List ControlComponent :=
  uniq (plane.lastActiveComponents ++ affected)

/-- The verification of a runtime that is leaving protection: its outcome, the reports it asked for
and the audit row. -/
def runRecovery (plane : ControlPlane) (tick : Tick) :
    ControlPlane × RecoveryOutcome × List RecoveryReport :=
  match getOpenIncident plane.incidents with
  -- An unreadable row cannot be verified, so recovery fails.
  | .corrupt =>
      (appendAudit plane "RECOVERY_FAILED" "FAILED"
        "open incident row corrupt — recovery unverifiable (fail-closed)", some false, [])
  | .absent => verify []
  | .found _ affected => verify affected
where
  verify (affected : List ControlComponent) :
      ControlPlane × RecoveryOutcome × List RecoveryReport :=
    let targets := recoveryTargets plane affected
    -- Nothing to verify counts as verified.
    if targets.length = 0 then (plane, some true, [])
    else
      let reports := targets.map (verifyRecovery tick.probes)
      let recovery := recoveryOutcome reports
      (appendAudit plane (if recovery = some true then "RECOVERY_VERIFIED" else "RECOVERY_FAILED")
        (if recovery = some true then "OK" else "FAILED")
        ("verified " ++ ", ".intercalate (targets.map (·.text))), recovery, reports)

/-- Open an incident on entry to PROTECTED. -/
def engageProtection (plane : ControlPlane) (active : List ProtectionVerdict) : ControlPlane :=
  match getOpenIncident plane.incidents with
  -- One incident at a time: an open one is kept as it was opened.
  | .found _ _ => plane
  | _ =>
      let type := match active with
        | [a] => a.ruleId.text
        | _ => "multi"
      appendAudit
        { plane with
          incidents := openIncident plane.incidents type (uniq (active.map (·.component)))
            ("; ".intercalate (active.map (·.detail))) }
        "PROTECTION_ENGAGED" "OK" (", ".intercalate (active.map (·.ruleId.text)))

/-- Resolve the open incident, if there is a readable one. -/
def resolveOpen (plane : ControlPlane) (outcome : IncidentOutcome) (reason : String) :
    ControlPlane :=
  match getOpenIncident plane.incidents with
  | .found id _ =>
      appendAudit { plane with incidents := resolveIncident plane.incidents id outcome }
        "INCIDENT_RESOLVED" "OK" reason
  | _ => plane

def syncIncidentAndProtections (plane : ControlPlane) (prev next : RuntimeState)
    (active : List ProtectionVerdict) : ControlPlane :=
  let plane :=
    if next = .protected ∧ 0 < active.length then engageProtection plane active else plane
  let plane :=
    if next = .healthy ∧ (prev = .recovering ∨ prev = .protected) then
      resolveOpen plane .verified "recovery verified"
    else plane
  if prev = .stopped ∧ (next = .healthy ∨ next = .degraded) then
    resolveOpen plane .manualResume "operator resume — manual (unverified) recovery"
  else plane

structure Evaluation where
  plane : ControlPlane
  state : RuntimeState
  permission : TradingPermission
  reports : List RecoveryReport

/-- The runtime was protected and nothing protects it any more. -/
def leaving (plane : ControlPlane) (tick : Tick) : Bool :=
  (plane.lastState = .protected || plane.lastState = .recovering) &&
    (activeProtections tick.inputs).length = 0 && !tick.inputs.killSwitch.engaged

/-- The transition PROTECTED → RECOVERING that precedes a verification. -/
def enterRecovering (plane : ControlPlane) : ControlPlane :=
  if plane.lastState = .protected then
    commitTransition plane .recovering (some plane.lastState)
      "components healthy — verifying recovery" []
  else plane

/-- The first half of `evaluate`: the recovery, when the runtime is leaving protection. -/
def recover (plane : ControlPlane) (tick : Tick) :
    ControlPlane × RecoveryOutcome × List RecoveryReport :=
  if leaving plane tick then runRecovery (enterRecovering plane) tick else (plane, none, [])

/-- The second half of `evaluate`: the next state, the incidents and the permission. -/
def settle (plane : ControlPlane) (inputs : ControlInputs) (recovery : RecoveryOutcome)
    (reports : List RecoveryReport) : Evaluation :=
  let active := activeProtections inputs
  let prev := plane.lastState
  let result := deriveRuntimeState prev
    { killEngaged := inputs.killSwitch.engaged
      activeProtections := active
      degraded := isDegraded inputs
      recoveryOutcome := recovery }
  -- The incident is settled before the transition is committed.
  let plane := syncIncidentAndProtections plane prev result.state active
  let plane :=
    if result.state ≠ prev then
      commitTransition plane result.state (some prev) result.reason result.affectedComponents
    else plane
  let permission := evaluateTradingPermission inputs (some result.state)
  { plane :=
      { plane with
        lastState := result.state
        lastActiveComponents := active.map (·.component)
        lastPermission := some permission }
    state := result.state
    permission
    reports }

def evaluate (plane : ControlPlane) (tick : Tick) : Evaluation :=
  let (plane, recovery, reports) := recover plane tick
  settle plane tick.inputs recovery reports

/-- A freshly booted plane on an incident table left by earlier processes. -/
def booted (incidents : List Incident) : ControlPlane where
  lastState := .booting
  lastActiveComponents := []
  lastPermission := none
  incidents := incidents
  transitions := []
  audit := []

end NexusQuant.Control
