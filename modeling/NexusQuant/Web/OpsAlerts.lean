import Mathlib.Data.Int.Notation
import NexusQuant.Lib.IndexedTable
import NexusQuant.Lib.Run

/-!
# The alerts

The rules and `getAlerts` of `apps/web/src/lib/ops-alerts.ts`.  Calls run side by side, one step for
each database statement; a call begins when its health and data-flow snapshot is there, and its
statements follow the list of rules that fired.  The table has the partial unique index of
`timescale.sql`: one ACTIVE row for a rule at most.  Times are in milliseconds, as in the rows; the ISO
texts of the views are in the same order.
-/

namespace NexusQuant.Web

open Run

/-! ## The rules -/

inductive ComponentStatus where
  | healthy | degraded | failing | unknown
deriving DecidableEq, Repr

inductive ComponentKey where
  | web | database | redis | quant | ingestion | workers
deriving DecidableEq, Repr

structure OpsComponent where
  key : ComponentKey
  status : ComponentStatus
  detail : String
deriving DecidableEq, Repr

structure SystemHealth where
  components : List OpsComponent
deriving DecidableEq, Repr

inductive Freshness where
  | fresh | warning | stale | unknown
deriving DecidableEq, Repr

inductive StreamKey where
  | marketTick | orderbookSnapshot | marketCandle | featureSnapshot | engineSignal | execution
deriving DecidableEq, Repr

structure DataFlowStream where
  key : StreamKey
  lagSeconds : Option ℤ
  freshness : Freshness
deriving DecidableEq, Repr

structure DataFlowMonitor where
  streams : List DataFlowStream
deriving DecidableEq, Repr

structure AlertSnapshot where
  health : SystemHealth
  dataFlow : DataFlowMonitor
deriving DecidableEq, Repr

inductive AlertSeverity where
  | info | warning | critical | emergency
deriving DecidableEq, Repr

structure FiringRule where
  ruleId : String
  severity : AlertSeverity
  message : String
  detail : Option String
deriving DecidableEq, Repr

/-- A component that fails; one that is unknown does not. -/
def unreachable (snapshot : AlertSnapshot) (key : ComponentKey) (ruleId message : String) :
    Option FiringRule :=
  (snapshot.health.components.find? fun c => c.key = key).bind fun c =>
    if c.status = .failing then some ⟨ruleId, .critical, message, some c.detail⟩ else none

structure StaleRule where
  stream : StreamKey
  ruleId : String
  limitSec : ℤ
  label : String
deriving DecidableEq, Repr

/-- `STALE_RULES`. -/
def staleRules : List StaleRule := [
  ⟨.marketTick, "ticks.stale", 60, "market ticks"⟩,
  ⟨.featureSnapshot, "features.stale", 60, "feature snapshots"⟩,
  ⟨.engineSignal, "signals.stale", 120, "engine signals"⟩,
  ⟨.execution, "execution.stale", 300, "executions"⟩]

def StaleRule.firing (rule : StaleRule) (snapshot : AlertSnapshot) : Option FiringRule :=
  (snapshot.dataFlow.streams.find? fun s => s.key = rule.stream).bind fun s =>
    if s.freshness = .unknown then none
    else
      match s.lagSeconds with
      | none => some ⟨rule.ruleId, .warning, s!"No {rule.label} observed",
          some s!"no {rule.label} have been produced"⟩
      | some lag =>
          if rule.limitSec < lag then
            some ⟨rule.ruleId, .warning, s!"No {rule.label} in {lag}s (limit {rule.limitSec}s)",
              some s!"last {rule.label} {lag}s ago"⟩
          else none

def evaluateAlertRules (snapshot : AlertSnapshot) : List FiringRule :=
  (unreachable snapshot .database "db.unreachable" "Database unreachable").toList ++
  (unreachable snapshot .redis "redis.unreachable" "Redis unreachable").toList ++
  (unreachable snapshot .quant "quant.unreachable" "Quant service unreachable").toList ++
  staleRules.filterMap fun rule => rule.firing snapshot

/-! ## The table -/

inductive AlertStatus where
  | active | resolved
deriving DecidableEq, Repr

structure OpsAlert where
  id : ℕ
  ruleId : String
  severity : AlertSeverity
  message : String
  status : AlertStatus
  firstSeen : ℤ
  lastSeen : ℤ
  resolvedAt : Option ℤ
  detail : Option String
deriving DecidableEq, Repr

/-- What the index reads off a row. -/
def OpsAlert.activeRule (row : OpsAlert) : Option String :=
  if row.status = .active then some row.ruleId else none

abbrev AlertTable : Type := IndexedTable OpsAlert.id OpsAlert.activeRule

def OpsAlert.bump (row : OpsAlert) (f : FiringRule) (now : ℤ) : OpsAlert :=
  { row with lastSeen := now, severity := f.severity, message := f.message, detail := f.detail }

def OpsAlert.resolve (row : OpsAlert) (now : ℤ) : OpsAlert :=
  { row with status := .resolved, resolvedAt := some now }

/-- The ACTIVE rows of a rule. -/
def OpsAlert.isActive (ruleId : String) (row : OpsAlert) : Bool :=
  row.ruleId = ruleId ∧ row.status = .active

def AlertTable.bump (t : AlertTable) (f : FiringRule) (now : ℤ) : AlertTable :=
  t.updateMany (OpsAlert.isActive f.ruleId) (fun row => row.bump f now)
    ⟨fun _ => rfl, fun _ => .inl rfl⟩

/-- Nothing where the creation violates the index. -/
def AlertTable.createActive (t : AlertTable) (f : FiringRule) (now : ℤ) : Option AlertTable :=
  t.create (fun id => ⟨id, f.ruleId, f.severity, f.message, .active, now, now, none, f.detail⟩)
    fun _ => rfl

def AlertTable.resolve (t : AlertTable) (ids : List ℕ) (now : ℤ) : AlertTable :=
  t.updateMany (fun row => row.id ∈ ids) (fun row => row.resolve now)
    ⟨fun _ => rfl, fun _ => .inr rfl⟩

/-! ## What a call returns -/

structure OpsAlertView where
  id : ℕ
  ruleId : String
  severity : AlertSeverity
  message : String
  status : AlertStatus
  firstSeen : ℤ
  lastSeen : ℤ
  detail : Option String
  persisted : Bool
deriving DecidableEq, Repr

structure AlertsSummary where
  active : ℕ
  critical : ℕ
  alerts : List OpsAlertView
  persistenceOk : Bool
deriving DecidableEq, Repr

def toView (row : OpsAlert) : OpsAlertView :=
  ⟨row.id, row.ruleId, row.severity, row.message, row.status, row.firstSeen, row.lastSeen, row.detail,
    true⟩

/-- `SEVERITY_RANK`. -/
def AlertSeverity.rank : AlertSeverity → ℕ
  | .emergency => 0
  | .critical => 1
  | .warning => 2
  | .info => 3

/-- ACTIVE before RESOLVED, as the texts are. -/
def AlertStatus.rank : AlertStatus → ℕ
  | .active => 0
  | .resolved => 1

/-- The rows read back: those that are ACTIVE or were resolved within a day, newest first. -/
def AlertTable.readBack (t : AlertTable) (now : ℤ) : List OpsAlert :=
  let dayAgo := now - 24 * 60 * 60 * 1000
  let rows := t.rows.filter fun row =>
    row.status = .active ∨ (row.status = .resolved ∧ row.resolvedAt.any fun t => dayAgo ≤ t)
  (rows.mergeSort fun a b => a.status.rank < b.status.rank ∨
    (a.status = b.status ∧ b.lastSeen ≤ a.lastSeen)).take 100

def alertsSummary (rows : List OpsAlert) : AlertsSummary :=
  let alerts := (rows.map toView).mergeSort fun a b => a.status.rank < b.status.rank ∨
    (a.status = b.status ∧ (a.severity.rank < b.severity.rank ∨
      (a.severity = b.severity ∧ b.lastSeen ≤ a.lastSeen)))
  let active := alerts.filter fun a => a.status = .active
  ⟨active.length,
    (active.filter fun a => a.severity = .critical ∨ a.severity = .emergency).length, alerts, true⟩

/-! ## Calls in flight -/

/-- The next statement of a call. -/
inductive AlertStage where
  | update (f : FiringRule) (rest : List FiringRule)
  | create (f : FiringRule) (rest : List FiringRule)
  /-- The update after a lost creation race. -/
  | fallback (f : FiringRule) (rest : List FiringRule)
  | list
  | resolve (ids : List ℕ)
  | readBack
deriving DecidableEq, Repr

/-- The loop over the rules that fire. -/
def AlertStage.loop : List FiringRule → AlertStage
  | [] => .list
  | f :: rest => .update f rest

structure AlertCall where
  /-- Which evaluation it is. -/
  seq : ℕ
  firing : List FiringRule
  now : ℤ
  stage : AlertStage
deriving DecidableEq, Repr

structure AlertState where
  table : AlertTable
  /-- What fired in each snapshot, in the order they were taken. -/
  evaluations : List (List FiringRule)
  calls : List AlertCall
  returned : List AlertsSummary

def AlertState.initial (table : AlertTable) : AlertState := ⟨table, [], [], []⟩

inductive AlertStep where
  /-- A call has its snapshot and evaluates the rules. -/
  | evaluate (snapshot : AlertSnapshot) (now : ℤ)
  /-- The call at position `i` executes its next statement. -/
  | statement (i : ℕ)
deriving DecidableEq, Repr

def AlertState.put (s : AlertState) (i : ℕ) (c : AlertCall) (table : AlertTable)
    (stage : AlertStage) : AlertState :=
  { s with table, calls := s.calls.set i { c with stage } }

def AlertState.finish (s : AlertState) (i : ℕ) (summary : AlertsSummary) : AlertState :=
  { s with calls := s.calls.eraseIdx i, returned := s.returned ++ [summary] }

/-- The rows of rules that no longer fire. -/
def AlertTable.toResolve (t : AlertTable) (firing : List FiringRule) : List ℕ :=
  ((t.rows.filter fun row => row.status = .active).filter fun row =>
    row.ruleId ∉ firing.map FiringRule.ruleId).map OpsAlert.id

def AlertState.statement (s : AlertState) (i : ℕ) (c : AlertCall) : AlertState :=
  match c.stage with
  | .update f rest =>
      let count := s.table.rows.countP (OpsAlert.isActive f.ruleId)
      s.put i c (s.table.bump f c.now) (if count = 0 then .create f rest else .loop rest)
  | .create f rest =>
      match s.table.createActive f c.now with
      | some table => s.put i c table (.loop rest)
      | none => s.put i c s.table (.fallback f rest)
  | .fallback f rest => s.put i c (s.table.bump f c.now) (.loop rest)
  | .list =>
      let toResolve := s.table.toResolve c.firing
      s.put i c s.table (if toResolve = [] then .readBack else .resolve toResolve)
  | .resolve ids => s.put i c (s.table.resolve ids c.now) .readBack
  | .readBack => s.finish i (alertsSummary (s.table.readBack c.now))

def AlertState.step (s : AlertState) : AlertStep → AlertState
  | .evaluate snapshot now =>
      let firing := evaluateAlertRules snapshot
      { s with
        evaluations := s.evaluations ++ [firing]
        calls := s.calls ++ [⟨s.evaluations.length, firing, now, .loop firing⟩] }
  | .statement i =>
      match s.calls[i]? with
      | none => s
      | some c => s.statement i c

end NexusQuant.Web
