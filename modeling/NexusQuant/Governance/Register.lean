import NexusQuant.Governance.Actions
import NexusQuant.Lib.JsValue
import NexusQuant.Lib.SerialTransaction

/-!
# Registration and serial calls

`registerStrategyVersion`, and the three actions as calls that are made one after another.  The
columns of a version and of an approval that no action reads are kept in tables of their own; the
rows of a table stand in the order of their creation.  A transaction that throws is rolled back.
-/

namespace NexusQuant.Governance

open Transaction

structure Strategy where
  name : String
  createdBy : String
deriving DecidableEq, Repr

structure VolatilityBounds where
  min : ℚ
  max : ℚ
deriving DecidableEq, Repr

/-- The columns of a version that are only written. -/
structure VersionContent where
  description : String
  hypothesis : String
  entryLogic : String
  exitLogic : String
  riskRules : String
  failureConditions : String
  parameters : List (String × JsValue)
  validRegimes : List String
  volatilityBounds : VolatilityBounds
  createdBy : String

/-- The columns of an approval request that are only written. -/
structure ApprovalProposal where
  payload : Json
  rationale : String

structure Tables where
  strategies : Dict Strategy
  rows : Store Row
  contents : Dict VersionContent
  proposals : Dict ApprovalProposal
  audit : List AuditLog

def Tables.empty : Tables where
  strategies := []
  rows := .empty
  contents := []
  proposals := []
  audit := []

/-! ## The input -/

structure RegisterStrategyInput where
  strategyName : Option Json
  actor : Option Json
  rationale : Option Json
  description : Option Json
  hypothesis : Option Json
  entryLogic : Option Json
  exitLogic : Option Json
  riskRules : Option Json
  failureConditions : Option Json
  parameters : JsValue
  validRegimes : JsValue
  volatilityBounds : JsValue

/-- The input once it has been checked. -/
structure Registration where
  strategyName : String
  actor : String
  rationale : String
  content : VersionContent

def requireParameters (value : JsValue) : Except GovernanceError (List (String × JsValue)) :=
  match value with
  | .obj members => .ok members
  | _ => .error (.validation "'parameters' must be a JSON object of typed parameters")

def regimeName : JsValue → Option String
  | .str name => if trimText name = "" then none else some name
  | _ => none

def requireRegimes (value : JsValue) : Except GovernanceError (List String) :=
  let fail := .error (.validation "'validRegimes' must be a non-empty array of market-regime names")
  match value with
  | .arr [] => fail
  | .arr items =>
      match items.mapM regimeName with
      | some names => .ok names
      | none => fail
  | _ => fail

def finiteNumber : JsValue → Option ℚ
  | .num (.fin q) => some q
  | _ => none

def requireVolatilityBounds (value : JsValue) : Except GovernanceError VolatilityBounds :=
  match finiteNumber (value.field "min"), finiteNumber (value.field "max") with
  | some min, some max =>
      if min < 0 ∨ ¬min < max then
        .error (.validation "'volatilityBounds' must be \x7b min, max \x7d with 0 <= min < max")
      else .ok ⟨min, max⟩
  | _, _ => .error (.validation "'volatilityBounds' must be \x7b min, max \x7d with 0 <= min < max")

def checkRegistration (input : RegisterStrategyInput) : Except GovernanceError Registration := do
  let strategyName ← requireText input.strategyName "strategyName"
  let actor ← requireActor input.actor "actor"
  let rationale ← requireText input.rationale "rationale"
  let description ← requireText input.description "description"
  let hypothesis ← requireText input.hypothesis "hypothesis"
  let entryLogic ← requireText input.entryLogic "entryLogic"
  let exitLogic ← requireText input.exitLogic "exitLogic"
  let riskRules ← requireText input.riskRules "riskRules"
  let failureConditions ← requireText input.failureConditions "failureConditions"
  let parameters ← requireParameters input.parameters
  let validRegimes ← requireRegimes input.validRegimes
  let volatilityBounds ← requireVolatilityBounds input.volatilityBounds
  pure {
    strategyName
    actor
    rationale
    content := {
      description
      hypothesis
      entryLogic
      exitLogic
      riskRules
      failureConditions
      parameters
      validRegimes
      volatilityBounds
      createdBy := actor } }

/-! ## The transaction -/

/-- The ids that the client makes up for new rows. -/
structure NewIds where
  strategyId : String
  versionId : String
  approvalId : String
deriving DecidableEq, Repr

structure RegisteredStrategyVersion where
  strategyId : String
  strategyCreated : Bool
  versionId : String
  version : ℕ
  status : StrategyStatus
  approvalRequestId : String
deriving DecidableEq, Repr

def strategyCreatedRow (r : Registration) (strategyId : String) : AuditLog where
  actor := r.actor
  action := .create
  entityType := "Strategy"
  entityId := strategyId
  before := none
  after := some (.obj [("name", .str r.strategyName)])
  reason := some r.rationale
  requestId := none

def versionCreatedRow (r : Registration) (strategyId versionId : String) (version : ℕ)
    (approvalId : String) : AuditLog where
  actor := r.actor
  action := .create
  entityType := "StrategyVersion"
  entityId := versionId
  before := none
  after := some (.obj [("strategyId", .str strategyId), ("version", .num version),
    ("status", .str StrategyStatus.draft.text)])
  reason := some r.rationale
  requestId := some approvalId

/-- The strategy of that name, created if there is none. -/
def strategyFor (r : Registration) (newId : String) (db : Tables) :
    Except GovernanceError (String × Bool × Tables) :=
  match db.strategies.find? fun s => s.2.name = r.strategyName with
  | some existing => .ok (existing.1, false, db)
  | none =>
      if (db.strategies.get? newId).isSome then .error (.database .uniqueViolation)
      else
        .ok (newId, true, { db with
          strategies := db.strategies.set newId ⟨r.strategyName, r.actor⟩
          audit := db.audit ++ [strategyCreatedRow r newId] })

/-- The number of the latest version of the strategy. -/
def latestVersion (rows : Store Row) (strategyId : String) : Option ℕ :=
  (((rows .versions).filter fun v => v.2.strategyId = strategyId).map fun v => v.2.version).max?

def createVersion (r : Registration) (strategyId versionId : String) (version : ℕ) (db : Tables) :
    Except GovernanceError Tables :=
  -- The primary key, and the unique pair of strategy and number.
  if (db.rows.get? .versions versionId).isSome ∨
      (db.rows .versions).any (fun v => v.2.strategyId = strategyId ∧ v.2.version = version) then
    .error (.database .uniqueViolation)
  else
    .ok { db with
      rows := db.rows.set .versions versionId ⟨strategyId, version, .draft⟩
      contents := db.contents.set versionId r.content }

def newApproval (r : Registration) (versionId : String) : ApprovalRequest where
  kind := .deployApproval
  status := .pending
  entityType := "StrategyVersion"
  entityId := versionId
  requestedBy := r.actor
  reviewedBy := none
  reviewedAt := none
  reviewNote := none

def createApproval (r : Registration) (strategyId versionId : String) (version : ℕ)
    (approvalId : String) (db : Tables) : Except GovernanceError Tables :=
  if (db.rows.get? .approvals approvalId).isSome then .error (.database .uniqueViolation)
  else
    .ok { db with
      rows := db.rows.set .approvals approvalId (newApproval r versionId)
      proposals := db.proposals.set approvalId
        { payload := .obj [("strategyId", .str strategyId), ("strategyName", .str r.strategyName),
            ("version", .num version)]
          rationale := r.rationale } }

def createRegistered (r : Registration) (ids : NewIds) (db : Tables) :
    Except GovernanceError (RegisteredStrategyVersion × Tables) :=
  (strategyFor r ids.strategyId db).bind fun strategy =>
    let version := (latestVersion strategy.2.2.rows strategy.1).getD 0 + 1
    (createVersion r strategy.1 ids.versionId version strategy.2.2).bind fun db =>
      (createApproval r strategy.1 ids.versionId version ids.approvalId db).map fun db =>
        ({  strategyId := strategy.1
            strategyCreated := strategy.2.1
            versionId := ids.versionId
            version
            status := .draft
            approvalRequestId := ids.approvalId },
          { db with
            audit := db.audit ++
              [versionCreatedRow r strategy.1 ids.versionId version ids.approvalId] })

def registerStrategyVersion (input : RegisterStrategyInput) (ids : NewIds) (db : Tables) :
    Except GovernanceError (RegisteredStrategyVersion × Tables) :=
  (checkRegistration input).bind fun r => createRegistered r ids db

/-! ## Calls -/

inductive Call where
  | register (input : RegisterStrategyInput) (ids : NewIds)
  | action (request : Request) (target : ErrorTarget)

inductive CallReply where
  | registered (version : RegisteredStrategyVersion)
  | replied (reply : Reply)

def Call.run (db : Tables) : Call → Except GovernanceError (CallReply × Tables)
  | .register input ids =>
      (registerStrategyVersion input ids db).map fun r => (.registered r.1, r.2)
  | .action request target =>
      (request.program.exec activeKey (request.raise target) db.rows db.audit).map fun c =>
        (.replied c.result, { db with rows := c.rows, audit := c.entries })

/-- The database after a call. -/
def callStep (db : Tables) (call : Call) : Tables :=
  match call.run db with
  | .ok r => r.2
  | .error _ => db

end NexusQuant.Governance
