import NexusQuant.Governance.Types

/-!
# Governance actions

`reviewDeployApproval` and `retireStrategyVersion` as transaction programs, one step for each
statement they send to the database.  Every check is made on a row read earlier in the transaction,
and every update names its row by the primary key alone.
-/

namespace NexusQuant.Governance

open Transaction

abbrev GovernanceTx (α : Type) := Program Row AuditLog GovernanceError α

/-! ## The statements of the client -/

abbrev ApprovalRequest.findUnique (id : String) : GovernanceTx (Option ApprovalRequest) :=
  Program.findUnique Table.approvals id

abbrev ApprovalRequest.update (id : String) (f : ApprovalRequest → ApprovalRequest) :
    GovernanceTx Unit :=
  Program.modify Table.approvals id f

abbrev StrategyVersion.findUnique (id : String) : GovernanceTx (Option StrategyVersion) :=
  Program.findUnique Table.versions id

abbrev StrategyVersion.findMany (p : String → StrategyVersion → Bool) :
    GovernanceTx (List (String × StrategyVersion)) :=
  Program.findAll Table.versions p

abbrev StrategyVersion.update (id : String) (f : StrategyVersion → StrategyVersion) :
    GovernanceTx Unit :=
  Program.modify Table.versions id f

abbrev AuditLog.create (row : AuditLog) : GovernanceTx Unit := Program.create row

/-! ## Review -/

inductive ReviewAction where
  | approve
  | reject
deriving DecidableEq, Repr

def ReviewAction.status : ReviewAction → ApprovalStatus
  | .approve => .approved
  | .reject => .rejected

def ReviewAction.audit : ReviewAction → AuditAction
  | .approve => .approve
  | .reject => .reject

/-- `none` is a field the caller left undefined. -/
structure ReviewApprovalInput where
  approvalId : String
  action : Option Json
  actor : Option Json
  note : Option Json

structure ReviewedApproval where
  approvalRequestId : String
  action : ReviewAction
  versionId : String
  versionStatus : StrategyStatus
  pausedVersionIds : List String
deriving DecidableEq, Repr

def reviewAction : Option Json → Except GovernanceError ReviewAction
  | some (.str "approve") => .ok .approve
  | some (.str "reject") => .ok .reject
  | _ => .error (.validation "'action' must be \"approve\" or \"reject\"")

def reviewNote (note : Option Json) : Except GovernanceError (Option String) :=
  match note with
  | none => .ok none
  | some .null => .ok none
  | some value => (requireText (some value) "note").map some

/-- The approval a review is about, and the checks on it. -/
def reviewableApproval (approvalId actor : String) : GovernanceTx ApprovalRequest := do
  let some approval ← ApprovalRequest.findUnique approvalId
    | .fail (.conflict ("approval request " ++ approvalId ++ " does not exist"))
  Program.failIf (approval.status ≠ .pending) (.conflict ("approval request " ++ approvalId ++
    " is already " ++ approval.status.text ++ " — reviews are immutable"))
  Program.failIf (approval.kind ≠ .deployApproval ∨ approval.entityType ≠ "StrategyVersion")
    (.conflict ("approval request " ++ approvalId ++ " is " ++ approval.kind.text ++ "/" ++
      approval.entityType ++ ", not a strategy deploy approval"))
  -- Four eyes.
  Program.failIf (approval.requestedBy = actor) (.conflict
    "four-eyes violation: the requesting actor cannot review their own deployment")
  pure approval

def reviewableVersion (versionId : String) : GovernanceTx StrategyVersion := do
  let some version ← StrategyVersion.findUnique versionId
    | .fail (.conflict ("strategy version " ++ versionId ++
        " referenced by the approval no longer exists"))
  Program.failIf (version.status ≠ .draft ∧ version.status ≠ .pendingDeployApproval)
    (.conflict ("strategy version " ++ versionId ++ " is " ++ version.status.text ++
      " — only DRAFT/PENDING_DEPLOY_APPROVAL can be reviewed"))
  pure version

def setDecision (action : ReviewAction) (actor : String) (note : Option String) (reviewedAt : ℤ)
    (approval : ApprovalRequest) : ApprovalRequest :=
  { approval with
    status := action.status
    reviewedBy := some actor
    reviewedAt := some reviewedAt
    reviewNote := note }

def decideApproval (approvalId : String) (action : ReviewAction) (actor : String)
    (note : Option String) (reviewedAt : ℤ) : GovernanceTx Unit := do
  ApprovalRequest.update approvalId (setDecision action actor note reviewedAt)
  AuditLog.create {
    actor
    action := action.audit
    entityType := "ApprovalRequest"
    entityId := approvalId
    before := some (statusJson ApprovalStatus.pending.text)
    after := some (statusJson action.status.text)
    reason := note
    requestId := some approvalId }

def setStatus (status : StrategyStatus) (version : StrategyVersion) : StrategyVersion :=
  { version with status }

/-- A status update of a version and its audit row. -/
def moveVersion (versionId actor : String) (before after : StrategyStatus) (reason : String)
    (requestId : Option String) : GovernanceTx Unit := do
  StrategyVersion.update versionId (setStatus after)
  AuditLog.create {
    actor
    action := .update
    entityType := "StrategyVersion"
    entityId := versionId
    before := some (statusJson before.text)
    after := some (statusJson after.text)
    reason := some reason
    requestId }

/-- Pauses every other active version of the strategy, then activates this one. -/
def activateVersion (versionId : String) (version : StrategyVersion) (approvalId actor : String)
    (note : Option String) : GovernanceTx (List String) := do
  let otherActive ← StrategyVersion.findMany fun id other =>
    other.strategyId = version.strategyId ∧ other.status = .active ∧ id ≠ versionId
  -- What was read as active is paused, whatever it is by then.
  otherActive.forM fun other => moveVersion other.1 actor .active .paused
    ("superseded by activation of version " ++ toString version.version ++ " (approval " ++
      approvalId ++ ")") (some approvalId)
  moveVersion versionId actor version.status .active
    (note.getD ("deployment approved (approval " ++ approvalId ++ ")")) (some approvalId)
  pure (otherActive.map Prod.fst)

/-- `reviewedAt` is the clock of the transaction. -/
def reviewDeployApproval (input : ReviewApprovalInput) (reviewedAt : ℤ) :
    GovernanceTx ReviewedApproval := do
  let action ← Program.ofExcept (reviewAction input.action)
  let actor ← Program.ofExcept (requireActor input.actor "actor")
  let note ← Program.ofExcept (reviewNote input.note)
  let approval ← reviewableApproval input.approvalId actor
  let version ← reviewableVersion approval.entityId
  decideApproval input.approvalId action actor note reviewedAt
  match action with
  -- A rejected version stays as it is.
  | .reject =>
      pure {
        approvalRequestId := input.approvalId
        action := .reject
        versionId := approval.entityId
        versionStatus := version.status
        pausedVersionIds := [] }
  | .approve =>
      let pausedVersionIds ← activateVersion approval.entityId version input.approvalId actor note
      pure {
        approvalRequestId := input.approvalId
        action := .approve
        versionId := approval.entityId
        versionStatus := .active
        pausedVersionIds }

/-! ## Retire -/

structure RetireVersionInput where
  versionId : String
  actor : Option Json
  reason : Option Json

def retireStrategyVersion (input : RetireVersionInput) :
    GovernanceTx (String × StrategyStatus) := do
  let actor ← Program.ofExcept (requireActor input.actor "actor")
  let reason ← Program.ofExcept (requireText input.reason "reason")
  let some version ← StrategyVersion.findUnique input.versionId
    | .fail (.conflict ("strategy version " ++ input.versionId ++ " does not exist"))
  Program.failIf (version.status = .retired)
    (.conflict ("strategy version " ++ input.versionId ++ " is already RETIRED"))
  moveVersion input.versionId actor version.status .retired reason none
  pure (input.versionId, .retired)

/-! ## Requests -/

inductive Request where
  | review (input : ReviewApprovalInput) (reviewedAt : ℤ)
  | retire (input : RetireVersionInput)

inductive Reply where
  | reviewed (approval : ReviewedApproval)
  | retired (versionId : String) (versionStatus : StrategyStatus)
deriving DecidableEq, Repr

def Request.program : Request → GovernanceTx Reply
  | .review input reviewedAt => do
      let reviewed ← reviewDeployApproval input reviewedAt
      pure (.reviewed reviewed)
  | .retire input => do
      let retired ← retireStrategyVersion input
      pure (.retired retired.1 retired.2)

/-- The `catch` of a review; a retirement has none. -/
def Request.raise (target : ErrorTarget) : Request → Failure → GovernanceError
  | .review _ _, failure =>
      if isSingleActiveConflict target failure then
        .conflict ("another version of this strategy was activated concurrently — this " ++
          "activation was rolled back; re-review to supersede the now-active version")
      else .database failure
  | .retire _, failure => .database failure

abbrev Database := System Row AuditLog GovernanceError Reply

/-- The database with every request's transaction about to begin. -/
def Database.begin (committed : Store Row) (entries : List AuditLog) (target : ErrorTarget)
    (requests : List Request) : Database :=
  { committed, entries, txs := requests.map fun r => .begin r.program (r.raise target) }

def step (s : Database) (a : Action) : Database := s.step activeKey a

end NexusQuant.Governance
