import NexusQuant.Lib.DecimalText
import NexusQuant.Lib.Json
import NexusQuant.Lib.ReadCommitted

/-!
# Governance tables

The rows of strategy governance that the actions read and write, the statuses they move through and
the errors the actions throw.  Rows are filed under their primary keys.
-/

namespace NexusQuant.Governance

open Transaction

inductive ApprovalStatus where
  | pending
  | approved
  | rejected
  | withdrawn
deriving DecidableEq, Repr

def ApprovalStatus.text : ApprovalStatus → String
  | .pending => "PENDING"
  | .approved => "APPROVED"
  | .rejected => "REJECTED"
  | .withdrawn => "WITHDRAWN"

inductive ApprovalKind where
  | backtestApproval
  | deployApproval
  | parameterChange
  | riskAdjustment
  | riskModeDeescalation
  | aiRecommendation
  | allocationPlan
deriving DecidableEq, Repr

def ApprovalKind.text : ApprovalKind → String
  | .backtestApproval => "BACKTEST_APPROVAL"
  | .deployApproval => "DEPLOY_APPROVAL"
  | .parameterChange => "PARAMETER_CHANGE"
  | .riskAdjustment => "RISK_ADJUSTMENT"
  | .riskModeDeescalation => "RISK_MODE_DEESCALATION"
  | .aiRecommendation => "AI_RECOMMENDATION"
  | .allocationPlan => "ALLOCATION_PLAN"

inductive StrategyStatus where
  | draft
  | backtesting
  | backtestApproved
  | pendingDeployApproval
  | active
  | paused
  | degraded
  | retired
deriving DecidableEq, Repr

def StrategyStatus.text : StrategyStatus → String
  | .draft => "DRAFT"
  | .backtesting => "BACKTESTING"
  | .backtestApproved => "BACKTEST_APPROVED"
  | .pendingDeployApproval => "PENDING_DEPLOY_APPROVAL"
  | .active => "ACTIVE"
  | .paused => "PAUSED"
  | .degraded => "DEGRADED"
  | .retired => "RETIRED"

structure ApprovalRequest where
  kind : ApprovalKind
  status : ApprovalStatus
  entityType : String
  entityId : String
  requestedBy : String
  reviewedBy : Option String
  reviewedAt : Option ℤ
  reviewNote : Option String
deriving DecidableEq, Repr

structure StrategyVersion where
  strategyId : String
  version : ℕ
  status : StrategyStatus
deriving DecidableEq, Repr

inductive AuditAction where
  | create
  | update
  | approve
  | reject
deriving DecidableEq, Repr

structure AuditLog where
  actor : String
  action : AuditAction
  entityType : String
  entityId : String
  before : Option Json
  after : Option Json
  reason : Option String
  requestId : Option String

/-- The `{ status }` objects of the audit rows. -/
def statusJson (text : String) : Json := .obj [("status", .str text)]

inductive Table where
  | approvals
  | versions
deriving DecidableEq, Repr

abbrev Row : Table → Type
  | .approvals => ApprovalRequest
  | .versions => StrategyVersion

/-- The partial unique index `StrategyVersion_strategyId_active_key`. -/
def activeKey : (t : Table) → Row t → Option String
  | .approvals, _ => none
  | .versions, version => if version.status = .active then some version.strategyId else none

inductive GovernanceError where
  | validation (message : String)
  | conflict (message : String)
  | database (failure : Failure)
deriving DecidableEq, Repr

/-- What the client reports as `meta.target` of a unique violation. -/
inductive ErrorTarget where
  | text (target : String)
  | fields (targets : List String)
  | missing
deriving DecidableEq, Repr

def mentionsActive (text : String) : Prop := "active".toList <:+: text.toList

instance (text : String) : Decidable (mentionsActive text) :=
  inferInstanceAs (Decidable ("active".toList <:+: text.toList))

def isSingleActiveConflict (target : ErrorTarget) : Failure → Bool
  | .uniqueViolation =>
      match target with
      | .text target => mentionsActive target
      | .fields targets => targets.any fun t => mentionsActive t
      -- A partial index is not always named, and the code alone is conclusive then.
      | .missing => true
  | _ => false

/-! ## Inputs -/

def trimText (text : String) : String := String.ofList (DecimalText.trim text.toList)

def requireText (value : Option Json) (field : String) : Except GovernanceError String :=
  match value with
  | some (.str text) =>
      if trimText text = "" then
        .error (.validation ("'" ++ field ++ "' is required and must be a non-empty string"))
      else .ok (trimText text)
  | _ => .error (.validation ("'" ++ field ++ "' is required and must be a non-empty string"))

def requireActor (value : Option Json) (field : String) : Except GovernanceError String := do
  let actor ← requireText value field
  -- Only ASCII letters have `d`, `e`, `m` or `o` as their lower case.
  if actor = "system:demo" ∨ "demo".toList <+: actor.toList.map Char.toLower then
    .error (.validation ("'" ++ field ++ "' must be a real operator identity — demo actors are " ++
      "refused on the production governance path"))
  else .ok actor

end NexusQuant.Governance
