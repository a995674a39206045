import Mathlib.Data.List.Range
import Mathlib.Logic.Relation
import NexusQuant.Governance.Concurrency

/-!
# The moves of governance

What may happen to the rows and the audit log: a version is registered under the next number of its
strategy, an approval is decided, a version that is not retired changes its status and the log says
from what to what.  Only an approved version becomes active, and only when no other version of its
strategy is.
-/

namespace NexusQuant.Governance

open Transaction

structure Books where
  rows : Store Row
  audit : List AuditLog

/-- The versions of a strategy with their numbers, in the order of their creation. -/
def versionsOf (rows : Store Row) (strategyId : String) : List (String × ℕ) :=
  (rows .versions).filterMap fun v =>
    if v.2.strategyId = strategyId then some (v.1, v.2.version) else none

/-! ## The audit rows of a version -/

def auditOf (audit : List AuditLog) (versionId : String) : List AuditLog :=
  audit.filter fun row => row.entityType = "StrategyVersion" ∧ row.entityId = versionId

def auditStatus (value : Option Json) : Option String := value.bind fun v => v.getStr? "status"

/-- The status after the updates, each of which must start from the status the last one led to. -/
def replayFrom (status : String) : List AuditLog → Option String
  | [] => some status
  | row :: rest =>
      match row.action, auditStatus row.before, auditStatus row.after with
      | .update, some before, some after => if before = status then replayFrom after rest else none
      | _, _, _ => none

/-- The status a creation and the updates after it lead to. -/
def replay : List AuditLog → Option String
  | [] => none
  | row :: rest =>
      match row.action, row.before, auditStatus row.after with
      | .create, none, some status => replayFrom status rest
      | _, _, _ => none

/-- A row about the creation of a version. -/
structure AuditLog.Creates (row : AuditLog) (versionId : String) : Prop where
  action : row.action = .create
  entityType : row.entityType = "StrategyVersion"
  entityId : row.entityId = versionId
  before : row.before = none
  after : auditStatus row.after = some StrategyStatus.draft.text

/-- A row about a change of status. -/
structure AuditLog.Changes (row : AuditLog) (versionId : String) (before after : StrategyStatus) :
    Prop where
  action : row.action = .update
  entityType : row.entityType = "StrategyVersion"
  entityId : row.entityId = versionId
  before : auditStatus row.before = some before.text
  after : auditStatus row.after = some after.text

theorem replayFrom_append {status reached : String} {rows : List AuditLog} {row : AuditLog}
    {versionId : String} {before after : StrategyStatus} (h : replayFrom status rows = some reached)
    (hreached : reached = before.text) (hrow : row.Changes versionId before after) :
    replayFrom status (rows ++ [row]) = some after.text := by
  induction rows generalizing status with
  | nil =>
      cases h
      simp only [List.nil_append, replayFrom, hrow.action, hrow.before, hrow.after]
      rw [if_pos hreached.symm]
  | cons first rest ih =>
      rw [List.cons_append]
      unfold replayFrom at h ⊢
      split at h
      · split at h
        · rename_i heq
          rw [if_pos heq]
          exact ih h
        · cases h
      · cases h

theorem replay_append {rows : List AuditLog} {row : AuditLog} {versionId : String}
    {before after : StrategyStatus} (h : replay rows = some before.text)
    (hrow : row.Changes versionId before after) : replay (rows ++ [row]) = some after.text := by
  cases rows with
  | nil => cases h
  | cons first rest =>
      rw [List.cons_append]
      simp only [replay] at h ⊢
      split at h
      · exact replayFrom_append h rfl hrow
      · cases h

theorem replay_singleton {row : AuditLog} {versionId : String} (hrow : row.Creates versionId) :
    replay [row] = some StrategyStatus.draft.text := by
  simp only [replay, hrow.action, hrow.before, hrow.after, replayFrom]

theorem auditOf_concat_self {audit : List AuditLog} {row : AuditLog} {versionId : String}
    (htype : row.entityType = "StrategyVersion") (hid : row.entityId = versionId) :
    auditOf (audit ++ [row]) versionId = auditOf audit versionId ++ [row] := by
  unfold auditOf
  rw [List.filter_append, List.filter_singleton, decide_eq_true ⟨htype, hid⟩]
  rfl

theorem auditOf_concat_of_ne {audit : List AuditLog} {row : AuditLog} {versionId : String}
    (h : row.entityType ≠ "StrategyVersion" ∨ row.entityId ≠ versionId) :
    auditOf (audit ++ [row]) versionId = auditOf audit versionId := by
  unfold auditOf
  rw [List.filter_append, List.filter_singleton,
    decide_eq_false (fun hrow => h.elim (absurd hrow.1) (absurd hrow.2))]
  exact List.append_nil _

/-! ## Moves -/

inductive Move (b : Books) : Books → Prop
  | note (row : AuditLog) (hother : row.entityType ≠ "StrategyVersion") :
      Move b { b with audit := b.audit ++ [row] }
  | register (strategyId versionId approvalId : String) (approval : ApprovalRequest) (row : AuditLog)
      (hversion : b.rows.get? .versions versionId = none)
      (happroval : b.rows.get? .approvals approvalId = none) (hrow : row.Creates versionId) :
      Move b {
        rows := (b.rows.set .versions versionId
            ⟨strategyId, (versionsOf b.rows strategyId).length + 1, .draft⟩).set
          .approvals approvalId approval
        audit := b.audit ++ [row] }
  | decide (approvalId : String) (old new : ApprovalRequest) (row : AuditLog)
      (hold : b.rows.get? .approvals approvalId = some old) (hkept : old.Kept new)
      (hother : row.entityType ≠ "StrategyVersion") :
      Move b { rows := b.rows.set .approvals approvalId new, audit := b.audit ++ [row] }
  | restatus (versionId : String) (old : StrategyVersion) (status : StrategyStatus) (row : AuditLog)
      (hold : b.rows.get? .versions versionId = some old) (hopen : old.status ≠ .retired)
      (hrow : row.Changes versionId old.status status)
      (happroved : status = .active → ∃ approvalId approval,
        b.rows.get? .approvals approvalId = some approval ∧ approval.FourEyes versionId)
      (hsingle : status = .active → ∀ id version, b.rows.get? .versions id = some version →
        version.strategyId = old.strategyId → version.status = .active → id = versionId) :
      Move b {
        rows := b.rows.set .versions versionId (setStatus status old)
        audit := b.audit ++ [row] }

/-- What every move keeps. -/
structure Books.Sound (b : Books) : Prop where
  keys : (Dict.keys (b.rows .versions)).Nodup
  numbered : ∀ strategyId, (versionsOf b.rows strategyId).map Prod.snd =
    List.range' 1 (versionsOf b.rows strategyId).length
  single : ∀ id id' version version', b.rows.get? .versions id = some version →
    b.rows.get? .versions id' = some version' → version.strategyId = version'.strategyId →
      version.status = .active → version'.status = .active → id = id'
  approved : ActiveApproved b.rows
  audited : ∀ id version, b.rows.get? .versions id = some version →
    replay (auditOf b.audit id) = some version.status.text
  unaudited : ∀ id, b.rows.get? .versions id = none → auditOf b.audit id = []

/-- How books go on: rows only change as they may, and new versions come last. -/
structure Books.Onward (b b' : Books) : Prop where
  evolves : Evolves discipline b.rows b'.rows
  created : ∀ strategyId, versionsOf b.rows strategyId <+: versionsOf b'.rows strategyId

theorem Books.Onward.refl (b : Books) : b.Onward b :=
  ⟨.refl _ _, fun _ => List.prefix_rfl⟩

theorem Books.Onward.trans {a b c : Books} (hab : a.Onward b) (hbc : b.Onward c) : a.Onward c :=
  ⟨hab.evolves.trans hbc.evolves, fun id => (hab.created id).trans (hbc.created id)⟩

/-! ### The rows after a move -/

section Rows

variable {rows : Store Row} {strategyId versionId : String}

/-- What depends on the versions alone is the same after a write of an approval. -/
theorem get?_versions_set_approval {id approvalId : String} {approval : ApprovalRequest} :
    (rows.set .approvals approvalId approval).get? .versions id = rows.get? .versions id :=
  Store.get?_set_of_ne (.inl (by decide))

theorem get?_approvals_set_version {id : String} {version : StrategyVersion} :
    (rows.set .versions versionId version).get? .approvals id = rows.get? .approvals id :=
  Store.get?_set_of_ne (.inl (by decide))

theorem versionsOf_set_approval {approvalId : String} {approval : ApprovalRequest} :
    versionsOf (rows.set .approvals approvalId approval) strategyId = versionsOf rows strategyId := by
  unfold versionsOf
  rw [Store.set_of_ne (by decide)]

theorem versionsOf_set_new {version : StrategyVersion} (h : rows.get? .versions versionId = none) :
    versionsOf (rows.set .versions versionId version) strategyId = versionsOf rows strategyId ++
      if version.strategyId = strategyId then [(versionId, version.version)] else [] := by
  unfold versionsOf
  rw [Store.set_self, Dict.set_of_get?_eq_none h, List.filterMap_append]
  congr 1
  by_cases hstrategy : version.strategyId = strategyId
  · simp [hstrategy]
  · simp [hstrategy]

theorem versionsOf_setStatus {version : StrategyVersion} {status : StrategyStatus}
    (h : rows.get? .versions versionId = some version) :
    versionsOf (rows.set .versions versionId (setStatus status version)) strategyId =
      versionsOf rows strategyId := by
  unfold versionsOf
  rw [Store.set_self]
  exact Dict.filterMap_set h rfl

end Rows

variable {b b' : Books}

theorem Move.onward (h : Move b b') : b.Onward b' := by
  cases h with
  | note row hother => exact ⟨.refl _ _, fun _ => List.prefix_rfl⟩
  | register strategyId versionId approvalId approval row hversion happroval hrow =>
      constructor
      · intro t id old hold
        refine ⟨old, ?_, discipline.refl t old⟩
        -- The ids of the new rows are new.
        cases t with
        | approvals =>
            have hne : id ≠ approvalId := by
              rintro rfl
              rw [happroval] at hold
              cases hold
            rw [Store.get?_set_of_ne (.inr hne), get?_approvals_set_version]
            exact hold
        | versions =>
            have hne : id ≠ versionId := by
              rintro rfl
              rw [hversion] at hold
              cases hold
            rw [get?_versions_set_approval, Store.get?_set_of_ne (.inr hne)]
            exact hold
      · intro strategyId'
        dsimp only
        rw [versionsOf_set_approval, versionsOf_set_new hversion]
        exact List.prefix_append _ _
  | decide approvalId old new row hold hkept hother =>
      constructor
      · intro t id before hbefore
        by_cases hne : t ≠ .approvals ∨ id ≠ approvalId
        · exact ⟨before, by rw [Store.get?_set_of_ne hne, hbefore], discipline.refl t before⟩
        · rw [not_or, not_not, not_not] at hne
          obtain ⟨rfl, rfl⟩ := hne
          rw [hold] at hbefore
          cases hbefore
          exact ⟨new, Store.get?_set_self, hkept⟩
      · intro strategyId
        dsimp only
        rw [versionsOf_set_approval]
  | restatus versionId old status row hold hopen hrow happroved hsingle =>
      constructor
      · intro t id before hbefore
        by_cases hne : t ≠ .versions ∨ id ≠ versionId
        · exact ⟨before, by rw [Store.get?_set_of_ne hne, hbefore], discipline.refl t before⟩
        · rw [not_or, not_not, not_not] at hne
          obtain ⟨rfl, rfl⟩ := hne
          rw [hold] at hbefore
          cases hbefore
          refine ⟨setStatus status old, Store.get?_set_self, ?_⟩
          exact ⟨rfl, rfl, fun hretired => absurd hretired hopen⟩
      · intro strategyId
        dsimp only
        rw [versionsOf_setStatus hold]

/-- The first `n` numbers and the next one. -/
theorem numbered_concat {l : List (String × ℕ)} {id : String}
    (h : l.map Prod.snd = List.range' 1 l.length) :
    (l ++ [(id, l.length + 1)]).map Prod.snd = List.range' 1 (l ++ [(id, l.length + 1)]).length := by
  rw [List.map_append, h, List.length_append, List.length_singleton, List.range'_1_concat,
    Nat.add_comm 1]
  rfl

theorem Books.Sound.register {strategyId versionId approvalId : String} {approval : ApprovalRequest}
    {row : AuditLog} (hb : b.Sound) (hversion : b.rows.get? .versions versionId = none)
    (happroval : b.rows.get? .approvals approvalId = none) (hrow : row.Creates versionId) :
    Books.Sound {
      rows := (b.rows.set .versions versionId
          ⟨strategyId, (versionsOf b.rows strategyId).length + 1, .draft⟩).set
        .approvals approvalId approval
      audit := b.audit ++ [row] } := by
  -- A version that is found afterwards is the new one, a draft, or was there before.
  have hcases : ∀ {id : String} {version : StrategyVersion},
      ((b.rows.set .versions versionId ⟨strategyId, (versionsOf b.rows strategyId).length + 1,
          .draft⟩).set .approvals approvalId approval).get? .versions id = some version →
      (id = versionId ∧ version.status = .draft) ∨
        (id ≠ versionId ∧ b.rows.get? .versions id = some version) := by
    intro id version h
    rw [get?_versions_set_approval] at h
    rcases Store.get?_set_eq_some.mp h with ⟨hid, rfl⟩ | hbefore
    · exact .inl ⟨hid, rfl⟩
    · exact .inr hbefore
  have hold : ∀ {id : String} {version : StrategyVersion},
      ((b.rows.set .versions versionId ⟨strategyId, (versionsOf b.rows strategyId).length + 1,
          .draft⟩).set .approvals approvalId approval).get? .versions id = some version →
      version.status = .active → b.rows.get? .versions id = some version := by
    intro id version h hactive
    rcases hcases h with ⟨-, hdraft⟩ | ⟨-, hbefore⟩
    · rw [hdraft] at hactive
      cases hactive
    · exact hbefore
  constructor
  · dsimp only
    rw [Store.set_of_ne (by decide), Store.set_self]
    exact Dict.nodup_keys_set hb.keys
  · intro strategyId'
    dsimp only
    rw [versionsOf_set_approval, versionsOf_set_new hversion]
    by_cases hstrategy : strategyId = strategyId'
    · subst hstrategy
      rw [if_pos rfl]
      exact numbered_concat (hb.numbered strategyId)
    · rw [if_neg hstrategy, List.append_nil]
      exact hb.numbered strategyId'
  · intro id id' version version' h h' hstrategy hactive hactive'
    exact hb.single id id' version version' (hold h hactive) (hold h' hactive') hstrategy hactive
      hactive'
  · intro id version h hactive
    obtain ⟨otherId, other, hother, hfour⟩ := hb.approved id version (hold h hactive) hactive
    refine ⟨otherId, other, ?_, hfour⟩
    have hne : otherId ≠ approvalId := by
      rintro rfl
      rw [happroval] at hother
      cases hother
    rw [Store.get?_set_of_ne (.inr hne), get?_approvals_set_version]
    exact hother
  · intro id version h
    dsimp only at h ⊢
    rcases hcases h with ⟨rfl, hdraft⟩ | ⟨hne, hbefore⟩
    · rw [auditOf_concat_self hrow.entityType hrow.entityId, hb.unaudited _ hversion, hdraft]
      exact replay_singleton hrow
    · rw [auditOf_concat_of_ne (.inr (by rw [hrow.entityId]; exact Ne.symm hne))]
      exact hb.audited id version hbefore
  · intro id h
    dsimp only at h ⊢
    rw [get?_versions_set_approval] at h
    obtain ⟨hid, h⟩ := Store.get?_set_eq_none.mp h
    rw [auditOf_concat_of_ne (.inr (by rw [hrow.entityId]; exact Ne.symm hid))]
    exact hb.unaudited id h

theorem Books.Sound.decide {approvalId : String} {old new : ApprovalRequest} {row : AuditLog}
    (hb : b.Sound) (hold : b.rows.get? .approvals approvalId = some old) (hkept : old.Kept new)
    (hother : row.entityType ≠ "StrategyVersion") :
    Books.Sound { rows := b.rows.set .approvals approvalId new, audit := b.audit ++ [row] } := by
  constructor
  · dsimp only
    rw [Store.set_of_ne (by decide)]
    exact hb.keys
  · intro strategyId
    dsimp only
    rw [versionsOf_set_approval]
    exact hb.numbered strategyId
  · intro id id' version version' h h'
    rw [get?_versions_set_approval] at h h'
    exact hb.single id id' version version' h h'
  · intro id version h hactive
    rw [get?_versions_set_approval] at h
    obtain ⟨otherId, other, hfound, hfour⟩ := hb.approved id version h hactive
    by_cases hid : otherId = approvalId
    · subst hid
      rw [hold] at hfound
      cases hfound
      -- It is approved already, and so it stays as it is.
      have hnew : new = old := hkept.decided (by rw [hfour.status]; decide)
      exact ⟨otherId, new, Store.get?_set_self, hnew ▸ hfour⟩
    · exact ⟨otherId, other, by rw [Store.get?_set_of_ne (.inr hid), hfound], hfour⟩
  · intro id version h
    dsimp only at h ⊢
    rw [get?_versions_set_approval] at h
    rw [auditOf_concat_of_ne (.inl hother)]
    exact hb.audited id version h
  · intro id h
    dsimp only at h ⊢
    rw [get?_versions_set_approval] at h
    rw [auditOf_concat_of_ne (.inl hother)]
    exact hb.unaudited id h

theorem Books.Sound.restatus {versionId : String} {old : StrategyVersion} {status : StrategyStatus}
    {row : AuditLog} (hb : b.Sound) (hold : b.rows.get? .versions versionId = some old)
    (hrow : row.Changes versionId old.status status)
    (happroved : status = .active → ∃ approvalId approval,
      b.rows.get? .approvals approvalId = some approval ∧ approval.FourEyes versionId)
    (hsingle : status = .active → ∀ id version, b.rows.get? .versions id = some version →
      version.strategyId = old.strategyId → version.status = .active → id = versionId) :
    Books.Sound {
      rows := b.rows.set .versions versionId (setStatus status old)
      audit := b.audit ++ [row] } := by
  have hcases {id : String} {version : StrategyVersion}
      (h : (b.rows.set .versions versionId (setStatus status old)).get? .versions id = some version) :=
    Store.get?_set_eq_some.mp h
  constructor
  · dsimp only
    rw [Store.set_self]
    exact Dict.nodup_keys_set hb.keys
  · intro strategyId
    dsimp only
    rw [versionsOf_setStatus hold]
    exact hb.numbered strategyId
  · intro id id' version version' h h' hstrategy hactive hactive'
    rcases hcases h with ⟨rfl, rfl⟩ | ⟨hne, hbefore⟩
    · rcases hcases h' with ⟨rfl, -⟩ | ⟨hne', hbefore'⟩
      · rfl
      · exact (hsingle hactive id' version' hbefore' hstrategy.symm hactive').symm
    · rcases hcases h' with ⟨rfl, rfl⟩ | ⟨hne', hbefore'⟩
      · exact hsingle hactive' id version hbefore hstrategy hactive
      · exact hb.single id id' version version' hbefore hbefore' hstrategy hactive hactive'
  · intro id version h hactive
    have happrovals : ∀ approvalId, (b.rows.set .versions versionId (setStatus status old)).get?
        .approvals approvalId = b.rows.get? .approvals approvalId := fun _ => get?_approvals_set_version
    simp only [happrovals]
    rcases hcases h with ⟨rfl, rfl⟩ | ⟨hne, hbefore⟩
    · exact happroved hactive
    · exact hb.approved id version hbefore hactive
  · intro id version h
    dsimp only at h ⊢
    rcases hcases h with ⟨rfl, rfl⟩ | ⟨hne, hbefore⟩
    · rw [auditOf_concat_self hrow.entityType hrow.entityId]
      exact replay_append (hb.audited _ old hold) hrow
    · rw [auditOf_concat_of_ne (.inr (by rw [hrow.entityId]; exact Ne.symm hne))]
      exact hb.audited id version hbefore
  · intro id h
    dsimp only at h ⊢
    obtain ⟨hid, h⟩ := Store.get?_set_eq_none.mp h
    rw [auditOf_concat_of_ne (.inr (by rw [hrow.entityId]; exact Ne.symm hid))]
    exact hb.unaudited id h

theorem Move.sound (h : Move b b') (hb : b.Sound) : b'.Sound := by
  cases h with
  | note row hother =>
      have hsame : ∀ id, auditOf (b.audit ++ [row]) id = auditOf b.audit id :=
        fun id => auditOf_concat_of_ne (.inl hother)
      exact {
        hb with
        audited := fun id version h => (hsame id).symm ▸ hb.audited id version h
        unaudited := fun id h => (hsame id).trans (hb.unaudited id h) }
  | register strategyId versionId approvalId approval row hversion happroval hrow =>
      exact hb.register hversion happroval hrow
  | decide approvalId old new row hold hkept hother => exact hb.decide hold hkept hother
  | restatus versionId old status row hold hopen hrow happroved hsingle =>
      exact hb.restatus hold hrow happroved hsingle

/-! ### Any number of moves -/

theorem Moves.sound (h : Relation.ReflTransGen Move b b') (hb : b.Sound) : b'.Sound := by
  induction h with
  | refl => exact hb
  | tail _ hmove ih => exact hmove.sound ih

theorem Moves.onward (h : Relation.ReflTransGen Move b b') : b.Onward b' := by
  induction h with
  | refl => exact .refl b
  | tail _ hmove ih => exact ih.trans hmove.onward

end NexusQuant.Governance
