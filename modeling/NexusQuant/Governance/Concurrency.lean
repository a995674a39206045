import NexusQuant.Governance.Actions
import NexusQuant.Lib.UniqueIndex

/-!
# Reviews under concurrency

Any number of reviews and retirements run side by side, one database statement at a time.  A
review's checks are made on rows it read, and its updates name their rows by primary key alone, so
between the two another transaction can decide the same approval or retire the same version.  In
every run in which no update meets such a row the review discipline holds: decided approvals never
change, retired versions stay retired, and every active version was approved by somebody other than
its requester.
-/

namespace NexusQuant.Governance

open Transaction Run

/-! ## The discipline of the rows -/

/-- The row an update finds is still open for it: an approval is pending, and a version is not
retired unless it is retired again. -/
def StillOpen : (t : Table) → Row t → Row t → Prop
  | .approvals, old, _ => old.status = .pending
  | .versions, old, new => old.status = .retired → new.status = .retired

instance (t : Table) (old new : Row t) : Decidable (StillOpen t old new) :=
  match t, old, new with
  | .approvals, old, _ => inferInstanceAs (Decidable (old.status = .pending))
  | .versions, old, new => inferInstanceAs (Decidable (old.status = .retired → new.status = .retired))

/-- What may happen to an approval: once decided, nothing. -/
structure ApprovalRequest.Kept (old new : ApprovalRequest) : Prop where
  kind : new.kind = old.kind
  entityType : new.entityType = old.entityType
  entityId : new.entityId = old.entityId
  requestedBy : new.requestedBy = old.requestedBy
  decided : old.status ≠ .pending → new = old

structure StrategyVersion.Kept (old new : StrategyVersion) : Prop where
  strategyId : new.strategyId = old.strategyId
  version : new.version = old.version
  retired : old.status = .retired → new.status = .retired

theorem ApprovalRequest.Kept.trans {a b c : ApprovalRequest} (hab : a.Kept b) (hbc : b.Kept c) :
    a.Kept c where
  kind := hbc.kind.trans hab.kind
  entityType := hbc.entityType.trans hab.entityType
  entityId := hbc.entityId.trans hab.entityId
  requestedBy := hbc.requestedBy.trans hab.requestedBy
  decided := by
    intro ha
    have hb : b = a := hab.decided ha
    subst hb
    exact hbc.decided ha

theorem StrategyVersion.Kept.trans {a b c : StrategyVersion} (hab : a.Kept b) (hbc : b.Kept c) :
    a.Kept c where
  strategyId := hbc.strategyId.trans hab.strategyId
  version := hbc.version.trans hab.version
  retired ha := hbc.retired (hab.retired ha)

def Kept : (t : Table) → Row t → Row t → Prop
  | .approvals, old, new => ApprovalRequest.Kept old new
  | .versions, old, new => StrategyVersion.Kept old new

def discipline : Discipline Row where
  guard := StillOpen
  rely := Kept
  refl := by
    intro t row
    cases t with
    | approvals => exact ⟨rfl, rfl, rfl, rfl, fun _ => rfl⟩
    | versions => exact ⟨rfl, rfl, id⟩
  trans := by
    intro t a b c
    cases t with
    | approvals => exact ApprovalRequest.Kept.trans
    | versions => exact StrategyVersion.Kept.trans

/-! ## Four eyes -/

/-- An approval of the version by somebody other than its requester. -/
structure ApprovalRequest.FourEyes (approval : ApprovalRequest) (versionId : String) : Prop where
  kind : approval.kind = .deployApproval
  entityType : approval.entityType = "StrategyVersion"
  entityId : approval.entityId = versionId
  status : approval.status = .approved
  reviewer : ∃ reviewer, approval.reviewedBy = some reviewer ∧ reviewer ≠ approval.requestedBy

/-- Every active version has its approval. -/
def ActiveApproved (rows : Store Row) : Prop :=
  ∀ versionId version, rows.get? .versions versionId = some version → version.status = .active →
    ∃ approvalId approval, rows.get? .approvals approvalId = some approval ∧
      ApprovalRequest.FourEyes approval versionId

/-- A transaction that writes the approval of every version it activates keeps every active version
approved: what it does not write of a decided approval stays as it is. -/
theorem ActiveApproved.overlay {committed writes : Store Row} (h : ActiveApproved committed)
    (hbased : Based discipline committed writes) (hwrites : ActiveApproved writes) :
    ActiveApproved (committed.overlay writes) := by
  intro versionId version hversion hactive
  cases hw : writes.get? .versions versionId with
  | some written =>
      rw [Store.get?_overlay_of_some hw] at hversion
      cases hversion
      have ⟨approvalId, approval, happroval, hfour⟩ := hwrites versionId version hw hactive
      exact ⟨approvalId, approval, Store.get?_overlay_of_some happroval, hfour⟩
  | none =>
      rw [Store.get?_overlay_of_none hw] at hversion
      have ⟨approvalId, approval, happroval, hfour⟩ := h versionId version hversion hactive
      refine ⟨approvalId, approval, ?_, hfour⟩
      cases ha : writes.get? .approvals approvalId with
      | none => rw [Store.get?_overlay_of_none ha, happroval]
      | some written =>
          have ⟨old, hold, hkept⟩ := hbased .approvals approvalId written ha
          rw [happroval] at hold
          cases hold
          -- A decided approval is not changed by anybody, so writing it again writes the same row.
          have hdecided : approval.status ≠ .pending := by
            rw [hfour.status]
            decide
          have hsame : written = approval := ApprovalRequest.Kept.decided hkept hdecided
          rw [Store.get?_overlay_of_some ha, hsame]

/-! ## The programs -/

/-- No version is written as active. -/
def Inactive (writes : Store Row) : Prop :=
  ∀ id version, writes.get? .versions id = some version → version.status ≠ .active

section Programs

open Program

variable {seen writes : Store Row}

theorem moveVersion_wp {versionId actor reason : String} {before after : StrategyStatus}
    {requestId : Option String} {post : Store Row → Store Row → Unit → Prop}
    (h : ∀ row : StrategyVersion,
      post seen (writes.set .versions versionId (setStatus after row)) ()) :
    (moveVersion versionId actor before after reason requestId).wp discipline post seen writes := by
  unfold moveVersion
  rw [wp_bind, wp_modify]
  intro row _ hopen
  exact ⟨⟨rfl, rfl, hopen⟩, h row⟩

theorem reviewableApproval_wp {approvalId actor : String}
    {post : Store Row → Store Row → ApprovalRequest → Prop}
    (h : ∀ approval : ApprovalRequest, approval.status = .pending →
      approval.kind = .deployApproval → approval.entityType = "StrategyVersion" →
      approval.requestedBy ≠ actor → post (seen.set .approvals approvalId approval) writes approval) :
    (reviewableApproval approvalId actor).wp discipline post seen writes := by
  unfold reviewableApproval
  rw [wp_bind, wp_findUnique]
  intro row
  cases row with
  | none => trivial
  | some approval =>
      show Program.wp discipline _ _ (seen.set .approvals approvalId approval) writes
      rw [wp_bind, wp_failIf]
      intro hpending
      rw [wp_bind, wp_failIf]
      intro hkind
      rw [wp_bind, wp_failIf]
      intro hactor
      rw [not_or, not_not, not_not] at hkind
      exact h approval (not_not.mp hpending) hkind.1 hkind.2 hactor

theorem reviewableVersion_wp {versionId : String}
    {post : Store Row → Store Row → StrategyVersion → Prop}
    (h : ∀ version : StrategyVersion, post (seen.set .versions versionId version) writes version) :
    (reviewableVersion versionId).wp discipline post seen writes := by
  unfold reviewableVersion
  rw [wp_bind, wp_findUnique]
  intro row
  cases row with
  | none => trivial
  | some version =>
      show Program.wp discipline _ _ (seen.set .versions versionId version) writes
      rw [wp_bind, wp_failIf]
      intro _
      exact h version

/-- The decision is written on the row as it is by then, which may differ from the row read only
where `Kept` allows it. -/
theorem decideApproval_wp {approvalId actor : String} {action : ReviewAction} {note : Option String}
    {reviewedAt : ℤ} {approval : ApprovalRequest} {post : Store Row → Store Row → Unit → Prop}
    (hseen : seen.get? .approvals approvalId = some approval)
    (h : ∀ row : ApprovalRequest, approval.Kept row →
      post seen (writes.set .approvals approvalId
        (setDecision action actor note reviewedAt row)) ()) :
    (decideApproval approvalId action actor note reviewedAt).wp discipline post seen writes := by
  unfold decideApproval
  rw [wp_bind, wp_modify]
  intro row hrow hopen
  have hpending : row.status = .pending := hopen
  exact ⟨⟨rfl, rfl, rfl, rfl, fun hdecided => absurd hpending hdecided⟩, h row (hrow approval hseen)⟩

/-- A round of the pause loop writes no approval and no active version. -/
theorem pauseAll_wp {others : List (String × StrategyVersion)} {actor reason : String}
    {requestId : Option String} (hinactive : Inactive writes) :
    (others.forM fun other => moveVersion other.1 actor .active .paused reason requestId).wp discipline
      (fun seen' writes' _ => seen' = seen ∧ Inactive writes' ∧
        ∀ id, writes'.get? .approvals id = writes.get? .approvals id) seen writes := by
  apply wp_forM
  · intro other _ seen' writes' ⟨hseen, hinactive, happrovals⟩
    apply moveVersion_wp
    intro row
    refine ⟨hseen, ?_, ?_⟩
    · intro id v hv
      rcases Store.get?_set_cases hv with ⟨_, _, hpaused⟩ | ⟨_, hbefore⟩
      · rw [hpaused]
        show StrategyStatus.paused ≠ StrategyStatus.active
        decide
      · exact hinactive id v hbefore
    · intro id
      rw [Store.get?_set_of_ne (.inl (by decide))]
      exact happrovals id
  · exact ⟨rfl, hinactive, fun _ => rfl⟩

theorem activateVersion_wp {versionId approvalId actor : String} {version : StrategyVersion}
    {note : Option String} {post : Store Row → Store Row → List String → Prop}
    (hinactive : Inactive writes)
    (h : ∀ (writes' : Store Row) (row : StrategyVersion) ids, Inactive writes' →
      (∀ id, writes'.get? .approvals id = writes.get? .approvals id) →
      post seen (writes'.set .versions versionId (setStatus .active row)) ids) :
    (activateVersion versionId version approvalId actor note).wp discipline post seen writes := by
  unfold activateVersion
  rw [wp_bind, wp_findAll]
  intro others
  rw [wp_bind]
  apply wp_mono (pauseAll_wp hinactive)
  intro seen' writes' _ ⟨hseen, hinactive', happrovals⟩
  subst hseen
  rw [wp_bind]
  apply moveVersion_wp
  intro row
  exact h writes' row _ hinactive' happrovals

/-- A review writes the approval of the version it activates. -/
theorem reviewDeployApproval_wp (input : ReviewApprovalInput) (reviewedAt : ℤ) :
    (reviewDeployApproval input reviewedAt).wp discipline
      (fun _ writes _ => ActiveApproved writes) seen .empty := by
  unfold reviewDeployApproval
  rw [wp_bind]
  apply wp_ofExcept
  intro action _
  rw [wp_bind]
  apply wp_ofExcept
  intro actor _
  rw [wp_bind]
  apply wp_ofExcept
  intro note _
  rw [wp_bind]
  apply reviewableApproval_wp
  intro approval _ hkind htype hactor
  rw [wp_bind]
  apply reviewableVersion_wp
  intro version
  rw [wp_bind]
  -- The version was read after the approval, which is still what the review knows of it.
  have hseen : ((seen.set .approvals input.approvalId approval).set .versions approval.entityId
      version).get? .approvals input.approvalId = some approval := by
    rw [Store.get?_set_of_ne (.inl (by decide)), Store.get?_set_self]
  apply decideApproval_wp hseen
  intro row hkept
  have hinactive : ∀ approval : ApprovalRequest,
      Inactive ((Store.empty : Store Row).set .approvals input.approvalId approval) := by
    intro approval id v hv
    rw [Store.get?_set_of_ne (.inl (by decide))] at hv
    cases hv
  cases action with
  | reject =>
      intro versionId v hv hactive
      exact absurd hactive (hinactive _ versionId v hv)
  | approve =>
      show Program.wp discipline _ _ _ _
      rw [wp_bind]
      apply activateVersion_wp (hinactive _)
      intro writes' versionRow ids hinactive' happrovals versionId v hv hactive
      -- The version in question is the one activated last, or it was only paused.
      rcases Store.get?_set_cases hv with ⟨_, hid, _⟩ | ⟨_, hbefore⟩
      · refine ⟨input.approvalId, setDecision .approve actor note reviewedAt row, ?_, ?_⟩
        · rw [Store.get?_set_of_ne (.inl (by decide)), happrovals, Store.get?_set_self]
        · constructor
          · exact hkept.kind.trans hkind
          · exact hkept.entityType.trans htype
          · exact hkept.entityId.trans hid.symm
          · rfl
          · refine ⟨actor, rfl, ?_⟩
            show actor ≠ row.requestedBy
            rw [hkept.requestedBy]
            exact Ne.symm hactor
      · exact absurd hactive (hinactive' versionId v hbefore)

theorem retireStrategyVersion_wp (input : RetireVersionInput) :
    (retireStrategyVersion input).wp discipline (fun _ writes _ => ActiveApproved writes) seen
      .empty := by
  unfold retireStrategyVersion
  rw [wp_bind]
  apply wp_ofExcept
  intro actor _
  rw [wp_bind]
  apply wp_ofExcept
  intro reason _
  rw [wp_bind, wp_findUnique]
  intro row
  cases row with
  | none => trivial
  | some version =>
      show Program.wp discipline _ _ (seen.set .versions input.versionId version) _
      rw [wp_bind, wp_failIf]
      intro _
      rw [wp_bind]
      apply moveVersion_wp
      intro row versionId v hv hactive
      rcases Store.get?_set_cases hv with ⟨_, _, hretired⟩ | ⟨_, hbefore⟩
      · rw [hretired] at hactive
        cases hactive
      · cases hbefore

theorem program_wp (request : Request) :
    request.program.wp discipline (fun _ writes _ => ActiveApproved writes) .empty .empty := by
  cases request with
  | review input reviewedAt =>
      show Program.wp discipline
        (reviewDeployApproval input reviewedAt >>= fun reviewed => pure (Reply.reviewed reviewed)) _ _ _
      rw [wp_bind]
      exact reviewDeployApproval_wp input reviewedAt
  | retire input =>
      show Program.wp discipline
        (retireStrategyVersion input >>= fun retired => pure (Reply.retired retired.1 retired.2)) _ _ _
      rw [wp_bind]
      exact retireStrategyVersion_wp input

end Programs

/-! ## Runs -/

def committedAfter (s : Database) (actions : List Action) : Store Row := (run step s actions).committed

/-- An update, if the action makes one, finds its row still open. -/
def UpdatesOpen (s : Database) (a : Action) : Prop := s.Guarded activeKey StillOpen a

instance (s : Database) (a : Action) : Decidable (UpdatesOpen s a) :=
  inferInstanceAs (Decidable (s.Guarded activeKey StillOpen a))

theorem begin_sound (committed : Store Row) (entries : List AuditLog) (target : ErrorTarget)
    (requests : List Request) :
    Sound discipline ActiveApproved (Database.begin committed entries target requests) := by
  apply sound_begin
  intro tx htx
  have ⟨request, _, hrequest⟩ := List.mem_map.mp htx
  exact ⟨request.program, request.raise target, hrequest.symm, program_wp request⟩

/-- The review discipline between two moments: what was decided or retired at the first is so at
the second, and at the second every active version is approved. -/
structure ReviewsHold (before after : Store Row) : Prop where
  decided : ∀ id approval, before.get? .approvals id = some approval → approval.status ≠ .pending →
    after.get? .approvals id = some approval
  retired : ∀ id version, before.get? .versions id = some version → version.status = .retired →
    ∃ version', after.get? .versions id = some version' ∧ version'.status = .retired
  approved : ActiveApproved after

/-- In every run in which every update finds its row still open, decided approvals never change,
retired versions stay retired and active versions are approved by another than their requester. -/
theorem reviews_immutable {committed : Store Row} {entries : List AuditLog} {target : ErrorTarget}
    {requests : List Request} {early late : List Action} (hstart : ActiveApproved committed)
    (hopen : RunMeets step UpdatesOpen (Database.begin committed entries target requests)
      (early ++ late)) :
    ReviewsHold (committedAfter (Database.begin committed entries target requests) early)
      (committedAfter (Database.begin committed entries target requests) (early ++ late)) := by
  have hsound := begin_sound committed entries target requests
  have hevolves : Evolves discipline
      (committedAfter (Database.begin committed entries target requests) early)
      (committedAfter (Database.begin committed entries target requests) (early ++ late)) := by
    rw [committedAfter, committedAfter, run_append]
    exact (hsound.run hopen.of_append).run_evolves hopen.of_append_right
  constructor
  · intro id approval happroval hdecided
    have ⟨row, hrow, hkept⟩ := hevolves .approvals id approval happroval
    rw [hrow, ApprovalRequest.Kept.decided hkept hdecided]
  · intro id version hversion hretired
    have ⟨row, hrow, hkept⟩ := hevolves .versions id version hversion
    exact ⟨row, hrow, StrategyVersion.Kept.retired hkept hretired⟩
  · exact hsound.run_invariant (fun _ _ h hbased hwrites => h.overlay hbased hwrites) hopen hstart

/-- Whatever the transactions read, the index keeps one active version of a strategy. -/
theorem single_active_version {committed : Store Row} {entries : List AuditLog}
    {target : ErrorTarget} {requests : List Request} (actions : List Action)
    (hstart : Unique activeKey committed) {id id' : String} {version version' : StrategyVersion}
    (hid : (committedAfter (Database.begin committed entries target requests) actions).get?
      .versions id = some version)
    (hid' : (committedAfter (Database.begin committed entries target requests) actions).get?
      .versions id' = some version')
    (hactive : version.status = .active) (hactive' : version'.status = .active)
    (hstrategy : version.strategyId = version'.strategyId) : id = id' := by
  have hbegin : IndexKept activeKey (Database.begin committed entries target requests) := by
    apply indexKept_begin hstart
    intro tx htx
    have ⟨request, _, hrequest⟩ := List.mem_map.mp htx
    exact ⟨request.program, request.raise target, hrequest.symm⟩
  have hkept : IndexKept activeKey
      (run step (Database.begin committed entries target requests) actions) := hbegin.run
  apply hkept.committed .versions id id' version version' version.strategyId hid hid'
  · rw [activeKey, if_pos hactive]
  · rw [activeKey, if_pos hactive', hstrategy]

/-! ## Races -/

def deployRequest : ApprovalRequest where
  kind := .deployApproval
  status := .pending
  entityType := "StrategyVersion"
  entityId := "v1"
  requestedBy := "alice"
  reviewedBy := none
  reviewedAt := none
  reviewNote := none

def draftVersion : StrategyVersion where
  strategyId := "s1"
  version := 1
  status := .draft

def oneDraft : Store Row
  | .approvals => [("a1", deployRequest)]
  | .versions => [("v1", draftVersion)]

def reviewBy (action actor : String) : Request :=
  .review
    { approvalId := "a1", action := some (.str action), actor := some (.str actor), note := none } 0

def retireBy (actor : String) : Request :=
  .retire { versionId := "v1", actor := some (.str actor), reason := some (.str "obsolete") }

def twoReviews : Database :=
  .begin oneDraft [] .missing [reviewBy "approve" "bob", reviewBy "reject" "carol"]

def reviewAndRetire : Database :=
  .begin oneDraft [] .missing [reviewBy "approve" "bob", retireBy "carol"]

theorem oneDraft_approved : ActiveApproved oneDraft := by
  intro versionId version hversion hactive
  have hmem : (versionId, version) ∈ [("v1", draftVersion)] := Dict.mem_of_get? hversion
  rw [List.mem_singleton, Prod.mk.injEq] at hmem
  rw [hmem.2] at hactive
  cases hactive

/-- The second review reads while the first is open and waits for it. -/
def secondWaits : List Action :=
  [.advance 0, .advance 0, .advance 0, .advance 1, .advance 1, .advance 1]

/-- The first review runs to its end, and the database gives up on the second. -/
def firstCommits : List Action := List.replicate 5 (.advance 0) ++ [.abort 1]

theorem reviews_immutable_waiting :
    RunMeets step UpdatesOpen twoReviews (secondWaits ++ firstCommits) ∧
      ReviewsHold (committedAfter twoReviews secondWaits)
        (committedAfter twoReviews (secondWaits ++ firstCommits)) := by
  have hopen : RunMeets step UpdatesOpen twoReviews (secondWaits ++ firstCommits) := by
    decide +kernel
  exact ⟨hopen, reviews_immutable oneDraft_approved hopen⟩

def bothBegin : List Action := [.advance 0, .advance 0, .advance 1, .advance 1]

def approvalEnds : List Action := List.replicate 6 (.advance 0)

def rejectionEnds : List Action := List.replicate 3 (.advance 1)

def retirementEnds : List Action := List.replicate 2 (.advance 1)

theorem not_reviewsHold_of_decided {before after : Store Row} {id : String}
    {old new : ApprovalStatus} (hbefore : (before.get? .approvals id).map (·.status) = some old)
    (hafter : (after.get? .approvals id).map (·.status) = some new) (hdecided : old ≠ .pending)
    (hne : new ≠ old) : ¬ReviewsHold before after := by
  intro h
  have ⟨approval, happroval, hstatus⟩ := Option.map_eq_some_iff.mp hbefore
  have hkept := h.decided id approval happroval (by rw [hstatus]; exact hdecided)
  rw [hkept] at hafter
  exact hne ((Option.some.inj hafter).symm.trans hstatus)

theorem not_reviewsHold_of_retired {before after : Store Row} {id : String} {new : StrategyStatus}
    (hbefore : (before.get? .versions id).map (·.status) = some .retired)
    (hafter : (after.get? .versions id).map (·.status) = some new) (hne : new ≠ .retired) :
    ¬ReviewsHold before after := by
  intro h
  have ⟨version, hversion, hstatus⟩ := Option.map_eq_some_iff.mp hbefore
  have ⟨version', hversion', hretired⟩ := h.retired id version hversion hstatus
  rw [hversion'] at hafter
  exact hne ((Option.some.inj hafter).symm.trans hretired)

/-- A rejection that read the approval before it was approved overwrites it, and the version stays
active; an approval that read the version before it was retired makes the retired version active. -/
theorem stale_reads_undo_reviews :
    ActiveApproved oneDraft ∧
      (((committedAfter twoReviews (bothBegin ++ approvalEnds)).get? .approvals "a1").map (·.status) =
          some .approved ∧
        ((committedAfter twoReviews (bothBegin ++ approvalEnds ++ rejectionEnds)).get?
          .approvals "a1").map (·.status) = some .rejected ∧
        ((committedAfter twoReviews (bothBegin ++ approvalEnds ++ rejectionEnds)).get?
          .versions "v1").map (·.status) = some .active ∧
        ¬ReviewsHold (committedAfter twoReviews (bothBegin ++ approvalEnds))
          (committedAfter twoReviews (bothBegin ++ approvalEnds ++ rejectionEnds))) ∧
      ((committedAfter reviewAndRetire (bothBegin ++ retirementEnds)).get?
          .versions "v1").map (·.status) = some .retired ∧
        ((committedAfter reviewAndRetire (bothBegin ++ retirementEnds ++ approvalEnds)).get?
          .versions "v1").map (·.status) = some .active ∧
        ¬ReviewsHold (committedAfter reviewAndRetire (bothBegin ++ retirementEnds))
          (committedAfter reviewAndRetire (bothBegin ++ retirementEnds ++ approvalEnds)) := by
  have happroved : ((committedAfter twoReviews (bothBegin ++ approvalEnds)).get?
      .approvals "a1").map (·.status) = some .approved := by decide +kernel
  have hrejected : ((committedAfter twoReviews (bothBegin ++ approvalEnds ++ rejectionEnds)).get?
      .approvals "a1").map (·.status) = some .rejected := by decide +kernel
  have hretired : ((committedAfter reviewAndRetire (bothBegin ++ retirementEnds)).get?
      .versions "v1").map (·.status) = some .retired := by decide +kernel
  have hactive : ((committedAfter reviewAndRetire (bothBegin ++ retirementEnds ++ approvalEnds)).get?
      .versions "v1").map (·.status) = some .active := by decide +kernel
  refine ⟨oneDraft_approved, ⟨happroved, hrejected, by decide +kernel, ?_⟩, hretired, hactive, ?_⟩
  · exact not_reviewsHold_of_decided happroved hrejected (by decide) (by decide)
  · exact not_reviewsHold_of_retired hretired hactive (by decide)

end NexusQuant.Governance
