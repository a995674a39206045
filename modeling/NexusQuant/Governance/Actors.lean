import NexusQuant.Governance.SerialRuns

/-!
# Who acts

The names that stand in the books of governance, those of the audit log and those that asked for or
decided an approval, are names that the calls were made under.
-/

namespace NexusQuant.Governance

open Transaction Program Run Fallible

/-- Everybody who is named has the property. -/
structure ActedBy (P : String → Prop) (rows : Store Row) (audit : List AuditLog) : Prop where
  logged : ∀ row ∈ audit, P row.actor
  requested : ∀ id approval, rows.get? .approvals id = some approval → P approval.requestedBy
  reviewed : ∀ id approval reviewer, rows.get? .approvals id = some approval →
    approval.reviewedBy = some reviewer → P reviewer

/-- The name a call is made under, before it is checked. -/
def Call.actor : Call → Option Json
  | .register input _ => input.actor
  | .action (.review input _) _ => input.actor
  | .action (.retire input) _ => input.actor

/-! ## Rows -/

section Rows

variable {P Q : String → Prop} {rows : Store Row} {audit : List AuditLog} {row : AuditLog}

theorem ActedBy.mono (h : ActedBy P rows audit) (hall : ∀ name, P name → Q name) :
    ActedBy Q rows audit where
  logged row hrow := hall _ (h.logged row hrow)
  requested id approval happroval := hall _ (h.requested id approval happroval)
  reviewed id approval reviewer happroval hreviewer :=
    hall _ (h.reviewed id approval reviewer happroval hreviewer)

theorem ActedBy.log (h : ActedBy P rows audit) (hrow : P row.actor) :
    ActedBy P rows (audit ++ [row]) where
  logged := by
    intro other hother
    rcases List.mem_append.mp hother with hold | hnew
    · exact h.logged other hold
    · rw [List.mem_singleton.mp hnew]
      exact hrow
  requested := h.requested
  reviewed := h.reviewed

theorem ActedBy.setVersion (h : ActedBy P rows audit) (id : String) (version : StrategyVersion) :
    ActedBy P (rows.set .versions id version) audit where
  logged := h.logged
  requested := by
    intro other approval happroval
    rw [get?_approvals_set_version] at happroval
    exact h.requested other approval happroval
  reviewed := by
    intro other approval reviewer happroval
    rw [get?_approvals_set_version] at happroval
    exact h.reviewed other approval reviewer happroval

theorem ActedBy.setApproval (h : ActedBy P rows audit) (id : String) {approval : ApprovalRequest}
    (hrequested : P approval.requestedBy)
    (hreviewed : ∀ reviewer, approval.reviewedBy = some reviewer → P reviewer) :
    ActedBy P (rows.set .approvals id approval) audit where
  logged := h.logged
  requested := by
    intro other found hfound
    by_cases heq : other = id
    · subst heq
      rw [Store.get?_set_self] at hfound
      cases hfound
      exact hrequested
    · rw [Store.get?_set_of_ne (.inr heq)] at hfound
      exact h.requested other found hfound
  reviewed := by
    intro other found reviewer hfound
    by_cases heq : other = id
    · subst heq
      rw [Store.get?_set_self] at hfound
      cases hfound
      exact hreviewed reviewer
    · rw [Store.get?_set_of_ne (.inr heq)] at hfound
      exact h.reviewed other found reviewer hfound

end Rows

/-! ## Transactions -/

section Transactions

variable {P : String → Prop} {rows : Store Row} {audit : List AuditLog}
variable {raise : Failure → GovernanceError}

theorem moveVersion_actedBy {versionId actor reason : String} {before after : StrategyStatus}
    {requestId : Option String} (hactor : P actor) (h : ActedBy P rows audit) :
    (moveVersion versionId actor before after reason requestId).ensures activeKey raise
      (fun _ rows audit => ActedBy P rows audit) rows audit := by
  unfold moveVersion
  apply ensures_bind
  apply ensures_modify
  intro version _ _
  apply ensures_create
  exact (h.setVersion versionId _).log hactor

theorem activateVersion_actedBy {versionId approvalId actor : String} {version : StrategyVersion}
    {note : Option String} (hactor : P actor) (h : ActedBy P rows audit) :
    (activateVersion versionId version approvalId actor note).ensures activeKey raise
      (fun _ rows audit => ActedBy P rows audit) rows audit := by
  unfold activateVersion
  apply ensures_bind
  apply ensures_findAll
  apply ensures_bind
  refine ensures_mono (@ensures_forM _ _ _ _ _ activeKey raise _ _ _ _
    (fun _ rows audit => ActedBy P rows audit) (fun _ _ _ _ h => moveVersion_actedBy hactor h) _ h) ?_
  intro _ rows audit h
  apply ensures_bind
  refine ensures_mono (moveVersion_actedBy hactor h) ?_
  exact fun _ _ _ h => ensures_pure h

theorem reviewDeployApproval_actedBy {input : ReviewApprovalInput} {reviewedAt : ℤ}
    (hactor : ∀ actor, requireActor input.actor "actor" = .ok actor → P actor)
    (h : ActedBy P rows audit) :
    (reviewDeployApproval input reviewedAt).ensures activeKey raise
      (fun _ rows audit => ActedBy P rows audit) rows audit := by
  unfold reviewDeployApproval
  apply ensures_bind
  apply ensures_ofExcept
  intro action _
  apply ensures_bind
  apply ensures_ofExcept
  intro actor hinput
  have hname : P actor := hactor actor hinput
  apply ensures_bind
  apply ensures_ofExcept
  intro note _
  apply ensures_bind
  apply reviewableApproval_ensures
  intro approval happroval _ _ _ _
  apply ensures_bind
  apply reviewableVersion_ensures
  intro version _ _
  apply ensures_bind
  unfold decideApproval
  apply ensures_bind
  apply ensures_modify
  intro found hfound _
  apply ensures_create
  have hdecided : ActedBy P
      (rows.set .approvals input.approvalId (setDecision action actor note reviewedAt found)) audit := by
    apply h.setApproval
    · exact h.requested input.approvalId found hfound
    · intro reviewer hreviewer
      cases hreviewer
      exact hname
  cases action with
  | reject => exact ensures_pure (hdecided.log hname)
  | approve =>
      apply ensures_bind
      refine ensures_mono (activateVersion_actedBy hname (hdecided.log hname)) ?_
      exact fun _ _ _ h => ensures_pure h

theorem retireStrategyVersion_actedBy {input : RetireVersionInput}
    (hactor : ∀ actor, requireActor input.actor "actor" = .ok actor → P actor)
    (h : ActedBy P rows audit) :
    (retireStrategyVersion input).ensures activeKey raise
      (fun _ rows audit => ActedBy P rows audit) rows audit := by
  unfold retireStrategyVersion
  apply ensures_bind
  apply ensures_ofExcept
  intro actor hinput
  apply ensures_bind
  apply ensures_ofExcept
  intro reason _
  apply ensures_bind
  apply ensures_findUnique
  cases rows.get? .versions input.versionId with
  | none => exact ensures_fail
  | some version =>
      apply ensures_bind
      apply ensures_failIf
      intro _
      apply ensures_bind
      refine ensures_mono (moveVersion_actedBy (hactor actor hinput) h) ?_
      exact fun _ _ _ h => ensures_pure h

end Transactions

/-! ## Calls -/

section Calls

variable {P : String → Prop} {db : Tables}

theorem createRegistered_actedBy {r : Registration} {ids : NewIds}
    {registered : RegisteredStrategyVersion × Tables} (hactor : P r.actor)
    (hdb : ActedBy P db.rows db.audit) (h : createRegistered r ids db = .ok registered) :
    ActedBy P registered.2.rows registered.2.audit := by
  obtain ⟨strategy, hstrategy, hrest⟩ := bind_eq_ok.mp h
  obtain ⟨db₁, hversion, hrest⟩ := bind_eq_ok.mp hrest
  obtain ⟨db₂, happroval, rfl⟩ := map_eq_ok.mp hrest
  have hfound : ActedBy P strategy.2.2.rows strategy.2.2.audit := by
    unfold strategyFor at hstrategy
    split at hstrategy
    · cases hstrategy
      exact hdb
    · split at hstrategy
      · cases hstrategy
      · cases hstrategy
        exact hdb.log hactor
  unfold createVersion at hversion
  split at hversion
  · cases hversion
  · cases hversion
    unfold createApproval at happroval
    split at happroval
    · cases happroval
    · cases happroval
      have hnew : P (newApproval r ids.versionId).requestedBy := hactor
      have hrows := (hfound.setVersion ids.versionId
        ⟨strategy.1, (latestVersion strategy.2.2.rows strategy.1).getD 0 + 1, .draft⟩).setApproval
          ids.approvalId hnew (by simp [newApproval])
      exact hrows.log hactor

theorem checkRegistration_actor {input : RegisterStrategyInput} {r : Registration}
    (h : checkRegistration input = .ok r) : requireActor input.actor "actor" = .ok r.actor := by
  unfold checkRegistration at h
  obtain ⟨strategyName, -, h⟩ := bind_eq_ok.mp h
  obtain ⟨actor, hactor, h⟩ := bind_eq_ok.mp h
  obtain ⟨rationale, -, h⟩ := bind_eq_ok.mp h
  obtain ⟨description, -, h⟩ := bind_eq_ok.mp h
  obtain ⟨hypothesis, -, h⟩ := bind_eq_ok.mp h
  obtain ⟨entryLogic, -, h⟩ := bind_eq_ok.mp h
  obtain ⟨exitLogic, -, h⟩ := bind_eq_ok.mp h
  obtain ⟨riskRules, -, h⟩ := bind_eq_ok.mp h
  obtain ⟨failureConditions, -, h⟩ := bind_eq_ok.mp h
  obtain ⟨parameters, -, h⟩ := bind_eq_ok.mp h
  obtain ⟨validRegimes, -, h⟩ := bind_eq_ok.mp h
  obtain ⟨volatilityBounds, -, h⟩ := bind_eq_ok.mp h
  cases h
  exact hactor

/-- A call names nobody but the actor it is made under. -/
theorem callStep_actedBy {call : Call}
    (hactor : ∀ actor, requireActor call.actor "actor" = .ok actor → P actor)
    (h : ActedBy P db.rows db.audit) :
    ActedBy P (callStep db call).rows (callStep db call).audit := by
  unfold callStep
  split
  · rename_i r hrun
    cases call with
    | register input ids =>
        obtain ⟨registered, hregister, rfl⟩ := map_eq_ok.mp hrun
        obtain ⟨registration, hcheck, hcreate⟩ := bind_eq_ok.mp hregister
        exact createRegistered_actedBy (hactor _ (checkRegistration_actor hcheck)) h hcreate
    | action request target =>
        obtain ⟨c, hexec, rfl⟩ := map_eq_ok.mp hrun
        cases request with
        | review input reviewedAt =>
            have hreview : (Request.review input reviewedAt).program.ensures activeKey
                ((Request.review input reviewedAt).raise target)
                (fun _ rows audit => ActedBy P rows audit) db.rows db.audit := by
              apply ensures_bind
              refine ensures_mono (reviewDeployApproval_actedBy hactor h) ?_
              exact fun _ _ _ h => ensures_pure h
            exact hreview c hexec
        | retire input =>
            have hretire : (Request.retire input).program.ensures activeKey
                ((Request.retire input).raise target)
                (fun _ rows audit => ActedBy P rows audit) db.rows db.audit := by
              apply ensures_bind
              refine ensures_mono (retireStrategyVersion_actedBy hactor h) ?_
              exact fun _ _ _ h => ensures_pure h
            exact hretire c hexec
  · exact h

end Calls

end NexusQuant.Governance
