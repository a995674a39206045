import NexusQuant.Lib.Fallible
import NexusQuant.Governance.Moves
import NexusQuant.Governance.Register

/-!
# Serial runs of the governance actions

Every call that is made on sound books makes only moves of governance, so what the moves keep holds
after any calls, whoever makes them with whatever input.
-/

namespace NexusQuant.Governance

open Transaction Program Run Fallible

def Tables.books (db : Tables) : Books := ⟨db.rows, db.audit⟩

/-! ## Registration -/

section Register

variable {db db' : Tables} {r : Registration}

theorem strategyFor_moves {newId : String} {strategy : String × Bool × Tables}
    (h : strategyFor r newId db = .ok strategy) :
    Relation.ReflTransGen Move db.books strategy.2.2.books ∧ strategy.2.2.rows = db.rows := by
  unfold strategyFor at h
  split at h
  · cases h
    exact ⟨.refl, rfl⟩
  · split at h
    · cases h
    · cases h
      have hother : (strategyCreatedRow r newId).entityType ≠ "StrategyVersion" := by
        show "Strategy" ≠ "StrategyVersion"
        decide
      exact ⟨.single (.note (strategyCreatedRow r newId) hother), rfl⟩

/-- On books whose versions are numbered the latest number is the number of versions. -/
theorem latestVersion_eq {rows : Store Row} {strategyId : String}
    (h : (versionsOf rows strategyId).map Prod.snd =
      List.range' 1 (versionsOf rows strategyId).length) :
    (latestVersion rows strategyId).getD 0 = (versionsOf rows strategyId).length := by
  have hnumbers : ((rows .versions).filter fun v => v.2.strategyId = strategyId).map
      (fun v => v.2.version) = (versionsOf rows strategyId).map Prod.snd := by
    unfold versionsOf
    rw [List.map_filterMap, ← List.filterMap_eq_map, List.filterMap_filter]
    congr 1
    funext v
    by_cases hv : v.2.strategyId = strategyId
    · simp [hv]
    · simp [hv]
  unfold latestVersion
  rw [hnumbers, h]
  cases (versionsOf rows strategyId).length with
  | zero => rfl
  | succ n =>
      have hmax : (List.range' 1 (n + 1)).max? = some (n + 1) := by
        rw [List.max?_eq_some_iff]
        constructor
        · rw [List.mem_range'_1]
          omega
        · intro k hk
          rw [List.mem_range'_1] at hk
          omega
      rw [hmax]
      rfl

theorem versionCreatedRow_creates (strategyId versionId : String) (version : ℕ) (approvalId : String) :
    (versionCreatedRow r strategyId versionId version approvalId).Creates versionId :=
  ⟨rfl, rfl, rfl, rfl, rfl⟩

theorem registerStrategyVersion_moves {input : RegisterStrategyInput} {ids : NewIds}
    {registered : RegisteredStrategyVersion} (hdb : db.books.Sound)
    (h : registerStrategyVersion input ids db = .ok (registered, db')) :
    Relation.ReflTransGen Move db.books db'.books := by
  obtain ⟨r, -, hcreate⟩ := bind_eq_ok.mp h
  obtain ⟨strategy, hstrategy, hrest⟩ := bind_eq_ok.mp hcreate
  obtain ⟨db₁, hversion, hrest⟩ := bind_eq_ok.mp hrest
  obtain ⟨db₂, happroval, hdone⟩ := map_eq_ok.mp hrest
  obtain ⟨-, rfl⟩ := Prod.mk.inj hdone
  obtain ⟨hmoves, hrows⟩ := strategyFor_moves hstrategy
  have hsound := Moves.sound hmoves hdb
  unfold createVersion at hversion
  split at hversion
  · cases hversion
  · rename_i hfree
    cases hversion
    unfold createApproval at happroval
    split at happroval
    · cases happroval
    · rename_i hnew
      cases happroval
      rw [not_or, Bool.not_eq_true, Option.isSome_eq_false_iff, Option.isNone_iff_eq_none] at hfree
      rw [Bool.not_eq_true, Option.isSome_eq_false_iff, Option.isNone_iff_eq_none,
        get?_approvals_set_version] at hnew
      have hmove := Move.register (b := strategy.2.2.books) strategy.1 ids.versionId ids.approvalId
        (newApproval r ids.versionId) _ hfree.1 hnew
        (versionCreatedRow_creates (r := r) strategy.1 ids.versionId
          ((versionsOf strategy.2.2.rows strategy.1).length + 1) ids.approvalId)
      have hlatest : (latestVersion strategy.2.2.rows strategy.1).getD 0 =
          (versionsOf strategy.2.2.rows strategy.1).length :=
        latestVersion_eq (hsound.numbered strategy.1)
      rw [hlatest]
      exact hmoves.tail hmove

end Register

/-! ## Reviews and retirements -/

section Requests

variable {raise : Failure → GovernanceError} {rows : Store Row} {audit : List AuditLog}

theorem moveVersion_ensures {versionId actor reason : String} {before after : StrategyStatus}
    {requestId : Option String} {post : Unit → Store Row → List AuditLog → Prop}
    (h : ∀ (version : StrategyVersion) (row : AuditLog), rows.get? .versions versionId = some version →
      row.Changes versionId before after →
      post () (rows.set .versions versionId (setStatus after version)) (audit ++ [row])) :
    (moveVersion versionId actor before after reason requestId).ensures activeKey raise post rows
      audit := by
  unfold moveVersion
  apply ensures_bind
  apply ensures_modify
  intro version hversion _
  apply ensures_create
  exact h version _ hversion ⟨rfl, rfl, rfl, rfl, rfl⟩

theorem decideApproval_ensures {approvalId actor : String} {action : ReviewAction}
    {note : Option String} {reviewedAt : ℤ} {post : Unit → Store Row → List AuditLog → Prop}
    (h : ∀ (approval : ApprovalRequest) (row : AuditLog),
      rows.get? .approvals approvalId = some approval → row.entityType ≠ "StrategyVersion" →
      post () (rows.set .approvals approvalId (setDecision action actor note reviewedAt approval))
        (audit ++ [row])) :
    (decideApproval approvalId action actor note reviewedAt).ensures activeKey raise post rows
      audit := by
  unfold decideApproval
  apply ensures_bind
  apply ensures_modify
  intro approval happroval _
  apply ensures_create
  apply h approval _ happroval
  show "ApprovalRequest" ≠ "StrategyVersion"
  decide

theorem reviewableApproval_ensures {approvalId actor : String}
    {post : ApprovalRequest → Store Row → List AuditLog → Prop}
    (h : ∀ approval : ApprovalRequest, rows.get? .approvals approvalId = some approval →
      approval.status = .pending → approval.kind = .deployApproval →
      approval.entityType = "StrategyVersion" → approval.requestedBy ≠ actor →
      post approval rows audit) :
    (reviewableApproval approvalId actor).ensures activeKey raise post rows audit := by
  unfold reviewableApproval
  apply ensures_bind
  apply ensures_findUnique
  cases hfound : rows.get? .approvals approvalId with
  | none => exact ensures_fail
  | some approval =>
      apply ensures_bind
      apply ensures_failIf
      intro hpending
      apply ensures_bind
      apply ensures_failIf
      intro hkind
      apply ensures_bind
      apply ensures_failIf
      intro hactor
      rw [not_or, not_not, not_not] at hkind
      exact ensures_pure (h approval hfound (not_not.mp hpending) hkind.1 hkind.2 hactor)

theorem reviewableVersion_ensures {versionId : String}
    {post : StrategyVersion → Store Row → List AuditLog → Prop}
    (h : ∀ version : StrategyVersion, rows.get? .versions versionId = some version →
      version.status = .draft ∨ version.status = .pendingDeployApproval → post version rows audit) :
    (reviewableVersion versionId).ensures activeKey raise post rows audit := by
  unfold reviewableVersion
  apply ensures_bind
  apply ensures_findUnique
  cases hfound : rows.get? .versions versionId with
  | none => exact ensures_fail
  | some version =>
      apply ensures_bind
      apply ensures_failIf
      intro hstatus
      apply ensures_pure
      apply h version hfound
      by_contra hne
      exact hstatus (not_or.mp hne)

/-- While the other active versions are paused: what is left of them is still active, nothing else
of the strategy is, and the version to be activated and the approvals are as they were. -/
structure Pausing (b : Books) (versionId : String) (version : StrategyVersion)
    (left : List (String × StrategyVersion)) (rows : Store Row) (audit : List AuditLog) : Prop where
  moves : Relation.ReflTransGen Move b ⟨rows, audit⟩
  distinct : (left.map Prod.fst).Nodup
  active : ∀ other ∈ left, rows.get? .versions other.1 = some other.2 ∧ other.2.status = .active ∧
    other.1 ≠ versionId
  others : ∀ id found, rows.get? .versions id = some found → found.strategyId = version.strategyId →
    found.status = .active → id ≠ versionId → id ∈ left.map Prod.fst
  target : rows.get? .versions versionId = some version
  approvals : ∀ id, rows.get? .approvals id = b.rows.get? .approvals id

theorem Pausing.round {b : Books} {versionId actor reason : String} {version : StrategyVersion}
    {other : String × StrategyVersion} {left : List (String × StrategyVersion)}
    {requestId : Option String} (h : Pausing b versionId version (other :: left) rows audit) :
    (moveVersion other.1 actor .active .paused reason requestId).ensures activeKey raise
      (fun _ rows audit => Pausing b versionId version left rows audit) rows audit := by
  obtain ⟨hother, hactive, hne⟩ := h.active other List.mem_cons_self
  have hdistinct := List.nodup_cons.mp h.distinct
  apply moveVersion_ensures
  intro found row hfound hrow
  rw [hother] at hfound
  cases hfound
  have hmove : Move ⟨rows, audit⟩
      { rows := rows.set .versions other.1 (setStatus .paused other.2), audit := audit ++ [row] } := by
    refine .restatus other.1 other.2 .paused row hother ?_ (hactive ▸ hrow) (fun h => nomatch h)
      fun h => nomatch h
    rw [hactive]
    decide
  have hsame : ∀ id, id ≠ other.1 →
      (rows.set .versions other.1 (setStatus .paused other.2)).get? .versions id =
        rows.get? .versions id := fun id hid => Store.get?_set_of_ne (.inr hid)
  constructor
  · exact h.moves.tail hmove
  · exact hdistinct.2
  · intro o ho
    have hid : o.1 ≠ other.1 := by
      intro heq
      exact hdistinct.1 (heq ▸ List.mem_map_of_mem ho)
    rw [hsame o.1 hid]
    exact h.active o (List.mem_cons_of_mem _ ho)
  · intro id found hfound hstrategy hstatus hid
    by_cases heq : id = other.1
    · subst heq
      rw [Store.get?_set_self] at hfound
      cases hfound
      cases hstatus
    · rw [hsame id heq] at hfound
      exact (List.mem_cons.mp (h.others id found hfound hstrategy hstatus hid)).resolve_left heq
  · rw [hsame versionId (Ne.symm hne)]
    exact h.target
  · intro id
    rw [get?_approvals_set_version]
    exact h.approvals id

theorem activateVersion_moves {versionId approvalId actor : String} {version : StrategyVersion}
    {note : Option String} (hkeys : (Dict.keys (rows .versions)).Nodup)
    (hversion : rows.get? .versions versionId = some version) (hopen : version.status ≠ .retired)
    {approval : ApprovalRequest} (happroval : rows.get? .approvals approvalId = some approval)
    (hfour : approval.FourEyes versionId) :
    (activateVersion versionId version approvalId actor note).ensures activeKey raise
      (fun _ rows' audit' => Relation.ReflTransGen Move ⟨rows, audit⟩ ⟨rows', audit'⟩) rows audit := by
  unfold activateVersion
  apply ensures_bind
  apply ensures_findAll
  generalize hothers : (rows .versions).filter _ = others
  have hmem : ∀ o, o ∈ others ↔ o ∈ rows .versions ∧ o.2.strategyId = version.strategyId ∧
      o.2.status = .active ∧ o.1 ≠ versionId := by
    intro o
    rw [← hothers, List.mem_filter, decide_eq_true_eq]
  have hstart : Pausing ⟨rows, audit⟩ versionId version others rows audit := by
    constructor
    · exact .refl
    · rw [← hothers]
      exact hkeys.sublist (List.filter_sublist.map Prod.fst)
    · intro o ho
      obtain ⟨hrow, -, hactive, hne⟩ := (hmem o).mp ho
      exact ⟨Dict.get?_of_mem hkeys hrow, hactive, hne⟩
    · intro id found hfound hstrategy hactive hid
      have hrow : (id, found) ∈ rows .versions := Dict.mem_of_get? hfound
      exact List.mem_map_of_mem (f := Prod.fst) ((hmem (id, found)).mpr ⟨hrow, hstrategy, hactive, hid⟩)
    · exact hversion
    · exact fun _ => rfl
  apply ensures_bind
  refine ensures_mono (ensures_forM (fun _ _ _ _ h => h.round) hstart) ?_
  intro _ rows' audit' h
  apply ensures_bind
  apply moveVersion_ensures
  intro found row hfound hrow
  rw [h.target] at hfound
  cases hfound
  apply ensures_pure
  refine h.moves.tail (.restatus versionId version .active row h.target hopen hrow ?_ ?_)
  · intro _
    refine ⟨approvalId, approval, ?_, hfour⟩
    exact (h.approvals approvalId).trans happroval
  · intro _ id found hfound hstrategy hactive
    by_contra hne
    exact List.not_mem_nil (h.others id found hfound hstrategy hactive hne)

theorem reviewDeployApproval_moves (input : ReviewApprovalInput) (reviewedAt : ℤ)
    (hkeys : (Dict.keys (rows .versions)).Nodup) :
    (reviewDeployApproval input reviewedAt).ensures activeKey raise
      (fun _ rows' audit' => Relation.ReflTransGen Move ⟨rows, audit⟩ ⟨rows', audit'⟩) rows audit := by
  unfold reviewDeployApproval
  apply ensures_bind
  apply ensures_ofExcept
  intro action _
  apply ensures_bind
  apply ensures_ofExcept
  intro actor _
  apply ensures_bind
  apply ensures_ofExcept
  intro note _
  apply ensures_bind
  apply reviewableApproval_ensures
  intro approval happroval hpending hkind htype hactor
  apply ensures_bind
  apply reviewableVersion_ensures
  intro version hversion hreviewable
  apply ensures_bind
  apply decideApproval_ensures
  intro found row hfound hother
  rw [happroval] at hfound
  cases hfound
  have hkept : approval.Kept (setDecision action actor note reviewedAt approval) :=
    ⟨rfl, rfl, rfl, rfl, fun hdecided => absurd hpending hdecided⟩
  have hdecide := Relation.ReflTransGen.single
    (Move.decide (b := ⟨rows, audit⟩) input.approvalId approval _ row happroval hkept hother)
  cases action with
  | reject => exact ensures_pure hdecide
  | approve =>
      apply ensures_bind
      refine ensures_mono (activateVersion_moves ?_ ?_ ?_ Store.get?_set_self ?_) ?_
      · rw [Store.set_of_ne (by decide)]
        exact hkeys
      · rw [get?_versions_set_approval]
        exact hversion
      · rcases hreviewable with hstatus | hstatus
        · rw [hstatus]
          decide
        · rw [hstatus]
          decide
      · exact ⟨hkind, htype, rfl, rfl, actor, rfl, Ne.symm hactor⟩
      · intro _ rows' audit' hactivate
        exact ensures_pure (hdecide.trans hactivate)

theorem retireStrategyVersion_moves (input : RetireVersionInput) :
    (retireStrategyVersion input).ensures activeKey raise
      (fun _ rows' audit' => Relation.ReflTransGen Move ⟨rows, audit⟩ ⟨rows', audit'⟩) rows audit := by
  unfold retireStrategyVersion
  apply ensures_bind
  apply ensures_ofExcept
  intro actor _
  apply ensures_bind
  apply ensures_ofExcept
  intro reason _
  apply ensures_bind
  apply ensures_findUnique
  cases hversion : rows.get? .versions input.versionId with
  | none => exact ensures_fail
  | some version =>
      apply ensures_bind
      apply ensures_failIf
      intro hopen
      apply ensures_bind
      apply moveVersion_ensures
      intro found row hfound hrow
      rw [hversion] at hfound
      cases hfound
      apply ensures_pure
      apply Relation.ReflTransGen.single
      exact .restatus input.versionId version .retired row hversion hopen hrow (fun h => nomatch h)
        fun h => nomatch h

theorem request_moves (request : Request) (hkeys : (Dict.keys (rows .versions)).Nodup) :
    request.program.ensures activeKey raise
      (fun _ rows' audit' => Relation.ReflTransGen Move ⟨rows, audit⟩ ⟨rows', audit'⟩) rows audit := by
  cases request with
  | review input reviewedAt =>
      apply ensures_bind
      refine ensures_mono (reviewDeployApproval_moves input reviewedAt hkeys) ?_
      exact fun _ _ _ hmoves => ensures_pure hmoves
  | retire input =>
      apply ensures_bind
      refine ensures_mono (retireStrategyVersion_moves input) ?_
      exact fun _ _ _ hmoves => ensures_pure hmoves

end Requests

/-! ## Runs -/

/-- A call that throws leaves every table as it was. -/
theorem callStep_of_error {db : Tables} {call : Call} {e : GovernanceError}
    (h : call.run db = .error e) : callStep db call = db := by
  rw [callStep, h]

/-- A call on sound books makes moves of governance. -/
theorem callStep_moves {db : Tables} (call : Call) (hdb : db.books.Sound) :
    Relation.ReflTransGen Move db.books (callStep db call).books := by
  unfold callStep
  split
  · rename_i r hrun
    cases call with
    | register input ids =>
        obtain ⟨registered, hregister, rfl⟩ := map_eq_ok.mp hrun
        exact registerStrategyVersion_moves hdb hregister
    | action request target =>
        obtain ⟨c, hexec, rfl⟩ := map_eq_ok.mp hrun
        exact request_moves request hdb.keys c hexec
  · exact .refl

theorem empty_sound : Tables.empty.books.Sound where
  keys := List.nodup_nil
  numbered _ := rfl
  single _ _ _ _ h := nomatch h
  approved _ _ h := nomatch h
  audited _ _ h := nomatch h
  unaudited _ _ := rfl

/-- The discipline of governance between two moments of a serial run. -/
structure Upheld (before after : Tables) : Prop where
  single : ∀ id id' version version', after.rows.get? .versions id = some version →
    after.rows.get? .versions id' = some version' → version.strategyId = version'.strategyId →
      version.status = .active → version'.status = .active → id = id'
  approved : ∀ id version, before.rows.get? .versions id = some version → version.status = .active →
    ∃ approvalId approval, after.rows.get? .approvals approvalId = some approval ∧
      approval.FourEyes id
  numbered : ∀ strategyId, (versionsOf after.rows strategyId).map Prod.snd =
    List.range' 1 (versionsOf after.rows strategyId).length
  created : ∀ strategyId, versionsOf before.rows strategyId <+: versionsOf after.rows strategyId
  retired : ∀ id version, before.rows.get? .versions id = some version → version.status = .retired →
    after.rows.get? .versions id = some version
  decided : ∀ id approval, before.rows.get? .approvals id = some approval →
    approval.status ≠ .pending → after.rows.get? .approvals id = some approval
  audited : ∀ id version, after.rows.get? .versions id = some version →
    replay (auditOf after.audit id) = some version.status.text
  thrown : ∀ call e, call.run after = .error e → callStep after call = after

/-- From the empty database on, whatever calls are made: one active version of a strategy at most,
every version that is or was active approved by another than its requester, versions numbered in the
order of their creation, retirements and decisions final, the audit log of every version without a
gap, and no trace of a call that throws. -/
theorem serial_runs_upheld (early late : List Call) :
    Upheld (run callStep .empty early) (run callStep .empty (early ++ late)) := by
  have hstep : ∀ (db : Tables) (call : Call), db.books.Sound → (callStep db call).books.Sound :=
    fun db call hdb => Moves.sound (callStep_moves call hdb) hdb
  have hsound : ∀ calls, (run callStep .empty calls).books.Sound := by
    intro calls
    induction calls using List.reverseRecOn with
    | nil => exact empty_sound
    | append_singleton calls call ih =>
        rw [run_append]
        exact hstep _ call ih
  have honward : (run callStep .empty early).books.Onward
      (run callStep .empty (early ++ late)).books := by
    induction late using List.reverseRecOn with
    | nil =>
        rw [List.append_nil]
        exact .refl _
    | append_singleton late call ih =>
        rw [← List.append_assoc, run_append]
        exact ih.trans (Moves.onward (callStep_moves call (hsound _)))
  have hafter := hsound (early ++ late)
  constructor
  · exact hafter.single
  · intro id version hversion hactive
    obtain ⟨approvalId, approval, happroval, hfour⟩ :=
      (hsound early).approved id version hversion hactive
    obtain ⟨later, hlater, hkept⟩ := honward.evolves .approvals approvalId approval happroval
    have hdecided : approval.status ≠ .pending := by
      rw [hfour.status]
      decide
    have hsame : later = approval := ApprovalRequest.Kept.decided hkept hdecided
    exact ⟨approvalId, later, hlater, hsame ▸ hfour⟩
  · exact hafter.numbered
  · exact honward.created
  · intro id version hversion hretired
    obtain ⟨later, hlater, hkept⟩ := honward.evolves .versions id version hversion
    have hkept : StrategyVersion.Kept version later := hkept
    have hsame : later = version := by
      cases later
      cases version
      cases hkept.strategyId
      cases hkept.version
      cases hretired
      cases hkept.retired rfl
      rfl
    exact hsame ▸ hlater
  · intro id approval happroval hdecided
    obtain ⟨later, hlater, hkept⟩ := honward.evolves .approvals id approval happroval
    have hsame : later = approval := ApprovalRequest.Kept.decided hkept hdecided
    exact hsame ▸ hlater
  · exact hafter.audited
  · exact fun call e h => callStep_of_error h

end NexusQuant.Governance
