import NexusQuant.Lib.Slots
import NexusQuant.Web.OpsAlerts

/-!
# Alerts after overlapping calls

When no call is in flight, the ACTIVE rows are of the rules that fired in the latest snapshot, unless a
call with an older snapshot created a rule the latest call had found silent, or resolved one that the
latest call had already updated.  Listing the ACTIVE rows and resolving them are two statements, so
the second of these can happen to a row that was written in between.
-/

namespace NexusQuant.Web

open Run

/-! ## What the latest call has done -/

/-- The rules that a call has still to update or create. -/
def AlertStage.pending : AlertStage → List String
  | .update f rest => f.ruleId :: rest.map FiringRule.ruleId
  | .create f rest => f.ruleId :: rest.map FiringRule.ruleId
  | .fallback _ rest => rest.map FiringRule.ruleId
  | _ => []

/-- The ACTIVE rows have been listed. -/
def AlertStage.listed : AlertStage → Bool
  | .resolve _ => true
  | .readBack => true
  | _ => false

namespace AlertState

def activeRules (s : AlertState) : List String := s.table.keys

/-- The rules that fired in the latest snapshot. -/
def fired (s : AlertState) : List String :=
  (s.evaluations.getLast?.getD []).map FiringRule.ruleId

def IsLatest (s : AlertState) (c : AlertCall) : Prop := c.seq + 1 = s.evaluations.length

instance (s : AlertState) : DecidablePred s.IsLatest :=
  fun c => inferInstanceAs (Decidable (c.seq + 1 = s.evaluations.length))

/-- A rule of the latest snapshot that its call has updated or created. -/
def Settled (s : AlertState) (ruleId : String) : Prop :=
  ruleId ∈ s.fired ∧ ∀ c ∈ s.calls, s.IsLatest c → ruleId ∉ c.stage.pending

instance (s : AlertState) : DecidablePred s.Settled :=
  fun ruleId => inferInstanceAs (Decidable (ruleId ∈ s.fired ∧ ∀ c ∈ s.calls, _))

/-- The call of the latest snapshot has listed the ACTIVE rows. -/
def Listed (s : AlertState) : Prop :=
  s.evaluations ≠ [] ∧ ∀ c ∈ s.calls, s.IsLatest c → c.stage.listed = true

instance (s : AlertState) : Decidable s.Listed :=
  inferInstanceAs (Decidable (s.evaluations ≠ [] ∧ ∀ c ∈ s.calls, _))

/-- A statement that undoes nothing of the latest call: it creates no rule that is silent in the
latest snapshot once the ACTIVE rows are listed, and resolves no rule that is settled. -/
def Harmless (s : AlertState) : AlertStage → Prop
  | .create f _ => s.Listed → f.ruleId ∈ s.fired ∨ f.ruleId ∈ s.activeRules
  | .resolve ids => ∀ row ∈ s.table.rows, row.id ∈ ids → row.status = .active → ¬s.Settled row.ruleId
  | _ => True

instance (s : AlertState) : DecidablePred s.Harmless
  | .update _ _ => inferInstanceAs (Decidable True)
  | .create f _ => inferInstanceAs (Decidable (s.Listed → f.ruleId ∈ s.fired ∨ _))
  | .fallback _ _ => inferInstanceAs (Decidable True)
  | .list => inferInstanceAs (Decidable True)
  | .resolve ids => inferInstanceAs (Decidable (∀ row ∈ s.table.rows, row.id ∈ ids → _))
  | .readBack => inferInstanceAs (Decidable True)

/-- The statements of the calls with older snapshots are harmless. -/
def Undisturbed (s : AlertState) : AlertStep → Prop
  | .evaluate _ _ => True
  | .statement i => ∀ c ∈ s.calls[i]?, ¬s.IsLatest c → s.Harmless c.stage

instance (s : AlertState) : DecidablePred s.Undisturbed
  | .evaluate _ _ => inferInstanceAs (Decidable True)
  | .statement i => inferInstanceAs (Decidable (∀ c ∈ s.calls[i]?, _))

/-- With no call in flight, the ACTIVE rows are of the rules that fired in the latest snapshot. -/
def Converged (s : AlertState) : Prop :=
  s.calls = [] → ∀ firing ∈ s.evaluations.getLast?,
    ∀ ruleId, ruleId ∈ s.activeRules ↔ ruleId ∈ firing.map FiringRule.ruleId

structure Reconciling (s : AlertState) : Prop where
  distinct : (s.calls.map AlertCall.seq).Nodup
  begun : ∀ c ∈ s.calls, s.evaluations[c.seq]? = some c.firing
  targets : ∀ c ∈ s.calls, ∀ ids, c.stage = .resolve ids → ∀ n ∈ ids, n < s.table.next ∧
    ∀ row ∈ s.table.rows, row.id = n → row.ruleId ∉ c.firing.map FiringRule.ruleId
  settled : ∀ ruleId, s.Settled ruleId → ruleId ∈ s.activeRules
  listed : s.Listed → ∀ row ∈ s.table.rows, row.status = .active → row.ruleId ∉ s.fired →
    ∃ c ∈ s.calls, s.IsLatest c ∧ ∃ ids, c.stage = .resolve ids ∧ row.id ∈ ids

/-! ## Rows -/

end AlertState

theorem activeRule_eq_some {row : OpsAlert} {ruleId : String} :
    row.activeRule = some ruleId ↔ row.status = .active ∧ row.ruleId = ruleId := by
  unfold OpsAlert.activeRule
  split
  · rename_i hactive
    rw [Option.some.injEq]
    exact ⟨fun h => ⟨hactive, h⟩, And.right⟩
  · rename_i hnot
    exact ⟨nofun, fun h => absurd h.1 hnot⟩

theorem mem_keys_iff {t : AlertTable} {ruleId : String} :
    ruleId ∈ t.keys ↔ ∃ row ∈ t.rows, row.status = .active ∧ row.ruleId = ruleId := by
  rw [IndexedTable.mem_keys]
  simp only [activeRule_eq_some]

theorem keys_bump (t : AlertTable) (f : FiringRule) (now : ℤ) : (t.bump f now).keys = t.keys :=
  IndexedTable.keys_updateMany fun _ => rfl

/-- An update bumps rows: none of them changes its number, its rule or its status. -/
theorem mem_bump {t : AlertTable} {f : FiringRule} {now : ℤ} {row : OpsAlert}
    (h : row ∈ (t.bump f now).rows) :
    ∃ row' ∈ t.rows, row'.id = row.id ∧ row'.ruleId = row.ruleId ∧ row'.status = row.status := by
  rcases IndexedTable.mem_updateMany.mp h with ⟨row', hrow', -, rfl⟩ | ⟨hrow, -⟩
  · exact ⟨row', hrow', rfl, rfl, rfl⟩
  · exact ⟨row, hrow, rfl, rfl, rfl⟩

theorem mem_keys_of_count {t : AlertTable} {ruleId : String}
    (h : t.rows.countP (OpsAlert.isActive ruleId) ≠ 0) : ruleId ∈ t.keys := by
  obtain ⟨row, hrow, hactive⟩ := List.countP_pos_iff.mp (Nat.pos_of_ne_zero h)
  have := of_decide_eq_true hactive
  exact mem_keys_iff.mpr ⟨row, hrow, this.2, this.1⟩

/-- The row that a creation adds is the ACTIVE one of its rule. -/
theorem mem_createActive {t t' : AlertTable} {f : FiringRule} {now : ℤ}
    (h : t.createActive f now = some t') {row : OpsAlert} (hrow : row ∈ t'.rows) :
    row ∈ t.rows ∨ (row.id = t.next ∧ row.ruleId = f.ruleId) := by
  rw [(IndexedTable.create_eq_some h).1] at hrow
  rcases List.mem_append.mp hrow with hold | hnew
  · exact .inl hold
  · rw [List.mem_singleton.mp hnew]
    exact .inr ⟨rfl, rfl⟩

theorem mem_keys_createActive {t t' : AlertTable} {f : FiringRule} {now : ℤ}
    (h : t.createActive f now = some t') {ruleId : String} :
    ruleId ∈ t'.keys ↔ ruleId ∈ t.keys ∨ f.ruleId = ruleId := by
  rw [IndexedTable.mem_keys_create h, activeRule_eq_some]
  exact or_congr Iff.rfl (and_iff_right rfl)

/-- A row is resolved, or is what it was. -/
theorem mem_resolve {t : AlertTable} {ids : List ℕ} {now : ℤ} {row : OpsAlert} :
    row ∈ (t.resolve ids now).rows ↔
      (∃ row' ∈ t.rows, row'.id ∈ ids ∧ row'.resolve now = row) ∨ (row ∈ t.rows ∧ row.id ∉ ids) := by
  refine IndexedTable.mem_updateMany.trans (or_congr ?_ ?_)
  · simp only [decide_eq_true_eq]
  · simp only [decide_eq_false_iff_not]

theorem mem_toResolve {t : AlertTable} {firing : List FiringRule} {n : ℕ} :
    n ∈ t.toResolve firing ↔ ∃ row ∈ t.rows, row.status = .active ∧
      row.ruleId ∉ firing.map FiringRule.ruleId ∧ row.id = n := by
  unfold AlertTable.toResolve
  rw [List.mem_map]
  simp only [List.mem_filter, decide_eq_true_eq, and_assoc]

/-! ## What a statement leaves of the latest call -/

namespace AlertState

variable {s s' : AlertState} {c : AlertCall} {i : ℕ} {ruleId : String} {table : AlertTable}
  {stage : AlertStage}

/-- What a statement does to the rows: it keeps the number and the rule of each, and numbers new ones
on from the last. -/
def Extends (t t' : AlertTable) : Prop :=
  t.next ≤ t'.next ∧ ∀ row ∈ t'.rows,
    (∃ row' ∈ t.rows, row'.id = row.id ∧ row'.ruleId = row.ruleId) ∨ t.next ≤ row.id

theorem extends_refl (t : AlertTable) : Extends t t :=
  ⟨Nat.le_refl _, fun row hrow => .inl ⟨row, hrow, rfl, rfl⟩⟩

theorem extends_bump (t : AlertTable) (f : FiringRule) (now : ℤ) : Extends t (t.bump f now) := by
  refine ⟨Nat.le_refl _, fun row hrow => ?_⟩
  obtain ⟨row', hrow', hid, hrule, -⟩ := mem_bump hrow
  exact .inl ⟨row', hrow', hid, hrule⟩

theorem extends_resolve (t : AlertTable) (ids : List ℕ) (now : ℤ) :
    Extends t (t.resolve ids now) := by
  refine ⟨Nat.le_refl _, fun row hrow => .inl ?_⟩
  rcases mem_resolve.mp hrow with ⟨row', hrow', -, rfl⟩ | ⟨hold, -⟩
  · exact ⟨row', hrow', rfl, rfl⟩
  · exact ⟨row, hold, rfl, rfl⟩

theorem extends_createActive {t t' : AlertTable} {f : FiringRule} {now : ℤ}
    (h : t.createActive f now = some t') : Extends t t' := by
  refine ⟨(IndexedTable.create_eq_some h).2 ▸ Nat.le_succ _, fun row hrow => ?_⟩
  rcases mem_createActive h hrow with hold | ⟨hid, -⟩
  · exact .inl ⟨row, hold, rfl, rfl⟩
  · exact .inr (Nat.le_of_eq hid.symm)

/-- Two calls do not have one snapshot. -/
theorem Reconciling.eq_of_latest (h : s.Reconciling) {d : AlertCall} (hc : c ∈ s.calls)
    (hd : d ∈ s.calls) (hlatest : s.IsLatest c) (hlatest' : s.IsLatest d) : d = c := by
  apply List.inj_on_of_nodup_map h.distinct hd hc
  unfold IsLatest at hlatest hlatest'
  omega

theorem Reconciling.fired_eq (h : s.Reconciling) (hc : c ∈ s.calls) (hlatest : s.IsLatest c) :
    s.fired = c.firing.map FiringRule.ruleId := by
  have hlast : s.evaluations.getLast? = some c.firing := by
    rw [List.getLast?_eq_getElem?, ← hlatest]
    exact h.begun c hc
  unfold fired
  rw [hlast]
  rfl

theorem Reconciling.settled_of_latest (h : s.Reconciling) (hc : c ∈ s.calls)
    (hlatest : s.IsLatest c) (hfired : ruleId ∈ s.fired) (hdone : ruleId ∉ c.stage.pending) :
    s.Settled ruleId := by
  refine ⟨hfired, fun d hd hlatest' => ?_⟩
  rw [h.eq_of_latest hc hd hlatest hlatest']
  exact hdone

theorem Reconciling.listed_of_latest (h : s.Reconciling) (hc : c ∈ s.calls)
    (hlatest : s.IsLatest c) (hlisted : c.stage.listed = true) : s.Listed := by
  constructor
  · intro hnil
    unfold IsLatest at hlatest
    rw [hnil] at hlatest
    exact Nat.succ_ne_zero _ hlatest
  · intro d hd hlatest'
    rw [h.eq_of_latest hc hd hlatest hlatest']
    exact hlisted

theorem pending_loop (firing : List FiringRule) :
    (AlertStage.loop firing).pending = firing.map FiringRule.ruleId := by
  cases firing <;> rfl

theorem listed_loop (firing : List FiringRule) : (AlertStage.loop firing).listed = false := by
  cases firing <;> rfl

/-! A statement of an older call: the latest call stays where it is. -/

section Older

variable (hold : ¬s.IsLatest c) (heval : s'.evaluations = s.evaluations)
  (hrest : ∀ d ∈ s.calls, d = c ∨ d ∈ s'.calls)

include hold heval hrest

theorem mem_of_latest {d : AlertCall} (hd : d ∈ s.calls) (hlatest : s.IsLatest d) :
    d ∈ s'.calls ∧ s'.IsLatest d := by
  have hlatest' : s'.IsLatest d := by
    unfold IsLatest
    rw [heval]
    exact hlatest
  rcases hrest d hd with rfl | hmem
  · exact absurd hlatest hold
  · exact ⟨hmem, hlatest'⟩

theorem settled_of_older (h : s'.Settled ruleId) : s.Settled ruleId := by
  have hfired : ruleId ∈ s.fired := by
    have := h.1
    unfold fired at this ⊢
    rwa [heval] at this
  refine ⟨hfired, fun d hd hlatest => ?_⟩
  have hd' := mem_of_latest hold heval hrest hd hlatest
  exact h.2 d hd'.1 hd'.2

theorem listed_of_older (h : s'.Listed) : s.Listed := by
  refine ⟨heval ▸ h.1, fun d hd hlatest => ?_⟩
  have hd' := mem_of_latest hold heval hrest hd hlatest
  exact h.2 d hd'.1 hd'.2

end Older

/-! ## Statements -/

/-- A statement of the call at position `i`, from what it does to the rows and to its own call. -/
theorem Reconciling.put (h : s.Reconciling) (hget : s.calls[i]? = some c)
    (hext : Extends s.table table)
    (htargets : ∀ ids, stage = .resolve ids → ∀ n ∈ ids, n < table.next ∧
      ∀ row ∈ table.rows, row.id = n → row.ruleId ∉ c.firing.map FiringRule.ruleId)
    (hsettled : ∀ ruleId, (s.put i c table stage).Settled ruleId → ruleId ∈ table.keys)
    (hlisted : (s.put i c table stage).Listed → ∀ row ∈ table.rows, row.status = .active →
      row.ruleId ∉ s.fired → ∃ d ∈ s.calls.set i { c with stage }, s.IsLatest d ∧
        ∃ ids, d.stage = .resolve ids ∧ row.id ∈ ids) :
    (s.put i c table stage).Reconciling := by
  have hmem := List.mem_of_getElem? hget
  constructor
  · show ((s.calls.set i { c with stage }).map AlertCall.seq).Nodup
    have hsame : (s.calls.set i { c with stage }).map AlertCall.seq = s.calls.map AlertCall.seq :=
      Slots.map_set hget rfl
    rw [hsame]
    exact h.distinct
  · intro d hd
    rcases List.mem_or_eq_of_mem_set hd with hold | rfl
    · exact h.begun d hold
    · exact h.begun c hmem
  · intro d hd
    rcases List.mem_or_eq_of_mem_set hd with hold | rfl
    · intro ids hids n hn
      obtain ⟨hlt, hrule⟩ := h.targets d hold ids hids n hn
      refine ⟨Nat.lt_of_lt_of_le hlt hext.1, fun row hrow hid => ?_⟩
      -- A row with a number that was listed is one of the rows of then.
      rcases hext.2 row hrow with ⟨row', hrow', hid', hrule'⟩ | hnew
      · rw [← hrule']
        exact hrule row' hrow' (hid'.trans hid)
      · omega
    · exact htargets
  · exact hsettled
  · exact hlisted

variable (h : s.Reconciling) (hget : s.calls[i]? = some c)

include h hget

/-- A statement that leaves the rows ACTIVE as they are, of a call that has not listed them. -/
theorem Reconciling.put_upsert (hext : Extends s.table table)
    (hkeys : ∀ ruleId ∈ s.table.keys, ruleId ∈ table.keys)
    (hstage : stage.listed = false)
    (hdone : ∀ ruleId ∈ c.stage.pending, ruleId ∉ stage.pending → ruleId ∈ table.keys)
    (hrows : ¬s.IsLatest c → s.Listed → ∀ row ∈ table.rows, row.status = .active →
      row.ruleId ∉ s.fired → ∃ row' ∈ s.table.rows, row'.id = row.id ∧
        row'.ruleId = row.ruleId ∧ row'.status = row.status) :
    (s.put i c table stage).Reconciling := by
  have hmem := List.mem_of_getElem? hget
  have hrest : ∀ d ∈ s.calls, d = c ∨ d ∈ (s.put i c table stage).calls :=
    fun d hd => Slots.eq_or_mem_set hget hd
  have hself : { c with stage } ∈ (s.put i c table stage).calls := Slots.mem_set_self hget
  have heval : (s.put i c table stage).evaluations = s.evaluations := rfl
  apply h.put hget hext
  · intro ids hids
    rw [hids] at hstage
    cases hstage
  · intro ruleId hsettled
    by_cases hlatest : s.IsLatest c
    · by_cases hbefore : ruleId ∈ c.stage.pending
      · exact hdone ruleId hbefore (hsettled.2 _ hself hlatest)
      · exact hkeys ruleId (h.settled ruleId
          (h.settled_of_latest hmem hlatest hsettled.1 hbefore))
    · exact hkeys ruleId (h.settled ruleId (settled_of_older hlatest heval hrest hsettled))
  · intro hlisted row hrow hactive hsilent
    by_cases hlatest : s.IsLatest c
    · -- The latest call has not listed anything yet.
      have := hlisted.2 _ hself hlatest
      rw [hstage] at this
      cases this
    · have hbefore := listed_of_older hlatest heval hrest hlisted
      obtain ⟨row', hrow', hid, hrule, hstatus⟩ := hrows hlatest hbefore row hrow hactive hsilent
      obtain ⟨d, hd, hlatest', ids, hids, hn⟩ := h.listed hbefore row' hrow'
        (hstatus.trans hactive) (hrule ▸ hsilent)
      have hd' := mem_of_latest hlatest heval hrest hd hlatest'
      exact ⟨d, hd'.1, hlatest', ids, hids, hid ▸ hn⟩

theorem Reconciling.put_list (hstage : c.stage = .list)
    (hnext : stage = if s.table.toResolve c.firing = [] then .readBack
      else .resolve (s.table.toResolve c.firing)) : (s.put i c s.table stage).Reconciling := by
  have hmem := List.mem_of_getElem? hget
  have hrest : ∀ d ∈ s.calls, d = c ∨ d ∈ (s.put i c s.table stage).calls :=
    fun d hd => Slots.eq_or_mem_set hget hd
  have heval : (s.put i c s.table stage).evaluations = s.evaluations := rfl
  apply h.put hget (extends_refl s.table)
  · intro ids hids n hn
    rw [hnext] at hids
    split at hids
    · cases hids
    · cases hids
      obtain ⟨row, hrow, -, hrule, rfl⟩ := mem_toResolve.mp hn
      refine ⟨s.table.numbered row hrow, fun row' hrow' hid => ?_⟩
      rw [IndexedTable.eq_of_id hrow' hrow hid]
      exact hrule
  · intro ruleId hsettled
    by_cases hlatest : s.IsLatest c
    · apply h.settled ruleId
      apply h.settled_of_latest hmem hlatest hsettled.1
      rw [hstage]
      exact List.not_mem_nil
    · exact h.settled ruleId (settled_of_older hlatest heval hrest hsettled)
  · intro hlisted row hrow hactive hsilent
    by_cases hlatest : s.IsLatest c
    · -- The rows that are ACTIVE and silent are the ones to resolve.
      have hin : row.id ∈ s.table.toResolve c.firing := by
        rw [h.fired_eq hmem hlatest] at hsilent
        exact mem_toResolve.mpr ⟨row, hrow, hactive, hsilent, rfl⟩
      have hne : s.table.toResolve c.firing ≠ [] := List.ne_nil_of_mem hin
      exact ⟨_, Slots.mem_set_self hget, hlatest, _, hnext.trans (if_neg hne), hin⟩
    · have hbefore := listed_of_older hlatest heval hrest hlisted
      obtain ⟨d, hd, hlatest', hrow'⟩ := h.listed hbefore row hrow hactive hsilent
      have hd' := mem_of_latest hlatest heval hrest hd hlatest'
      exact ⟨d, hd'.1, hlatest', hrow'⟩

theorem Reconciling.put_resolve {ids : List ℕ} (hstage : c.stage = .resolve ids)
    (hharmless : ¬s.IsLatest c → s.Harmless c.stage) :
    (s.put i c (s.table.resolve ids c.now) .readBack).Reconciling := by
  have hmem := List.mem_of_getElem? hget
  have hrest : ∀ d ∈ s.calls,
      d = c ∨ d ∈ (s.put i c (s.table.resolve ids c.now) .readBack).calls :=
    fun d hd => Slots.eq_or_mem_set hget hd
  have heval : (s.put i c (s.table.resolve ids c.now) .readBack).evaluations = s.evaluations := rfl
  apply h.put hget (extends_resolve s.table ids c.now)
  · exact nofun
  · intro ruleId hsettled
    have hbefore : s.Settled ruleId := by
      by_cases hlatest : s.IsLatest c
      · apply h.settled_of_latest hmem hlatest hsettled.1
        rw [hstage]
        exact List.not_mem_nil
      · exact settled_of_older hlatest heval hrest hsettled
    obtain ⟨row, hrow, hactive, rfl⟩ := mem_keys_iff.mp (h.settled ruleId hbefore)
    -- The ACTIVE row of a settled rule is not among those to resolve.
    have hkept : row.id ∉ ids := by
      intro hin
      by_cases hlatest : s.IsLatest c
      · apply (h.targets c hmem ids hstage row.id hin).2 row hrow rfl
        rw [← h.fired_eq hmem hlatest]
        exact hbefore.1
      · have := hharmless hlatest
        rw [hstage] at this
        exact this row hrow hin hactive hbefore
    exact mem_keys_iff.mpr ⟨row, mem_resolve.mpr (.inr ⟨hrow, hkept⟩), hactive, rfl⟩
  · intro hlisted row hrow hactive hsilent
    rcases mem_resolve.mp hrow with ⟨row', -, -, rfl⟩ | ⟨hold, hkept⟩
    · cases hactive
    · by_cases hlatest : s.IsLatest c
      · have hbefore : s.Listed := h.listed_of_latest hmem hlatest (by rw [hstage]; rfl)
        obtain ⟨d, hd, hlatest', ids', hids', hin⟩ := h.listed hbefore row hold hactive hsilent
        rw [h.eq_of_latest hmem hd hlatest hlatest', hstage] at hids'
        cases hids'
        exact absurd hin hkept
      · have hbefore := listed_of_older hlatest heval hrest hlisted
        obtain ⟨d, hd, hlatest', hrow'⟩ := h.listed hbefore row hold hactive hsilent
        have hd' := mem_of_latest hlatest heval hrest hd hlatest'
        exact ⟨d, hd'.1, hlatest', hrow'⟩

theorem Reconciling.finish (hstage : c.stage = .readBack) (summary : AlertsSummary) :
    (s.finish i summary).Reconciling := by
  have hmem := List.mem_of_getElem? hget
  have hrest : ∀ d ∈ s.calls, d = c ∨ d ∈ (s.finish i summary).calls :=
    fun d hd => Slots.eq_or_mem_eraseIdx hget hd
  have heval : (s.finish i summary).evaluations = s.evaluations := rfl
  constructor
  · exact h.distinct.sublist ((List.eraseIdx_sublist s.calls i).map AlertCall.seq)
  · exact fun d hd => h.begun d (List.mem_of_mem_eraseIdx hd)
  · exact fun d hd => h.targets d (List.mem_of_mem_eraseIdx hd)
  · intro ruleId hsettled
    apply h.settled ruleId
    by_cases hlatest : s.IsLatest c
    · apply h.settled_of_latest hmem hlatest hsettled.1
      rw [hstage]
      exact List.not_mem_nil
    · exact settled_of_older hlatest heval hrest hsettled
  · intro hlisted row hrow hactive hsilent
    by_cases hlatest : s.IsLatest c
    · have hbefore : s.Listed := h.listed_of_latest hmem hlatest (by rw [hstage]; rfl)
      obtain ⟨d, hd, hlatest', ids, hids, -⟩ := h.listed hbefore row hrow hactive hsilent
      rw [h.eq_of_latest hmem hd hlatest hlatest', hstage] at hids
      cases hids
    · have hbefore := listed_of_older hlatest heval hrest hlisted
      obtain ⟨d, hd, hlatest', hrow'⟩ := h.listed hbefore row hrow hactive hsilent
      have hd' := mem_of_latest hlatest heval hrest hd hlatest'
      exact ⟨d, hd'.1, hlatest', hrow'⟩

theorem Reconciling.put_update {f : FiringRule} {rest : List FiringRule}
    (hstage : c.stage = .update f rest)
    (hnext : stage = if s.table.rows.countP (OpsAlert.isActive f.ruleId) = 0 then .create f rest
      else .loop rest) : (s.put i c (s.table.bump f c.now) stage).Reconciling := by
  have hkeys := keys_bump s.table f c.now
  apply h.put_upsert hget (extends_bump s.table f c.now)
  · exact fun ruleId hruleId => hkeys ▸ hruleId
  · rw [hnext]
    split
    · rfl
    · exact listed_loop rest
  · rw [hnext, hstage, hkeys]
    intro ruleId hbefore hafter
    split at hafter
    · exact absurd hbefore hafter
    · rename_i hcount
      rw [pending_loop] at hafter
      rw [List.eq_or_mem_of_mem_cons hbefore |>.resolve_right hafter]
      exact mem_keys_of_count hcount
  · exact fun _ _ row hrow _ _ => mem_bump hrow

theorem Reconciling.put_fallback {f : FiringRule} {rest : List FiringRule}
    (hstage : c.stage = .fallback f rest) :
    (s.put i c (s.table.bump f c.now) (.loop rest)).Reconciling := by
  apply h.put_upsert hget (extends_bump s.table f c.now)
  · exact fun ruleId hruleId => keys_bump s.table f c.now ▸ hruleId
  · exact listed_loop rest
  · rw [hstage, pending_loop]
    exact fun ruleId hbefore hafter => absurd hbefore hafter
  · exact fun _ _ row hrow _ _ => mem_bump hrow

theorem Reconciling.put_created {f : FiringRule} {rest : List FiringRule}
    (hstage : c.stage = .create f rest) (hcreate : s.table.createActive f c.now = some table)
    (hharmless : ¬s.IsLatest c → s.Harmless c.stage) :
    (s.put i c table (.loop rest)).Reconciling := by
  apply h.put_upsert hget (extends_createActive hcreate)
  · exact fun ruleId hruleId => (mem_keys_createActive hcreate).mpr (.inl hruleId)
  · exact listed_loop rest
  · rw [hstage, pending_loop]
    intro ruleId hbefore hafter
    rw [List.eq_or_mem_of_mem_cons hbefore |>.resolve_right hafter]
    exact (mem_keys_createActive hcreate).mpr (.inr rfl)
  · intro hlatest hlisted row hrow hactive hsilent
    rcases mem_createActive hcreate hrow with hold | ⟨-, hrule⟩
    · exact ⟨row, hold, rfl, rfl, rfl⟩
    · -- A rule that is silent and not ACTIVE would be created after the list.
      have hok := hharmless hlatest
      rw [hstage] at hok
      rcases hok hlisted with hfired | htaken
      · exact absurd (hrule ▸ hfired) hsilent
      · have hfree := IndexedTable.not_mem_keys_of_create hcreate (activeRule_eq_some.mpr ⟨rfl, rfl⟩)
        exact absurd htaken hfree

theorem Reconciling.put_lost {f : FiringRule} {rest : List FiringRule}
    (hstage : c.stage = .create f rest) (hlost : s.table.createActive f c.now = none) :
    (s.put i c s.table (.fallback f rest)).Reconciling := by
  apply h.put_upsert hget (extends_refl s.table)
  · exact fun ruleId hruleId => hruleId
  · rfl
  · rw [hstage]
    intro ruleId hbefore hafter
    rw [List.eq_or_mem_of_mem_cons hbefore |>.resolve_right hafter]
    exact IndexedTable.mem_keys_of_create_eq_none hlost (activeRule_eq_some.mpr ⟨rfl, rfl⟩)
  · exact fun _ _ row hrow _ _ => ⟨row, hrow, rfl, rfl, rfl⟩

theorem Reconciling.statement (hharmless : ¬s.IsLatest c → s.Harmless c.stage) :
    (s.statement i c).Reconciling := by
  unfold AlertState.statement
  split
  · rename_i f rest hstage
    exact h.put_update hget hstage rfl
  · rename_i f rest hstage
    split
    · rename_i table hcreate
      exact h.put_created hget hstage hcreate hharmless
    · rename_i hlost
      exact h.put_lost hget hstage hlost
  · rename_i f rest hstage
    exact h.put_fallback hget hstage
  · rename_i hstage
    exact h.put_list hget hstage rfl
  · rename_i ids hstage
    exact h.put_resolve hget hstage hharmless
  · rename_i hstage
    exact h.finish hget hstage _

omit h hget

/-! ## Runs -/

theorem Reconciling.evaluate (h : s.Reconciling) (snapshot : AlertSnapshot) (now : ℤ) :
    (s.step (.evaluate snapshot now)).Reconciling := by
  have hlt : ∀ d ∈ s.calls, d.seq < s.evaluations.length :=
    fun d hd => (List.getElem?_eq_some_iff.mp (h.begun d hd)).1
  have hself : (⟨s.evaluations.length, evaluateAlertRules snapshot, now,
      .loop (evaluateAlertRules snapshot)⟩ : AlertCall) ∈ (s.step (.evaluate snapshot now)).calls :=
    List.mem_append_right s.calls List.mem_cons_self
  have hlatest : (s.step (.evaluate snapshot now)).IsLatest ⟨s.evaluations.length,
      evaluateAlertRules snapshot, now, .loop (evaluateAlertRules snapshot)⟩ := by
    show s.evaluations.length + 1 = (s.evaluations ++ [_]).length
    rw [List.length_append, List.length_singleton]
  constructor
  · show ((s.calls ++ [_]).map AlertCall.seq).Nodup
    rw [List.map_append]
    apply h.distinct.append (List.nodup_singleton _)
    intro n hold hnew
    obtain ⟨d, hd, rfl⟩ := List.mem_map.mp hold
    have := List.mem_singleton.mp hnew
    exact absurd this (Nat.ne_of_lt (hlt d hd))
  · intro d hd
    show (s.evaluations ++ [_])[d.seq]? = some d.firing
    rcases List.mem_append.mp hd with hold | hnew
    · rw [List.getElem?_append_left (hlt d hold)]
      exact h.begun d hold
    · rw [List.mem_singleton.mp hnew]
      exact List.getElem?_concat_length
  · intro d hd
    rcases List.mem_append.mp hd with hold | hnew
    · exact h.targets d hold
    · intro ids hids
      rw [List.mem_singleton.mp hnew] at hids
      have hlisted := listed_loop (evaluateAlertRules snapshot)
      rw [show AlertStage.loop _ = _ from hids] at hlisted
      cases hlisted
  · -- The new latest call has done nothing yet.
    intro ruleId hsettled
    have hdone := hsettled.2 _ hself hlatest
    rw [pending_loop] at hdone
    apply absurd _ hdone
    have hfired := hsettled.1
    unfold fired at hfired
    rw [show (s.step (.evaluate snapshot now)).evaluations = s.evaluations ++ [_] from rfl,
      List.getLast?_concat] at hfired
    exact hfired
  · intro hlisted
    have := hlisted.2 _ hself hlatest
    rw [listed_loop] at this
    cases this

theorem Reconciling.step (h : s.Reconciling) (step : AlertStep) (hok : s.Undisturbed step) :
    (s.step step).Reconciling := by
  cases step with
  | evaluate snapshot now => exact h.evaluate snapshot now
  | statement i =>
      cases hget : s.calls[i]? with
      | none =>
          simp only [AlertState.step, hget]
          exact h
      | some c =>
          simp only [AlertState.step, hget]
          exact h.statement hget (hok c hget)

theorem reconciling_initial (table : AlertTable) : (initial table).Reconciling := by
  constructor
  · exact List.nodup_nil
  · exact nofun
  · exact nofun
  · intro ruleId hsettled
    exact absurd hsettled.1 List.not_mem_nil
  · intro hlisted
    exact absurd rfl hlisted.1

theorem Reconciling.converged (h : s.Reconciling) : s.Converged := by
  intro hnone firing hfiring ruleId
  have hfired : s.fired = firing.map FiringRule.ruleId := by
    unfold fired
    rw [Option.mem_def.mp hfiring]
    rfl
  rw [← hfired]
  constructor
  · intro hactive
    by_contra hsilent
    obtain ⟨row, hrow, hstatus, rfl⟩ := mem_keys_iff.mp hactive
    have hlisted : s.Listed := by
      constructor
      · intro hnil
        rw [hnil] at hfiring
        cases hfiring
      · intro c hc
        rw [hnone] at hc
        cases hc
    obtain ⟨c, hc, -⟩ := h.listed hlisted row hrow hstatus hsilent
    rw [hnone] at hc
    cases hc
  · intro hin
    apply h.settled ruleId
    refine ⟨hin, fun c hc => ?_⟩
    rw [hnone] at hc
    cases hc

theorem Reconciling.run {steps : List AlertStep} (h : s.Reconciling)
    (hok : RunMeets AlertState.step Undisturbed s steps) :
    (Run.run AlertState.step s steps).Reconciling :=
  run_invariant (fun _ step hs hstep => hs.step step hstep) h hok

end AlertState

open AlertState

/-- No rule has two ACTIVE rows, whatever runs beside what; and where calls with older snapshots
disturb nothing that the latest one has done, the ACTIVE rows end up with what it found. -/
theorem alerts_converge (table : AlertTable) (steps : List AlertStep) :
    (run step (initial table) steps).activeRules.Nodup ∧
      (RunMeets step Undisturbed (initial table) steps →
        (run step (initial table) steps).Converged) := by
  constructor
  · exact (run step (initial table) steps).table.unique
  · intro hok
    exact ((reconciling_initial table).run hok).converged

def allWell : AlertSnapshot := ⟨⟨[]⟩, ⟨[]⟩⟩

def databaseDown : AlertSnapshot := ⟨⟨[⟨.database, .failing, "connection refused"⟩]⟩, ⟨[]⟩⟩

/-- Two calls overlap; the older one creates the row first, the newer one resolves it. -/
theorem alerts_converge_overlapping :
    (run step (initial .empty) [.evaluate databaseDown 0, .evaluate allWell 1, .statement 0,
      .statement 0, .statement 1, .statement 0, .statement 1, .statement 0, .statement 0]).Converged :=
  (alerts_converge .empty _).2 (by decide +kernel)

/-- The row of an alert is listed as silent by a call that saw the database up again; the database
fails, the next call finds the row ACTIVE, and the older call resolves it. -/
theorem alert_of_failing_database_resolved :
    let s := run step (initial .empty) [.evaluate databaseDown 0, .statement 0, .statement 0,
      .statement 0, .statement 0, .evaluate allWell 1, .statement 0, .evaluate databaseDown 2,
      .statement 1, .statement 1, .statement 1, .statement 0, .statement 0]
    s.calls = [] ∧ s.activeRules = [] ∧ s.fired = ["db.unreachable"] ∧ ¬s.Converged := by
  refine ⟨by decide +kernel, by decide +kernel, by decide +kernel, fun h => ?_⟩
  have hactive := (h (by decide +kernel) (evaluateAlertRules databaseDown) (by decide +kernel)
    "db.unreachable").mpr (by decide +kernel)
  revert hactive
  decide +kernel

end NexusQuant.Web
