import NexusQuant.Control.Worker

/-!
# The life of an incident

An incident is opened when a protection takes the runtime to PROTECTED and resolved on the way back to
HEALTHY, or by the operator's resume.  The way back is recognised by what the process remembers; a
process that was restarted with an incident open does not remember it, and its first nominal
evaluation is HEALTHY with the incident still open.  Everything else holds in every run, between any
two writes.
-/

namespace NexusQuant.Control

open Run

/-! ## The cases of a tick -/

inductive TickCase (plane : ControlPlane) (tick : Tick) : Prop where
  | killed (hkill : tick.inputs.killSwitch.engaged = true)
      (hprev : prevState plane tick = plane.lastState)
      (hnext : (nextState plane tick).state = .stopped)
  | active (hkill : tick.inputs.killSwitch.engaged = false)
      (hactive : 0 < (activeProtections tick.inputs).length)
      (hprev : prevState plane tick = plane.lastState)
      (hnext : (nextState plane tick).state = .protected)
  | verified (hkill : tick.inputs.killSwitch.engaged = false)
      (hclear : activeProtections tick.inputs = [])
      (hfrom : isProtected plane.lastState = true) (hprev : prevState plane tick = .recovering)
      (hnext : (nextState plane tick).state = .healthy)
  | held (hkill : tick.inputs.killSwitch.engaged = false)
      (hclear : activeProtections tick.inputs = [])
      (hfrom : isProtected plane.lastState = true) (hprev : prevState plane tick = .recovering)
      (hnext : (nextState plane tick).state = .protected)
      (haffected : (nextState plane tick).affectedComponents = [])
  | calm (hkill : tick.inputs.killSwitch.engaged = false)
      (hclear : activeProtections tick.inputs = [])
      (hfrom : isProtected plane.lastState = false)
      (hprev : prevState plane tick = plane.lastState)
      (hnext : (nextState plane tick).state =
        if isDegraded tick.inputs then .degraded else .healthy)

theorem tick_case {plane : ControlPlane} {tick : Tick} (hread : Readable plane) :
    TickCase plane tick := by
  by_cases hleaving : leaving plane tick
  · have hparts := hleaving
    simp only [leaving, Bool.and_eq_true, decide_eq_true_eq, Bool.not_eq_true'] at hparts
    obtain ⟨⟨hfrom, hclear⟩, hkill⟩ := hparts
    rw [List.length_eq_zero_iff] at hclear
    have hrecover : recover plane tick = runRecovery (enterRecovering plane) tick :=
      if_pos hleaving
    have hprev : prevState plane tick = .recovering := by
      unfold prevState
      rw [hrecover, (runRecovery_frame _ tick).2, enterRecovering_lastState hfrom]
    have hread' : Readable (enterRecovering plane) := by
      unfold Readable
      rw [enterRecovering_incidents]
      exact hread
    obtain ⟨-, -, ⟨htrue, -⟩ | ⟨hfalse, -⟩⟩ := runRecovery_spec tick hread'
    · rw [← hrecover] at htrue
      apply TickCase.verified hkill hclear hfrom hprev
      simp [nextState, deriveRuntimeState, hprev, hkill, hclear, htrue]
    · rw [← hrecover] at hfalse
      apply TickCase.held hkill hclear hfrom hprev
      · simp [nextState, deriveRuntimeState, hprev, hkill, hclear, hfalse]
      · simp [nextState, deriveRuntimeState, hprev, hkill, hclear, hfalse]
  · have hprev : prevState plane tick = plane.lastState := by
      unfold prevState recover
      rw [if_neg hleaving]
    by_cases hkill : tick.inputs.killSwitch.engaged
    · apply TickCase.killed hkill hprev
      simp [nextState, deriveRuntimeState, hkill]
    · rw [Bool.not_eq_true] at hkill
      by_cases hactive : 0 < (activeProtections tick.inputs).length
      · apply TickCase.active hkill hactive hprev
        simp [nextState, deriveRuntimeState, hkill, hactive]
      · have hclear : activeProtections tick.inputs = [] :=
          List.length_eq_zero_iff.mp (by omega)
        have hfrom : isProtected plane.lastState = false := by
          simpa [leaving, hclear, hkill, isProtected] using hleaving
        apply TickCase.calm hkill hclear hfrom hprev
        have hnot : ¬ (plane.lastState = .protected ∨ plane.lastState = .recovering) := by
          simpa [isProtected] using hfrom
        unfold nextState deriveRuntimeState
        rw [hprev]
        simp only [hkill, hclear, List.length_nil, lt_self_iff_false, if_false, if_neg hnot,
          Bool.false_eq_true]
        split <;> split <;> rfl

/-! ## Open incidents -/

def openIncidents (incidents : List Incident) : List Incident :=
  incidents.filter fun i => i.status = .open

theorem getOpenIncident_of_none {incidents : List Incident} (h : openIncidents incidents = []) :
    getOpenIncident incidents = .absent := by
  have hfind : incidents.find? (fun i => i.status = .open) = none := by
    rw [List.find?_eq_none]
    exact List.filter_eq_nil_iff.mp h
  unfold getOpenIncident
  rw [hfind]

/-- On readable rows what is open is found. -/
theorem found_of_open {incidents : List Incident}
    (hread : ∀ i ∈ incidents, i.affectedComponents.isSome) (h : openIncidents incidents ≠ []) :
    ∃ row ∈ openIncidents incidents, ∃ affected,
      getOpenIncident incidents = .found row.id affected := by
  cases hfind : incidents.find? (fun i => i.status = .open) with
  | none => exact absurd (List.filter_eq_nil_iff.mpr (List.find?_eq_none.mp hfind)) h
  | some row =>
      have hmem := List.mem_of_find?_eq_some hfind
      have hopen := List.find?_some hfind
      obtain ⟨affected, haffected⟩ := Option.isSome_iff_exists.mp (hread row hmem)
      refine ⟨row, List.mem_filter.mpr ⟨hmem, hopen⟩, affected, ?_⟩
      unfold getOpenIncident
      rw [hfind]
      dsimp only
      rw [haffected]

/-- Nothing is open that was not open before. -/
theorem length_openIncidents_resolve (incidents : List Incident) (id : ℕ)
    (outcome : IncidentOutcome) :
    (openIncidents (resolveIncident incidents id outcome)).length ≤
      (openIncidents incidents).length := by
  unfold openIncidents resolveIncident
  rw [← List.countP_eq_length_filter, ← List.countP_eq_length_filter, List.countP_map]
  apply List.countP_mono_left
  intro i _ hopen
  simp only [Function.comp, decide_eq_true_eq] at hopen ⊢
  split at hopen
  · cases hopen
  · exact hopen

/-- The one open incident, resolved. -/
theorem openIncidents_resolve_eq_nil {incidents : List Incident} {row : Incident}
    (hone : (openIncidents incidents).length ≤ 1) (hrow : row ∈ openIncidents incidents)
    (outcome : IncidentOutcome) : openIncidents (resolveIncident incidents row.id outcome) = [] := by
  unfold openIncidents resolveIncident
  rw [List.filter_eq_nil_iff]
  intro i' hi' hopen
  obtain ⟨i, hi, rfl⟩ := List.mem_map.mp hi'
  split at hopen
  · simp at hopen
  · rename_i hne
    have hmem : i ∈ openIncidents incidents := List.mem_filter.mpr ⟨hi, hopen⟩
    obtain ⟨a, ha⟩ := List.length_eq_one_iff.mp
      (le_antisymm hone (List.length_pos_of_mem hrow))
    rw [ha, List.mem_singleton] at hmem hrow
    rw [hmem, hrow] at hne
    exact hne rfl

/-! ## Between two writes -/

/-- What holds between any two writes: at most one incident is open, and one is while the state is
PROTECTED for a protection. -/
structure Moment (t : ControlTables) : Prop where
  one : (openIncidents t.incidents).length ≤ 1
  protectedOpen : ∀ row ∈ t.transitions.getLast?, row.state = .protected →
    row.affectedComponents ≠ [] → openIncidents t.incidents ≠ []

/-- A write that keeps it. -/
def SafeWrite (t : ControlTables) : TableWrite → Prop
  | .transition row =>
      row.state = .protected → row.affectedComponents ≠ [] → openIncidents t.incidents ≠ []
  | .openIncident _ _ _ => openIncidents t.incidents = []
  | .resolveIncident _ _ => currentState t.transitions ≠ .protected

theorem moment_write {t : ControlTables} {w : TableWrite} (hmoment : Moment t) (hsafe : SafeWrite t w) :
    Moment (writeTable t w) := by
  cases w with
  | transition row =>
      constructor
      · exact hmoment.one
      · intro row' hrow'
        change (t.transitions ++ [row]).getLast? = some row' at hrow'
        rw [List.getLast?_concat] at hrow'
        rw [← Option.some.inj hrow']
        exact hsafe
  | openIncident type affected detail =>
      have hopened : openIncidents (openIncident t.incidents type affected detail) =
          ⟨t.incidents.length, type, some affected, .open, detail, none⟩ ::
            openIncidents t.incidents := rfl
      constructor
      · show (openIncidents (openIncident t.incidents type affected detail)).length ≤ 1
        rw [hopened, hsafe]
        exact le_refl 1
      · intro row _ _ _
        show openIncidents (openIncident t.incidents type affected detail) ≠ []
        rw [hopened]
        exact List.cons_ne_nil _ _
  | resolveIncident id outcome =>
      constructor
      · exact (length_openIncidents_resolve _ _ _).trans hmoment.one
      · intro row hrow hprotected
        change currentState t.transitions ≠ .protected at hsafe
        unfold currentState at hsafe
        rw [show t.transitions.getLast? = some row from hrow] at hsafe
        exact absurd hprotected hsafe

theorem readable_write {t : ControlTables} (w : TableWrite)
    (hread : ∀ i ∈ t.incidents, i.affectedComponents.isSome) :
    ∀ i ∈ (writeTable t w).incidents, i.affectedComponents.isSome := by
  cases w with
  | transition row => exact hread
  | openIncident type affected detail => exact readable_openIncident hread type affected detail
  | resolveIncident id outcome =>
      intro i hi
      obtain ⟨i', hi', rfl⟩ := List.mem_map.mp hi
      split
      · exact hread i' hi'
      · exact hread i' hi'

theorem readable_run {t : ControlTables} (writes : List TableWrite)
    (hread : ∀ i ∈ t.incidents, i.affectedComponents.isSome) :
    ∀ i ∈ (run writeTable t writes).incidents, i.affectedComponents.isSome := by
  induction writes generalizing t with
  | nil => exact hread
  | cons w writes ih => exact ih (readable_write w hread)

/-- What holds between the writes of a safe series. -/
theorem moment_take {t : ControlTables} {writes : List TableWrite} (hmoment : Moment t)
    (hsafe : RunMeets writeTable SafeWrite t writes) (n : ℕ) :
    Moment (run writeTable t (writes.take n)) := by
  rw [← List.take_append_drop n writes] at hsafe
  have hstep : ∀ t w, Moment t → SafeWrite t w → Moment (writeTable t w) := fun _ _ => moment_write
  exact run_invariant hstep hmoment hsafe.of_append

/-! ## The writes of a boot and of an evaluation -/

theorem safe_bootWrites (t : ControlTables) (transitions : List Transition)
    (failed : Option String) : RunMeets writeTable SafeWrite t (bootWrites transitions failed) := by
  cases failed with
  | none => exact ⟨(fun h => nomatch h), (fun h => nomatch h), trivial⟩
  | some checks => exact ⟨(fun h => nomatch h), (fun h => nomatch h), (fun h => nomatch h), trivial⟩

section Evaluation

variable {plane : ControlPlane} {tick : Tick}

/-- The state the tables show when the incidents are settled is the one the tick goes on from. -/
theorem currentState_recover (hstate : currentState plane.transitions = plane.lastState) :
    currentState (recover plane tick).1.transitions = prevState plane tick := by
  unfold prevState recover
  split
  · obtain ⟨htables, hlast⟩ := runRecovery_frame (enterRecovering plane) tick
    have htransitions := congrArg ControlTables.transitions htables
    change (runRecovery (enterRecovering plane) tick).1.transitions =
      (enterRecovering plane).transitions at htransitions
    rw [htransitions, hlast]
    unfold enterRecovering
    split
    · simp [currentState, commitTransition]
    · exact hstate
  · exact hstate

theorem safe_resolveWrites {t : ControlTables} (hstate : currentState t.transitions ≠ .protected)
    (incidents : List Incident) (outcome : IncidentOutcome) :
    RunMeets writeTable SafeWrite t (resolveWrites incidents outcome) := by
  unfold resolveWrites
  cases getOpenIncident incidents with
  | found id affected => exact ⟨hstate, trivial⟩
  | absent | corrupt => trivial

theorem safe_engageWrites {t : ControlTables} (hread : ∀ i ∈ t.incidents, i.affectedComponents.isSome)
    (active : List ProtectionVerdict) :
    RunMeets writeTable SafeWrite t (engageWrites t.incidents active) := by
  unfold engageWrites
  by_cases hopen : openIncidents t.incidents = []
  · rw [getOpenIncident_of_none hopen]
    exact ⟨hopen, trivial⟩
  · obtain ⟨row, -, affected, hfound⟩ := found_of_open hread hopen
    rw [hfound]
    trivial

/-- Once protection is engaged an incident is open. -/
theorem open_engageWrites {t : ControlTables} (hread : ∀ i ∈ t.incidents, i.affectedComponents.isSome)
    (active : List ProtectionVerdict) :
    openIncidents (run writeTable t (engageWrites t.incidents active)).incidents ≠ [] := by
  unfold engageWrites
  by_cases hopen : openIncidents t.incidents = []
  · rw [getOpenIncident_of_none hopen]
    exact List.cons_ne_nil _ _
  · obtain ⟨row, -, affected, hfound⟩ := found_of_open hread hopen
    rw [hfound]
    exact hopen

theorem syncWrites_of_active {incidents : List Incident} {prev : RuntimeState}
    {active : List ProtectionVerdict} (hactive : 0 < active.length) :
    syncWrites incidents prev .protected active = engageWrites incidents active :=
  if_pos ⟨rfl, hactive⟩

theorem syncWrites_of_stopped {incidents : List Incident} {prev : RuntimeState}
    {active : List ProtectionVerdict} : syncWrites incidents prev .stopped active = [] := by
  unfold syncWrites
  rw [if_neg (by simp), if_neg (by simp), if_neg (by simp)]

theorem syncWrites_of_held {incidents : List Incident} {prev : RuntimeState} :
    syncWrites incidents prev .protected [] = [] := by
  unfold syncWrites
  rw [if_neg (by simp), if_neg (by simp), if_neg (by simp)]

theorem syncWrites_of_verified {incidents : List Incident} {active : List ProtectionVerdict} :
    syncWrites incidents .recovering .healthy active = resolveWrites incidents .verified := by
  unfold syncWrites
  rw [if_neg (by simp), if_pos ⟨rfl, .inl rfl⟩]

/-- From a state that is not protected only a resume settles an incident. -/
theorem syncWrites_of_calm {incidents : List Incident} {prev next : RuntimeState}
    {active : List ProtectionVerdict} (hprev : isProtected prev = false)
    (hnext : next = .degraded ∨ next = .healthy) :
    syncWrites incidents prev next active =
      if prev = .stopped then resolveWrites incidents .manualResume else [] := by
  have hnot : ¬ (next = .healthy ∧ (prev = .recovering ∨ prev = .protected)) := by
    rintro ⟨-, h | h⟩
    · rw [h] at hprev
      cases hprev
    · rw [h] at hprev
      cases hprev
  have hprotected : ¬ (next = .protected ∧ 0 < active.length) := by
    rcases hnext with h | h <;> simp [h]
  unfold syncWrites
  rw [if_neg hprotected, if_neg hnot]
  by_cases hstopped : prev = .stopped
  · rw [if_pos ⟨hstopped, hnext.symm⟩, if_pos hstopped]
  · rw [if_neg (fun h => hstopped h.1), if_neg hstopped]

theorem isDegraded_cases (inputs : ControlInputs) :
    (if isDegraded inputs then RuntimeState.degraded else .healthy) = .degraded ∨
      (if isDegraded inputs then RuntimeState.degraded else .healthy) = .healthy := by
  by_cases h : isDegraded inputs
  · exact .inl (if_pos h)
  · exact .inr (if_neg h)

/-- Every write of an evaluation is safe. -/
theorem safe_evaluateWrites (hread : Readable plane)
    (hstate : currentState plane.transitions = plane.lastState) :
    RunMeets writeTable SafeWrite plane.tables (evaluateWrites plane tick) := by
  have henter : RunMeets writeTable SafeWrite plane.tables (enterWrites plane tick) := by
    unfold enterWrites
    split
    · exact ⟨(fun h => nomatch h), trivial⟩
    · trivial
  unfold evaluateWrites
  rw [runMeets_append, runMeets_append, run_enterWrites]
  refine ⟨henter, ?_⟩
  rw [← recover_incidents plane tick]
  have hprevState := @currentState_recover plane tick hstate
  have hread' : ∀ i ∈ (recover plane tick).1.tables.incidents, i.affectedComponents.isSome := by
    show ∀ i ∈ (recover plane tick).1.incidents, _
    rw [recover_incidents]
    exact hread
  -- A transition is safe unless it is one to PROTECTED for a protection.
  have hsettle : ∀ t, ((nextState plane tick).state = .protected →
      (nextState plane tick).affectedComponents ≠ [] → openIncidents t.incidents ≠ []) →
      RunMeets writeTable SafeWrite t (settleWrites plane tick) := by
    intro t ht
    unfold settleWrites
    split
    · exact ⟨ht, trivial⟩
    · trivial
  cases @tick_case plane tick hread with
  | killed _ _ hnext =>
      refine ⟨?_, hsettle _ fun h => nomatch hnext.symm.trans h⟩
      rw [hnext, syncWrites_of_stopped]
      trivial
  | active _ hactive _ hnext =>
      rw [hnext, syncWrites_of_active hactive]
      exact ⟨safe_engageWrites hread' _, hsettle _ fun _ _ => open_engageWrites hread' _⟩
  | verified _ _ _ hprev hnext =>
      refine ⟨?_, hsettle _ fun h => nomatch hnext.symm.trans h⟩
      rw [hnext, hprev, syncWrites_of_verified]
      apply safe_resolveWrites
      show currentState (recover plane tick).1.transitions ≠ _
      rw [hprevState, hprev]
      decide
  | held _ hclear _ _ hnext haffected =>
      refine ⟨?_, hsettle _ fun _ h => absurd haffected h⟩
      rw [hnext, hclear, syncWrites_of_held]
      trivial
  | calm _ _ hfrom hprev hnext =>
      have hcases := isDegraded_cases tick.inputs
      rw [← hnext] at hcases
      refine ⟨?_, hsettle _ fun h => by rw [h] at hcases; simp at hcases⟩
      rw [syncWrites_of_calm (by rw [hprev]; exact hfrom) hcases]
      split
      · rename_i hstopped
        apply safe_resolveWrites
        show currentState (recover plane tick).1.transitions ≠ _
        rw [hprevState, hstopped]
        decide
      · trivial

theorem evaluate_incidents :
    (evaluate plane tick).plane.incidents =
      (run writeTable (recover plane tick).1.tables
        (syncWrites plane.incidents (prevState plane tick) (nextState plane tick).state
          (activeProtections tick.inputs))).incidents := by
  rw [evaluate_eq, settle_incidents, ← recover_incidents plane tick, run_syncWrites]
  rfl

theorem evaluate_currentState (hstate : currentState plane.transitions = plane.lastState) :
    currentState (evaluate plane tick).plane.transitions = (evaluate plane tick).plane.lastState := by
  have htables := congrArg ControlTables.transitions (run_evaluateWrites plane tick)
  change _ = (evaluate plane tick).plane.transitions at htables
  have hsync : ∀ t : ControlTables, (run writeTable t
      (syncWrites plane.incidents (prevState plane tick) (nextState plane tick).state
        (activeProtections tick.inputs))).transitions = t.transitions := by
    intro t
    unfold syncWrites engageWrites resolveWrites
    split
    · split <;> rfl
    · split
      · split <;> rfl
      · split
        · split <;> rfl
        · rfl
  rw [← htables]
  unfold evaluateWrites
  rw [run_append, run_append, run_enterWrites]
  show _ = (nextState plane tick).state
  unfold settleWrites
  split
  · simp [currentState, writeTable]
  · rename_i hsame
    rw [run_nil, hsync]
    exact (currentState_recover hstate).trans (not_not.mp hsame).symm

/-- A runtime that is PROTECTED for a protection has an open incident. -/
theorem evaluate_open (hread : Readable plane)
    (hprotected : (evaluate plane tick).plane.lastState = .protected)
    (hactive : (evaluate plane tick).plane.lastActiveComponents ≠ []) :
    openIncidents (evaluate plane tick).plane.incidents ≠ [] := by
  change (nextState plane tick).state = .protected at hprotected
  change activeComponents tick.inputs ≠ [] at hactive
  rw [ne_eq, activeComponents_eq_nil] at hactive
  have hpos : 0 < (activeProtections tick.inputs).length := List.length_pos_iff.mpr hactive
  rw [evaluate_incidents, hprotected, syncWrites_of_active hpos, ← recover_incidents plane tick]
  apply open_engageWrites
  show ∀ i ∈ (recover plane tick).1.incidents, _
  rw [recover_incidents]
  exact hread

/-- What is left of a resolution. -/
theorem resolved_nil {t : ControlTables} (hread : ∀ i ∈ t.incidents, i.affectedComponents.isSome)
    (hone : (openIncidents t.incidents).length ≤ 1) (outcome : IncidentOutcome) :
    openIncidents (run writeTable t (resolveWrites t.incidents outcome)).incidents = [] := by
  unfold resolveWrites
  by_cases hopen : openIncidents t.incidents = []
  · rw [getOpenIncident_of_none hopen]
    exact hopen
  · obtain ⟨row, hrow, affected, hfound⟩ := found_of_open hread hopen
    rw [hfound]
    exact openIncidents_resolve_eq_nil hone hrow outcome

/-- A HEALTHY evaluation leaves no incident open exactly where there was none, or the process remembers
where it comes from. -/
theorem healthy_clean_iff (hread : Readable plane)
    (hone : (openIncidents plane.incidents).length ≤ 1)
    (hhealthy : (evaluate plane tick).state = .healthy) :
    openIncidents (evaluate plane tick).plane.incidents = [] ↔
      (openIncidents plane.incidents = [] ∨ isProtected plane.lastState ∨
        plane.lastState = .stopped) := by
  change (nextState plane tick).state = .healthy at hhealthy
  have hincidents : (recover plane tick).1.tables.incidents = plane.incidents :=
    recover_incidents plane tick
  have hresolved : ∀ outcome, openIncidents (run writeTable (recover plane tick).1.tables
      (resolveWrites plane.incidents outcome)).incidents = [] := by
    intro outcome
    rw [← hincidents]
    exact resolved_nil (by rw [hincidents]; exact hread) (by rw [hincidents]; exact hone) outcome
  rw [evaluate_incidents, hhealthy]
  cases @tick_case plane tick hread with
  | killed _ _ hnext => exact nomatch hnext.symm.trans hhealthy
  | active _ _ _ hnext => exact nomatch hnext.symm.trans hhealthy
  | held _ _ _ _ hnext _ => exact nomatch hnext.symm.trans hhealthy
  | verified _ _ hfrom hprev _ =>
      rw [hprev, syncWrites_of_verified]
      exact iff_of_true (hresolved _) (.inr (.inl hfrom))
  | calm _ _ hfrom hprev _ =>
      rw [hprev, syncWrites_of_calm hfrom (.inr rfl)]
      by_cases hstopped : plane.lastState = .stopped
      · rw [if_pos hstopped]
        exact iff_of_true (hresolved _) (.inr (.inr hstopped))
      · rw [if_neg hstopped, run_nil, hincidents]
        simp [hfrom, hstopped]

end Evaluation

/-! ## The worker -/

section Worker

variable {w : Worker}

structure WorkerOk (w : Worker) : Prop where
  readable : Readable w.plane
  moment : Moment w.plane.tables
  persisted : w.started → currentState w.plane.transitions = w.plane.lastState
  remembered : w.plane.lastState = .protected → w.plane.lastActiveComponents ≠ [] →
    openIncidents w.plane.incidents ≠ []

theorem safe_writesOf (hok : WorkerOk w) (e : WorkerEvent) :
    RunMeets writeTable SafeWrite w.plane.tables (writesOf w e) := by
  cases e with
  | boot failed cut => exact safe_bootWrites _ _ _
  | evaluate tick cut =>
      unfold writesOf
      dsimp only
      split
      · rename_i hstarted
        exact safe_evaluateWrites hok.readable (hok.persisted hstarted)
      · trivial

theorem workerOk_dead (hok : WorkerOk w) (e : WorkerEvent) (n : ℕ) :
    WorkerOk (deadWorker w ((writesOf w e).take n)) where
  readable := readable_run _ hok.readable
  moment := moment_take hok.moment (safe_writesOf hok e) n
  persisted := fun h => nomatch h
  remembered := fun h => nomatch h

theorem boot_lastState (plane : ControlPlane) (failed : Option String) :
    (boot plane failed).lastState = currentState (boot plane failed).transitions ∧
      (boot plane failed).lastState ≠ .protected := by
  cases failed with
  | none => simp [boot, commitTransition, currentState]
  | some checks => simp [boot, commitTransition, appendAudit, currentState]

theorem workerOk_step (hok : WorkerOk w) (e : WorkerEvent) : WorkerOk (workerStep w e) := by
  have hwhole := moment_take hok.moment (safe_writesOf hok e) (writesOf w e).length
  rw [List.take_length] at hwhole
  cases e with
  | boot failed cut =>
      cases cut with
      | some n => exact workerOk_dead hok (.boot failed none) n
      | none =>
          obtain ⟨hlast, hcalm⟩ := boot_lastState w.plane failed
          rw [show writesOf w (.boot failed none) = bootWrites w.plane.transitions failed from rfl,
            run_bootWrites] at hwhole
          constructor
          · have hrows := @readable_run w.plane.tables (bootWrites w.plane.transitions failed)
              hok.readable
            rw [run_bootWrites] at hrows
            exact hrows
          · exact hwhole
          · exact fun _ => hlast.symm
          · exact fun h => absurd h hcalm
  | evaluate tick cut =>
      cases cut with
      | some n => exact workerOk_dead hok (.evaluate tick none) n
      | none =>
          unfold workerStep
          dsimp only
          split
          · rename_i hstarted
            rw [show writesOf w (.evaluate tick none) = evaluateWrites w.plane tick from
              if_pos hstarted, run_evaluateWrites] at hwhole
            constructor
            · exact evaluate_readable hok.readable
            · exact hwhole
            · exact fun _ => evaluate_currentState (hok.persisted hstarted)
            · exact evaluate_open hok.readable
          · exact hok

/-- The life of an incident over one event: between any two writes, in the process afterwards, and for
the state an evaluation returns. -/
structure LifecycleHolds (w : Worker) (e : WorkerEvent) : Prop where
  moments : ∀ n, Moment (run writeTable w.plane.tables ((writesOf w e).take n))
  protectedOpen : (workerStep w e).plane.lastState = .protected →
    (workerStep w e).plane.lastActiveComponents ≠ [] →
    openIncidents (workerStep w e).plane.incidents ≠ []
  healthy : ∀ tick, e = .evaluate tick none → w.started →
    (evaluate w.plane tick).state = .healthy →
    openIncidents (evaluate w.plane tick).plane.incidents = []

/-- An evaluation that finds an incident open is one of a process that remembers being protected or
stopped, or it is not nominal. -/
def OrphanGuarded (w : Worker) : WorkerEvent → Prop
  | .evaluate tick none =>
      w.started → openIncidents w.plane.incidents ≠ [] →
        isProtected w.plane.lastState ∨ w.plane.lastState = .stopped ∨
          tick.inputs.killSwitch.engaged ∨ activeProtections tick.inputs ≠ [] ∨
          isDegraded tick.inputs
  | _ => True

/-- From a state that is neither protected nor stopped a nominal tick is HEALTHY. -/
theorem healthy_of_nominal {plane : ControlPlane} {tick : Tick} (hread : Readable plane)
    (hfrom : ¬ isProtected plane.lastState) (hkill : ¬ tick.inputs.killSwitch.engaged)
    (hclear : activeProtections tick.inputs = []) (hdegraded : ¬ isDegraded tick.inputs) :
    (evaluate plane tick).state = .healthy := by
  show (nextState plane tick).state = .healthy
  cases @tick_case plane tick hread with
  | killed h _ _ => exact absurd h hkill
  | active _ h _ _ =>
      rw [hclear] at h
      exact absurd h (lt_irrefl 0)
  | verified _ _ h _ _ => exact absurd h hfrom
  | held _ _ h _ _ _ => exact absurd h hfrom
  | calm _ _ _ _ hnext => rw [hnext, if_neg hdegraded]

/-- And only a nominal one. -/
theorem nominal_of_healthy {plane : ControlPlane} {tick : Tick} (hread : Readable plane)
    (hfrom : ¬ isProtected plane.lastState) (hhealthy : (evaluate plane tick).state = .healthy) :
    ¬ tick.inputs.killSwitch.engaged ∧ activeProtections tick.inputs = [] ∧
      ¬ isDegraded tick.inputs := by
  change (nextState plane tick).state = .healthy at hhealthy
  cases @tick_case plane tick hread with
  | killed _ _ hnext => exact nomatch hnext.symm.trans hhealthy
  | active _ _ _ hnext => exact nomatch hnext.symm.trans hhealthy
  | verified _ _ h _ _ => exact absurd h hfrom
  | held _ _ h _ _ _ => exact absurd h hfrom
  | calm hkill hclear _ _ hnext =>
      refine ⟨Bool.not_eq_true _ ▸ hkill, hclear, fun hdegraded => ?_⟩
      rw [hnext, if_pos hdegraded] at hhealthy
      cases hhealthy

theorem lifecycleHolds_iff (hok : WorkerOk w) (e : WorkerEvent) :
    LifecycleHolds w e ↔ OrphanGuarded w e := by
  have hone : (openIncidents w.plane.incidents).length ≤ 1 := hok.moment.one
  constructor
  · intro h
    cases e with
    | boot failed cut => cases cut <;> trivial
    | evaluate tick cut =>
        cases cut with
        | some n => trivial
        | none =>
            intro hstarted hopen
            by_contra hnot
            push Not at hnot
            obtain ⟨hfrom, hstopped, hkill, hclear, hdegraded⟩ := hnot
            have hhealthy := healthy_of_nominal hok.readable hfrom hkill hclear hdegraded
            have hclean := (healthy_clean_iff hok.readable hone hhealthy).mp
              (h.healthy tick rfl hstarted hhealthy)
            rcases hclean with h | h | h
            · exact hopen h
            · exact hfrom h
            · exact hstopped h
  · intro hguard
    constructor
    · exact moment_take hok.moment (safe_writesOf hok e)
    · exact (workerOk_step hok e).remembered
    · rintro tick rfl hstarted hhealthy
      rw [healthy_clean_iff hok.readable hone hhealthy]
      by_cases hopen : openIncidents w.plane.incidents = []
      · exact .inl hopen
      · right
        by_cases hfrom : isProtected w.plane.lastState
        · exact .inl hfrom
        · obtain ⟨hkill, hclear, hdegraded⟩ := nominal_of_healthy hok.readable hfrom hhealthy
          rcases hguard hstarted hopen with h | h | h | h | h
          · exact .inl h
          · exact .inr h
          · exact absurd h hkill
          · exact absurd hclear h
          · exact absurd h hdegraded

theorem workerOk_fresh : WorkerOk freshWorker where
  readable := fun _ hi => absurd hi List.not_mem_nil
  moment := ⟨Nat.zero_le 1, fun _ hrow => nomatch hrow⟩
  persisted := fun h => nomatch h
  remembered := fun h => nomatch h

end Worker

/-- Over every run of boots, evaluations and deaths in between, the life of an incident is as it should
be exactly where no evaluation is nominal that finds an incident open in a process that does not
remember being protected or stopped. -/
theorem incident_lifecycle_iff (events : List WorkerEvent) :
    RunMeets workerStep LifecycleHolds freshWorker events ↔
      RunMeets workerStep OrphanGuarded freshWorker events :=
  runMeets_congr (fun _ e hok => workerOk_step hok e) (fun _ e hok => lifecycleHolds_iff hok e)
    workerOk_fresh

/-- Redis fails, the worker is restarted, and redis is back: HEALTHY, with the incident open. -/
theorem restart_orphans_incident :
    ¬ RunMeets workerStep LifecycleHolds freshWorker
      [.boot none none, .evaluate (sampleTick .failing .healthy) none, .boot none none,
        .evaluate (sampleTick .healthy .healthy) none] := by
  intro h
  have hclean := h.2.2.2.1.healthy (sampleTick .healthy .healthy) rfl rfl (by decide +kernel)
  exact absurd hclean (by decide +kernel)

end NexusQuant.Control
