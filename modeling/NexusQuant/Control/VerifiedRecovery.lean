import NexusQuant.Control.Plane
import NexusQuant.Lib.Run

/-!
# Recovery verifies what was protected

A recovery verifies the components that were active on the previous tick and those the open incident
lists.  The incident's list is frozen when it is opened, so a component that joins later and clears
one tick before the others is in neither.  `Covered` is the condition on a tick under which no
component is forgotten, and `Remembered` the invariant it keeps: everything active since protection
began is in one of the two lists.
-/

namespace NexusQuant.Control

open Run

def activeComponents (inputs : ControlInputs) : List ControlComponent :=
  (activeProtections inputs).map (·.component)

def isProtected (state : RuntimeState) : Bool := state = .protected || state = .recovering

/-- The components the open incident lists. -/
def openAffected (plane : ControlPlane) : List ControlComponent :=
  match getOpenIncident plane.incidents with
  | .found _ affected => affected
  | _ => []

/-- Every incident row is admitted. -/
def Readable (plane : ControlPlane) : Prop :=
  ∀ i ∈ plane.incidents, i.affectedComponents.isSome

/-- Every component a recovery would verify in this tick passes its probes. -/
def AllVerified (plane : ControlPlane) (tick : Tick) : Prop :=
  ∀ c ∈ recoveryTargets plane (openAffected plane), (verifyRecovery tick.probes c).verified

instance (plane : ControlPlane) (tick : Tick) : Decidable (AllVerified plane tick) := by
  dsimp only [AllVerified]; infer_instance

/-! ## A plane that remembers its history -/

/-- A plane with the components that were active since it last entered PROTECTED. -/
structure Watched where
  plane : ControlPlane
  history : List ControlComponent

def watchedStep (w : Watched) (tick : Tick) : Watched :=
  let e := evaluate w.plane tick
  { plane := e.plane
    history :=
      if e.state = .protected ∧ isProtected w.plane.lastState = false then
        activeComponents tick.inputs
      else w.history ++ activeComponents tick.inputs }

/-- While the runtime is protected, a component of the previous tick that the open incident does not
list stays active, or this tick's recovery is verified. -/
def Covered (w : Watched) (tick : Tick) : Prop :=
  isProtected w.plane.lastState → ∀ c ∈ w.plane.lastActiveComponents,
    c ∈ openAffected w.plane ∨ c ∈ activeComponents tick.inputs ∨
    (activeComponents tick.inputs = [] ∧ AllVerified w.plane tick)

instance (w : Watched) (tick : Tick) : Decidable (Covered w tick) := by
  dsimp only [Covered]; infer_instance

/-- While the runtime is protected, everything active since protection began is in the list of the
previous tick or in the open incident. -/
def Remembered (w : Watched) : Prop :=
  isProtected w.plane.lastState →
    ∀ c ∈ w.history, c ∈ w.plane.lastActiveComponents ∨ c ∈ openAffected w.plane

/-! ## One evaluation -/

section Evaluate

variable {plane : ControlPlane} {tick : Tick}

theorem getOpenIncident_ne_corrupt {incidents : List Incident}
    (h : ∀ i ∈ incidents, i.affectedComponents.isSome) : getOpenIncident incidents ≠ .corrupt := by
  unfold getOpenIncident
  cases hfind : incidents.find? (fun i => i.status = .open) with
  | none => exact OpenIncident.noConfusion
  | some row =>
      have hsome := h row (List.mem_of_find?_eq_some hfind)
      cases haff : row.affectedComponents with
      | none => rw [haff] at hsome; cases hsome
      | some affected => simp [haff]

theorem activeComponents_eq_nil {inputs : ControlInputs} :
    activeComponents inputs = [] ↔ activeProtections inputs = [] :=
  List.map_eq_nil_iff

/-- The outcome of a recovery on readable rows: verified when every target is, with a report for each,
or failed. -/
theorem runRecovery_spec (tick : Tick) (hread : Readable plane) :
    (runRecovery plane tick).1.lastState = plane.lastState ∧
    (runRecovery plane tick).1.incidents = plane.incidents ∧
    (((runRecovery plane tick).2.1 = some true ∧
        ∀ c ∈ recoveryTargets plane (openAffected plane),
          ∃ r ∈ (runRecovery plane tick).2.2, r.component = c ∧ r.verified) ∨
      ((runRecovery plane tick).2.1 = some false ∧ ¬ AllVerified plane tick)) := by
  have hverify : ∀ affected, affected = openAffected plane →
      (runRecovery.verify plane tick affected).1.lastState = plane.lastState ∧
      (runRecovery.verify plane tick affected).1.incidents = plane.incidents ∧
      (((runRecovery.verify plane tick affected).2.1 = some true ∧
          ∀ c ∈ recoveryTargets plane (openAffected plane),
            ∃ r ∈ (runRecovery.verify plane tick affected).2.2, r.component = c ∧ r.verified) ∨
        ((runRecovery.verify plane tick affected).2.1 = some false ∧
          ¬ AllVerified plane tick)) := by
    rintro affected rfl
    unfold runRecovery.verify
    -- Without targets the source returns before it verifies anything.
    by_cases hempty : (recoveryTargets plane (openAffected plane)).length = 0
    · rw [if_pos hempty]
      refine ⟨rfl, rfl, .inl ⟨rfl, ?_⟩⟩
      intro c hc
      rw [List.length_eq_zero_iff.mp hempty] at hc
      cases hc
    · rw [if_neg hempty]
      refine ⟨rfl, rfl, ?_⟩
      simp only [recoveryOutcome, List.length_map, if_neg hempty]
      by_cases hall : AllVerified plane tick
      · refine .inl ⟨?_, ?_⟩
        · rw [List.all_map]
          exact congrArg some (List.all_eq_true.mpr hall)
        · intro c hc
          exact ⟨verifyRecovery tick.probes c, List.mem_map_of_mem hc, rfl, hall c hc⟩
      · refine .inr ⟨?_, hall⟩
        rw [List.all_map]
        refine congrArg some (Bool.eq_false_iff.mpr ?_)
        intro htrue
        exact hall (List.all_eq_true.mp htrue)
  unfold runRecovery
  -- Which list of affected components the verification starts from.
  cases hopen : getOpenIncident plane.incidents with
  | corrupt => exact absurd hopen (getOpenIncident_ne_corrupt hread)
  | absent => exact hverify [] (by simp [openAffected, hopen])
  | found id affected => exact hverify affected (by simp [openAffected, hopen])

/-- The incidents after the second half of an evaluation. -/
theorem settle_incidents (inputs : ControlInputs) (recovery : RecoveryOutcome)
    (reports : List RecoveryReport) :
    (settle plane inputs recovery reports).plane.incidents =
      (syncIncidentAndProtections plane plane.lastState
        (settle plane inputs recovery reports).state (activeProtections inputs)).incidents := by
  simp only [settle]
  split <;> rfl

theorem evaluate_eq : evaluate plane tick =
    settle (recover plane tick).1 tick.inputs (recover plane tick).2.1 (recover plane tick).2.2 :=
  rfl

/-- A tick with an active protection protects the runtime and keeps an open incident, or opens one for
what is active. -/
theorem evaluate_of_active (hkill : tick.inputs.killSwitch.engaged = false)
    (hactive : activeComponents tick.inputs ≠ []) :
    (evaluate plane tick).state = .protected ∧
    (evaluate plane tick).plane.incidents =
      (engageProtection plane (activeProtections tick.inputs)).incidents := by
  have hpos : 0 < (activeProtections tick.inputs).length := by
    rw [List.length_pos_iff]
    exact fun h => hactive (activeComponents_eq_nil.mpr h)
  -- What is active bars the way out, so nothing is verified on this tick.
  have hstay : recover plane tick = (plane, none, []) := by
    simp [recover, leaving, Nat.ne_of_gt hpos]
  have hstate : (settle plane tick.inputs none []).state = .protected := by
    simp [settle, deriveRuntimeState, hkill, hpos]
  rw [evaluate_eq, hstay]
  refine ⟨hstate, ?_⟩
  rw [settle_incidents, hstate]
  simp [syncIncidentAndProtections, hpos]

theorem enterRecovering_lastState (h : isProtected plane.lastState) :
    (enterRecovering plane).lastState = .recovering := by
  unfold enterRecovering
  split
  · rfl
  · rename_i hne
    simpa [isProtected, hne] using h

theorem enterRecovering_incidents : (enterRecovering plane).incidents = plane.incidents := by
  unfold enterRecovering; split <;> rfl

theorem enterRecovering_targets :
    recoveryTargets (enterRecovering plane) (openAffected (enterRecovering plane)) =
      recoveryTargets plane (openAffected plane) := by
  have hactive : (enterRecovering plane).lastActiveComponents = plane.lastActiveComponents := by
    unfold enterRecovering; split <;> rfl
  simp only [recoveryTargets, openAffected, enterRecovering_incidents, hactive]

/-- A tick on which nothing is active any more either verifies every target and is healthy, or stays
protected with the incidents as they were. -/
theorem evaluate_of_leaving (hkill : tick.inputs.killSwitch.engaged = false) (hread : Readable plane)
    (hprev : isProtected plane.lastState) (hclear : activeComponents tick.inputs = []) :
    ((evaluate plane tick).state = .healthy ∧
      ∀ c ∈ recoveryTargets plane (openAffected plane),
        ∃ r ∈ (evaluate plane tick).reports, r.component = c ∧ r.verified) ∨
    ((evaluate plane tick).state = .protected ∧ ¬ AllVerified plane tick ∧
      (evaluate plane tick).plane.incidents = plane.incidents) := by
  have hnil := activeComponents_eq_nil.mp hclear
  have hrecover : recover plane tick = runRecovery (enterRecovering plane) tick := by
    have hleave : leaving plane tick = true := by
      simpa [leaving, hnil, hkill, isProtected] using hprev
    rw [recover, if_pos hleave]
  have hread' : Readable (enterRecovering plane) := by
    unfold Readable
    rw [enterRecovering_incidents]
    exact hread
  obtain ⟨hstate, hincidents, houtcome⟩ := runRecovery_spec tick hread'
  rw [enterRecovering_lastState hprev] at hstate
  rw [enterRecovering_incidents] at hincidents
  rw [evaluate_eq, hrecover]
  -- Verified, the runtime leaves; otherwise it falls back and the incident stays open.
  rcases houtcome with ⟨htrue, hreports⟩ | ⟨hfalse, hnot⟩
  · left
    rw [enterRecovering_targets] at hreports
    refine ⟨?_, hreports⟩
    simp [settle, deriveRuntimeState, hstate, htrue, hkill, hnil]
  · right
    have hsettled : (settle (runRecovery (enterRecovering plane) tick).1 tick.inputs
        (runRecovery (enterRecovering plane) tick).2.1
        (runRecovery (enterRecovering plane) tick).2.2).state = .protected := by
      simp [settle, deriveRuntimeState, hstate, hfalse, hkill, hnil]
    refine ⟨hsettled, ?_, ?_⟩
    · rwa [AllVerified, enterRecovering_targets] at hnot
    · rw [settle_incidents, hsettled, hstate]
      simpa [syncIncidentAndProtections, hnil] using hincidents

/-- From a state that is not protected, a tick on which nothing is active does not protect. -/
theorem evaluate_of_calm (hkill : tick.inputs.killSwitch.engaged = false)
    (hprev : isProtected plane.lastState = false) (hclear : activeComponents tick.inputs = []) :
    isProtected (evaluate plane tick).state = false := by
  have hnil := activeComponents_eq_nil.mp hclear
  simp only [isProtected, Bool.or_eq_false_iff, decide_eq_false_iff_not] at hprev
  have hstay : recover plane tick = (plane, none, []) := by
    simp [recover, leaving, hprev]
  rw [evaluate_eq, hstay]
  -- Without protection before and now the tick ends in one of the last rows of the table.
  simp only [settle, deriveRuntimeState, hkill, hnil, List.length_nil, hprev, or_self, if_false,
    Bool.false_eq_true, lt_self_iff_false]
  repeat' split
  all_goals rfl

theorem readable_openIncident {incidents : List Incident}
    (h : ∀ i ∈ incidents, i.affectedComponents.isSome) (type : String)
    (affected : List ControlComponent) (detail : String) :
    ∀ i ∈ openIncident incidents type affected detail, i.affectedComponents.isSome := by
  intro i hi
  rcases List.mem_cons.mp hi with rfl | hmem
  · rfl
  · exact h i hmem

theorem engageProtection_readable (hread : Readable plane) (active : List ProtectionVerdict) :
    Readable (engageProtection plane active) := by
  unfold engageProtection
  split
  · exact hread
  · exact readable_openIncident hread _ _ _

theorem resolveOpen_readable (hread : Readable plane) (outcome : IncidentOutcome)
    (reason : String) : Readable (resolveOpen plane outcome reason) := by
  unfold resolveOpen
  split
  · intro i hi
    obtain ⟨i', hi', rfl⟩ := List.mem_map.mp hi
    split
    · exact hread i' hi'
    · exact hread i' hi'
  · exact hread

theorem syncIncidentAndProtections_readable (hread : Readable plane) (prev next : RuntimeState)
    (active : List ProtectionVerdict) :
    Readable (syncIncidentAndProtections plane prev next active) := by
  -- Each stage either takes its action or passes the plane on.
  have hif : ∀ (p : Prop) [Decidable p] (a b : ControlPlane), Readable a → Readable b →
      Readable (if p then a else b) := by
    intro p _ a b ha hb
    split
    · exact ha
    · exact hb
  have hengaged := hif (next = .protected ∧ 0 < active.length) _ _
    (engageProtection_readable hread active) hread
  have hresolved := hif (next = .healthy ∧ (prev = .recovering ∨ prev = .protected)) _ _
    (resolveOpen_readable hengaged .verified "recovery verified") hengaged
  exact hif _ _ _ (resolveOpen_readable hresolved _ _) hresolved

theorem evaluate_readable (hread : Readable plane) : Readable (evaluate plane tick).plane := by
  -- A recovery leaves the incidents as they are; settling opens or resolves readable ones.
  have hrecover : Readable (recover plane tick).1 := by
    unfold recover
    split
    · have hread' : Readable (enterRecovering plane) := by
        unfold Readable
        rw [enterRecovering_incidents]
        exact hread
      unfold Readable
      rw [(runRecovery_spec tick hread').2.1]
      exact hread'
    · exact hread
  unfold Readable
  rw [evaluate_eq, settle_incidents]
  exact syncIncidentAndProtections_readable hrecover _ _ _

end Evaluate

/-! ## Runs -/

/-- What the open incident lists is still listed after protection is engaged again. -/
theorem openAffected_engageProtection {plane : ControlPlane} {c : ControlComponent}
    (hc : c ∈ openAffected plane) (active : List ProtectionVerdict) :
    engageProtection plane active = plane := by
  unfold openAffected at hc
  unfold engageProtection
  cases hopen : getOpenIncident plane.incidents with
  | absent => rw [hopen] at hc; cases hc
  | corrupt => rw [hopen] at hc; cases hc
  | found id affected => rfl

theorem openAffected_congr {plane plane' : ControlPlane} (h : plane.incidents = plane'.incidents) :
    openAffected plane = openAffected plane' := by
  unfold openAffected
  rw [h]

theorem watchedStep_remembered {w : Watched} {tick : Tick}
    (hkill : tick.inputs.killSwitch.engaged = false) (hread : Readable w.plane)
    (hw : Remembered w) (hcover : Covered w tick) : Remembered (watchedStep w tick) := by
  -- A tick forgets only on its way out, so the cases are: nothing active (and protected before, or
  -- not) and something active.
  by_cases hactive : activeComponents tick.inputs = []
  · by_cases hprev : isProtected w.plane.lastState
    · rcases evaluate_of_leaving hkill hread hprev hactive with ⟨hstate, -⟩ | ⟨hstate, hnot, hsame⟩
      · intro hafter
        change isProtected (evaluate w.plane tick).state = true at hafter
        rw [hstate] at hafter
        cases hafter
      · -- the verification failed: only the incident's list survives the tick
        intro _ c hc
        right
        change c ∈ openAffected (evaluate w.plane tick).plane
        rw [openAffected_congr hsame]
        simp only [watchedStep, hprev, Bool.true_eq_false, and_false, if_false, hactive,
          List.append_nil] at hc
        rcases hw hprev c hc with hlast | hopen
        · rcases hcover hprev c hlast with h | h | h
          · exact h
          · rw [hactive] at h; cases h
          · exact absurd h.2 hnot
        · exact hopen
    · intro hafter
      have hcalm := evaluate_of_calm hkill (Bool.not_eq_true _ ▸ hprev) hactive
      change isProtected (evaluate w.plane tick).state = true at hafter
      rw [hcalm] at hafter
      cases hafter
  · obtain ⟨hstate, hincidents⟩ : (evaluate w.plane tick).state = .protected ∧ _ :=
      evaluate_of_active hkill hactive
    intro _ c hc
    change c ∈ activeComponents tick.inputs ∨ c ∈ openAffected (evaluate w.plane tick).plane
    rw [openAffected_congr hincidents]
    have hkept : c ∈ openAffected w.plane →
        c ∈ openAffected (engageProtection w.plane (activeProtections tick.inputs)) := by
      intro h
      rw [openAffected_engageProtection h]
      exact h
    by_cases hprev : isProtected w.plane.lastState
    · simp only [watchedStep, hprev, Bool.true_eq_false, and_false, if_false,
        List.mem_append] at hc
      rcases hc with hold | hnew
      · rcases hw hprev c hold with hlast | hopen
        · rcases hcover hprev c hlast with h | h | h
          · exact .inr (hkept h)
          · exact .inl h
          · exact absurd h.1 hactive
        · exact .inr (hkept hopen)
      · exact .inl hnew
    · simp only [watchedStep, hstate, hprev, and_self, if_true] at hc
      exact .inl hc

/-- What a watched run keeps. -/
theorem run_remembered {incidents : List Incident} {ticks : List Tick}
    (hread : ∀ i ∈ incidents, i.affectedComponents.isSome)
    (hkill : ∀ t ∈ ticks, t.inputs.killSwitch.engaged = false)
    (hcover : RunMeets watchedStep Covered ⟨booted incidents, []⟩ ticks) :
    Readable (run watchedStep ⟨booted incidents, []⟩ ticks).plane ∧
    Remembered (run watchedStep ⟨booted incidents, []⟩ ticks) := by
  have hmeets : RunMeets watchedStep (fun _ t => t.inputs.killSwitch.engaged = false)
      ⟨booted incidents, []⟩ ticks := runMeets_of_forall fun t ht _ => hkill t ht
  have hstep : ∀ w t, Readable w.plane ∧ Remembered w →
      (t.inputs.killSwitch.engaged = false ∧ Covered w t) →
      Readable (watchedStep w t).plane ∧ Remembered (watchedStep w t) := by
    intro w t hw ht
    exact ⟨evaluate_readable hw.1, watchedStep_remembered ht.1 hw.1 hw.2 ht.2⟩
  -- A booted runtime is not protected, so it has nothing to remember.
  refine run_invariant hstep ⟨hread, ?_⟩ (hmeets.and hcover)
  intro h
  cases h

/-- In every run whose ticks are covered, the tick that takes the runtime from PROTECTED or RECOVERING
to HEALTHY has verified every component that was active since protection began. -/
theorem recovery_verifies_history (incidents : List Incident)
    (hread : ∀ i ∈ incidents, i.affectedComponents.isSome) (ticks visited : List Tick) (tick : Tick)
    (hkill : ∀ t ∈ ticks, t.inputs.killSwitch.engaged = false)
    (hcover : RunMeets watchedStep Covered ⟨booted incidents, []⟩ ticks)
    (hpart : visited ++ [tick] <+: ticks)
    (hfrom : isProtected (run watchedStep ⟨booted incidents, []⟩ visited).plane.lastState)
    (hto : (evaluate (run watchedStep ⟨booted incidents, []⟩ visited).plane tick).state =
      .healthy) :
    ∀ c ∈ (run watchedStep ⟨booted incidents, []⟩ (visited ++ [tick])).history,
      ∃ r ∈ (evaluate (run watchedStep ⟨booted incidents, []⟩ visited).plane tick).reports,
        r.component = c ∧ r.verified := by
  obtain ⟨rest, rfl⟩ := hpart
  rw [List.append_assoc] at hcover hkill
  have hkill' : tick.inputs.killSwitch.engaged = false :=
    hkill tick (List.mem_append_right _ List.mem_cons_self)
  obtain ⟨hreadable, hremembered⟩ := run_remembered hread
    (fun t ht => hkill t (List.mem_append_left _ ht)) hcover.of_append
  rw [run_append, run_cons, run_nil]
  generalize run watchedStep ⟨booted incidents, []⟩ visited = w at *
  -- HEALTHY is reached only by a tick on which nothing is active.
  have hclear : activeComponents tick.inputs = [] := by
    by_contra hactive
    rw [(evaluate_of_active hkill' hactive).1] at hto
    cases hto
  intro c hc
  simp only [watchedStep, hto, reduceCtorEq, false_and, if_false, hclear, List.append_nil] at hc
  rcases evaluate_of_leaving hkill' hreadable hfrom hclear with ⟨-, hreports⟩ | ⟨hstate, -⟩
  · apply hreports
    rw [recoveryTargets, uniq, List.mem_eraseDups, List.mem_append]
    exact hremembered hfrom c hc
  · rw [hstate] at hto
    cases hto

/-- A tick with the given health of redis and the quant service, everything else nominal, on which
every probe passes. -/
def sampleTick (redis quant : ComponentHealth) : Tick where
  inputs :=
    { now := .fin 0
      database := .healthy
      redis
      quant
      features := ⟨some (.fin 1), .fin 180, .fin 60⟩
      signals := ⟨some (.fin 1), .fin 120, .fin 60⟩
      execution := ⟨none, .fin 300, .fin 120⟩
      riskEngineActive := true
      killSwitch := ⟨false, none, none⟩ }
  probes := fun c => [⟨c.text, true, "ok"⟩]

/-- Redis fails on one tick and is verified on the next. -/
def redisTicks : List Tick := [sampleTick .failing .healthy, sampleTick .healthy .healthy]

theorem recovery_verifies_history_redis :
    RunMeets watchedStep Covered ⟨booted [], []⟩ redisTicks ∧
      ∀ c ∈ (run watchedStep ⟨booted [], []⟩ redisTicks).history,
        ∃ r ∈ (evaluate (run watchedStep ⟨booted [], []⟩ [sampleTick .failing .healthy]).plane
          (sampleTick .healthy .healthy)).reports, r.component = c ∧ r.verified := by
  have hcover : RunMeets watchedStep Covered ⟨booted [], []⟩ redisTicks := by decide +kernel
  exact ⟨hcover, recovery_verifies_history [] (by simp) redisTicks [sampleTick .failing .healthy]
    (sampleTick .healthy .healthy) (by simp [redisTicks, sampleTick]) hcover (List.prefix_refl _)
    (by decide +kernel) (by decide +kernel)⟩

/-- Redis fails, the quant service fails too and clears first: the runtime becomes healthy with redis
verified and the quant service, which was protected a tick before, not verified. -/
theorem joined_component_not_verified :
    let w := run watchedStep ⟨booted [], []⟩ [sampleTick .failing .healthy,
      sampleTick .failing .failing, sampleTick .failing .healthy]
    let e := evaluate w.plane (sampleTick .healthy .healthy)
    w.plane.lastState = .protected ∧ e.state = .healthy ∧ .quant ∈ w.history ∧
      e.reports.map (·.component) = [.redis] := by
  decide +kernel

end NexusQuant.Control
