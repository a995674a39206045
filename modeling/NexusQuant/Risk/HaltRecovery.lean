import NexusQuant.Risk.Engine

/-!
# A halt survives restarts

The journal is the only memory of a halt.  A record that is appended behind a torn line shares its
line with the fragment and is dropped with it, and an unterminated resume is read as a resume.  In
runs in which neither happens, a halt that was journaled stands in every recovered state until a
resume is journaled.
-/

namespace NexusQuant.Risk

open Journal Market Run

/-! ## The halt as the journal has it -/

/-- A halt was journaled and no resume after it. -/
def HaltStands (records : List RiskJournalRecord) : Prop :=
  ∃ before halt after, records = before ++ halt :: after ∧
    (halt.type = .tradingHalted ∨ halt.type = .killSwitchTriggered) ∧
    ∀ r ∈ after, r.type ≠ .tradingResumed

theorem HaltStands.append {records more : List RiskJournalRecord} (h : HaltStands records)
    (hmore : ∀ r ∈ more, r.type ≠ .tradingResumed) : HaltStands (records ++ more) := by
  obtain ⟨before, halt, after, rfl, htype, hafter⟩ := h
  refine ⟨before, halt, after ++ more, by simp, htype, fun r hr => ?_⟩
  rcases List.mem_append.mp hr with hr | hr
  · exact hafter r hr
  · exact hmore r hr

theorem observeEquity_halted (state : RiskControlState) (capital : Option CapitalSnapshot) :
    (observeEquity state capital).halted = state.halted := by
  cases capital <;> rfl

theorem applyRiskRecord_engages {record : RiskJournalRecord} (state : RiskControlState)
    (h : record.type = .tradingHalted ∨ record.type = .killSwitchTriggered) :
    (applyRiskRecord state record).halted = true := by
  rcases h with h | h <;>
  · rw [applyRiskRecord, h]
    dsimp only
    split
    · assumption
    · rfl

theorem applyRiskRecord_stays {record : RiskJournalRecord} {state : RiskControlState}
    (hstate : state.halted = true) (h : record.type ≠ .tradingResumed) :
    (applyRiskRecord state record).halted = true := by
  have hobserved := (observeEquity_halted state record.capital).trans hstate
  rw [applyRiskRecord]
  cases htype : record.type <;> dsimp only
  case tradingResumed => exact absurd htype h
  case killSwitchTriggered | tradingHalted =>
    rw [if_pos hobserved]
    exact hobserved
  all_goals exact hobserved

/-- The fold of a journal in which a halt stands is halted. -/
theorem HaltStands.halted {records : List RiskJournalRecord} (h : HaltStands records) :
    (reconstructRiskState records).halted = true := by
  obtain ⟨before, halt, after, rfl, htype, hafter⟩ := h
  rw [reconstructRiskState, List.foldl_append, List.foldl_cons]
  have hengaged := applyRiskRecord_engages (before.foldl applyRiskRecord initialRiskControlState) htype
  generalize applyRiskRecord _ halt = state at hengaged
  induction after generalizing state with
  | nil => exact hengaged
  | cons r rs ih =>
      rw [List.foldl_cons]
      exact ih (fun r' hr' => hafter r' (List.mem_cons_of_mem r hr')) _
        (applyRiskRecord_stays hengaged (hafter r List.mem_cons_self))

/-! ## What a call appends -/

/-- The inputs a call appends in a given control state. -/
def RiskCommand.inputs (cfg : RiskEngineConfig) (state : RiskControlState) :
    RiskCommand → List RiskJournalInput
  | .evaluate order view health _ =>
      let capital := buildCapitalSnapshot view.account view.positions cfg.accountConfig
      assessmentInputs order capital (assess cfg state order view health capital)
  | .halt detail trigger capital _ => haltInputs detail trigger capital
  | .reset detail _ => [resetInput detail]
  | .restart => []

/-- How the appends of a call end. -/
def RiskCommand.writes : RiskCommand → List Write
  | .evaluate _ _ _ disk | .halt _ _ _ disk | .reset _ disk => disk.writes
  | .restart => []

/-- The types of the records a halt writes. -/
def RiskEventType.isHaltStep : RiskEventType → Bool
  | .drawdownLimitBreached | .leverageLimitBreached | .killSwitchTriggered | .tradingHalted => true
  | _ => false

theorem haltInputs_isHaltStep {detail : String} {trigger : Option KillSwitchTrigger}
    {capital : Option CapitalSnapshot} {input : RiskJournalInput}
    (h : input ∈ haltInputs detail trigger capital) : input.type.isHaltStep := by
  -- The record of the breach, that of the trigger, and the halt itself.
  rcases List.mem_append.mp h with h | h
  · rcases List.mem_append.mp h with h | h
    · obtain ⟨type, htype, rfl⟩ := List.mem_map.mp h
      rw [Option.mem_toList] at htype
      have hbreach : ∀ t ∈ killSwitchTriggers, ∀ type ∈ breachType (some t), type.isHaltStep := by
        decide
      cases trigger with
      | none => cases htype
      | some t => exact hbreach t (by cases t <;> decide) type htype
    · obtain ⟨t, -, rfl⟩ := List.mem_map.mp h
      rfl
  · obtain rfl := List.mem_singleton.mp h
    rfl

theorem haltInputs_not_resumed {detail : String} {trigger : Option KillSwitchTrigger}
    {capital : Option CapitalSnapshot} {input : RiskJournalInput}
    (h : input ∈ haltInputs detail trigger capital) : input.type ≠ .tradingResumed := by
  intro hresumed
  have hstep := haltInputs_isHaltStep h
  rw [hresumed] at hstep
  cases hstep

/-- The gate's own event is never a resume, so neither is the record of a refused order. -/
theorem assess_eventType {cfg : RiskEngineConfig} {state : RiskControlState} {order : ProposedOrder}
    {view : MarketView} {health : HealthSignals} {capital : CapitalSnapshot} {reason : GateReason}
    {eventType : RiskEventType} {detail : String} {checks : List GateCheck}
    (h : assess cfg state order view health capital =
      .judged (.blocked reason eventType detail checks)) : eventType.isGateOutcome := by
  unfold assess at h
  split at h
  · cases h
  · dsimp only at h
    split at h
    · cases h
    · exact evaluatePreTrade_eventType (Assessment.judged.inj h)

theorem assessmentInputs_not_resumed {cfg : RiskEngineConfig} {state : RiskControlState}
    {order : ProposedOrder} {view : MarketView} {health : HealthSignals} {capital : CapitalSnapshot}
    {input : RiskJournalInput}
    (h : input ∈ assessmentInputs order capital (assess cfg state order view health capital)) :
    input.type ≠ .tradingResumed := by
  cases hassess : assess cfg state order view health capital with
  | halted =>
      rw [hassess] at h
      cases h
  | tripped trip =>
      rw [hassess] at h
      exact haltInputs_not_resumed h
  | judged verdict =>
      rw [hassess] at h
      cases verdict with
      | approved checks =>
          obtain rfl := List.mem_singleton.mp h
          rintro ⟨⟩
      | blocked reason eventType detail checks =>
          -- Besides the failed check there may be a second record, of the type the gate names.
          have hgate := assess_eventType hassess
          rcases List.mem_cons.mp h with rfl | h
          · rintro ⟨⟩
          · split at h
            · cases h
            · obtain rfl := List.mem_singleton.mp h
              rintro rfl
              cases hgate

/-- A trading resume is appended by a reset only. -/
theorem inputs_resumed {cfg : RiskEngineConfig} {state : RiskControlState} {command : RiskCommand}
    {input : RiskJournalInput} (h : input ∈ command.inputs cfg state)
    (hresumed : input.type = .tradingResumed) : ∃ detail disk, command = .reset detail disk := by
  cases command with
  | restart => cases h
  | reset detail disk => exact ⟨detail, disk, rfl⟩
  | halt detail trigger capital disk => exact absurd hresumed (haltInputs_not_resumed h)
  | evaluate order view health disk => exact absurd hresumed (assessmentInputs_not_resumed h)

theorem haltInputs_capital {detail : String} {trigger : Option KillSwitchTrigger}
    {capital : Option CapitalSnapshot} {input : RiskJournalInput}
    (h : input ∈ haltInputs detail trigger capital) : input.capital = capital := by
  rcases List.mem_append.mp h with h | h
  · rcases List.mem_append.mp h with h | h <;> obtain ⟨_, -, rfl⟩ := List.mem_map.mp h <;> rfl
  · obtain rfl := List.mem_singleton.mp h
    rfl

theorem assessmentInputs_capital {order : ProposedOrder} {capital : CapitalSnapshot}
    {assessment : Assessment} {input : RiskJournalInput}
    (h : input ∈ assessmentInputs order capital assessment) : input.capital = some capital := by
  cases assessment with
  | halted => cases h
  | tripped trip => exact haltInputs_capital h
  | judged verdict =>
      cases verdict with
      | approved checks =>
          obtain rfl := List.mem_singleton.mp h
          rfl
      | blocked reason eventType detail checks =>
          rcases List.mem_cons.mp h with rfl | h
          · rfl
          · split at h
            · cases h
            · obtain rfl := List.mem_singleton.mp h
              rfl

/-- Every record an evaluation appends is admitted when it is read back. -/
theorem evaluate_inputs_admitted {cfg : RiskEngineConfig} {state : RiskControlState}
    {order : ProposedOrder} {view : MarketView} {health : HealthSignals} {disk : Disk}
    {input : RiskJournalInput}
    (h : input ∈ (RiskCommand.evaluate order view health disk).inputs cfg state) (seq : ℕ) :
    assertValidRiskJournalRecord { input with seq : RiskJournalRecord }.toJson = none := by
  refine (assertValid_toJson _).mpr fun c hc => ?_
  rw [show input.capital = some _ from assessmentInputs_capital h] at hc
  obtain rfl := Option.some.inj hc
  exact canonical_buildCapitalSnapshot _ _ _

section Calls

variable (texts : FileRiskEventStore.Texts) (cfg : RiskEngineConfig)

theorem halt_store (e : RiskEngine) (detail : String) (trigger : Option KillSwitchTrigger)
    (capital : Option CapitalSnapshot) (disk : Disk) :
    (halt texts e detail trigger capital disk).engine.store =
        (appendEach texts e (haltInputs detail trigger capital) disk.writes).engine.store ∧
      (halt texts e detail trigger capital disk).journaled =
        (appendEach texts e (haltInputs detail trigger capital) disk.writes).journaled := by
  unfold halt
  dsimp only
  split <;> exact ⟨rfl, rfl⟩

theorem evaluate_store (e : RiskEngine) (order : ProposedOrder) (view : MarketView)
    (health : HealthSignals) (disk : Disk) :
    (evaluate texts cfg e order view health disk).engine.store =
        (appendEach texts e ((RiskCommand.evaluate order view health disk).inputs cfg e.state)
          disk.writes).engine.store ∧
      (evaluate texts cfg e order view health disk).journaled =
        (appendEach texts e ((RiskCommand.evaluate order view health disk).inputs cfg e.state)
          disk.writes).journaled := by
  unfold evaluate RiskCommand.inputs
  dsimp only
  cases assess cfg e.state order view health
      (buildCapitalSnapshot view.account view.positions cfg.accountConfig) with
  | halted => exact ⟨rfl, rfl⟩
  | tripped trip => exact halt_store texts e trip.detail (some trip.trigger) _ disk
  | judged verdict => cases verdict <;> exact ⟨rfl, rfl⟩

/-- A call moves the file and the completed records as its appends do. -/
theorem step_of_running {s : RiskSystem} {state : RiskControlState} (hstate : s.state = some state)
    {command : RiskCommand} (hcall : command ≠ .restart) :
    (s.step texts cfg command).store =
        (appendEach texts ⟨s.store, state⟩ (command.inputs cfg state) command.writes).engine.store ∧
      (s.step texts cfg command).completed = s.completed ++
        (appendEach texts ⟨s.store, state⟩ (command.inputs cfg state) command.writes).journaled := by
  unfold RiskSystem.step
  rw [hstate]
  -- Each call makes the appends of its inputs and nothing else touches the store.
  cases command with
  | restart => exact absurd rfl hcall
  | evaluate order view health disk =>
      obtain ⟨hstore, hjournaled⟩ := evaluate_store texts cfg ⟨s.store, state⟩ order view health disk
      exact ⟨hstore, congrArg _ hjournaled⟩
  | halt detail trigger capital disk =>
      obtain ⟨hstore, hjournaled⟩ := halt_store texts ⟨s.store, state⟩ detail trigger capital disk
      exact ⟨hstore, congrArg _ hjournaled⟩
  | reset detail disk => exact ⟨rfl, rfl⟩

/-- Without a running engine, and by a restart, neither the file nor the records move. -/
theorem step_of_idle {s : RiskSystem} {command : RiskCommand}
    (h : s.state = none ∨ command = .restart) :
    (s.step texts cfg command).store.file = s.store.file ∧
      (s.step texts cfg command).completed = s.completed := by
  rcases h with h | rfl
  · unfold RiskSystem.step
    rw [h]
    cases command <;> exact ⟨rfl, rfl⟩
  · exact ⟨rfl, rfl⟩

/-! ## Contained calls -/

/-- A record that does not resume trading may be left without its line feed. -/
def NotResumed (r : RiskJournalRecord) : Prop := r.type ≠ .tradingResumed

instance : DecidablePred NotResumed := fun r => inferInstanceAs (Decidable (r.type ≠ _))

/-- Every append of a series that is made is contained: none behind a torn line, and none that
fails with the whole text of a resume written. -/
def EachContained (e : RiskEngine) : List RiskJournalInput → List Write → Prop
  | [], _ => True
  | input :: inputs, writes =>
      Contained riskFormat texts NotResumed e.store input (writes.headD .complete) ∧
        ((appendAndFold texts e input (writes.headD .complete)).1.isSome →
          EachContained (appendAndFold texts e input (writes.headD .complete)).2 inputs writes.tail)

instance instDecidableEachContained : ∀ (e : RiskEngine) (inputs : List RiskJournalInput)
    (writes : List Write), Decidable (EachContained texts e inputs writes)
  | _, [], _ => .isTrue trivial
  | e, input :: inputs, writes =>
      have := instDecidableEachContained
        (appendAndFold texts e input (writes.headD .complete)).2 inputs writes.tail
      inferInstanceAs (Decidable (_ ∧ (_ → _)))

/-- The condition on a command: the appends it makes are contained. -/
def ContainedCall (s : RiskSystem) (command : RiskCommand) : Prop :=
  ∀ state ∈ s.state,
    EachContained texts ⟨s.store, state⟩ (command.inputs cfg state) command.writes

instance (s : RiskSystem) (command : RiskCommand) : Decidable (ContainedCall texts cfg s command) := by
  dsimp only [ContainedCall]; infer_instance

variable {texts cfg}

theorem appendAndFold_eq (e : RiskEngine) (input : RiskJournalInput) (write : Write) :
    (appendAndFold texts e input write).1 = (append riskFormat texts e.store input write).1 ∧
      (appendAndFold texts e input write).2.store =
        (append riskFormat texts e.store input write).2 := by
  unfold appendAndFold FileRiskEventStore.append
  split <;> rename_i heq <;> rw [heq] <;> exact ⟨rfl, rfl⟩

/-- The records of a series of appends are its inputs with their numbers, all of them when none
fails and fewer when one does. -/
theorem appendEach_inputs (e : RiskEngine) (inputs : List RiskJournalInput) (writes : List Write) :
    (appendEach texts e inputs writes).journaled.map (·.toRiskJournalInput) <+: inputs ∧
    ((appendEach texts e inputs writes).failed = false ↔
      (appendEach texts e inputs writes).journaled.length = inputs.length) := by
  -- On the inputs; the first append that fails ends the series.
  induction inputs generalizing e writes with
  | nil => exact ⟨List.prefix_refl _, by simp [appendEach]⟩
  | cons input inputs ih =>
      obtain ⟨hrecord, -⟩ := @appendAndFold_eq texts e input (writes.headD .complete)
      rw [appendEach]
      revert hrecord
      rcases appendAndFold texts e input (writes.headD .complete) with ⟨record | record, e'⟩
      · intro _
        exact ⟨List.nil_prefix, by simp⟩
      · intro hrecord
        obtain ⟨n, rfl⟩ := append_eq_withSeq hrecord.symm
        obtain ⟨hrest, hlength⟩ := ih e' writes.tail
        refine ⟨?_, by simpa using hlength⟩
        rw [List.map_cons, List.cons_prefix_cons]
        exact ⟨rfl, hrest⟩

theorem mem_inputs_of_journaled {e : RiskEngine} {inputs : List RiskJournalInput}
    {writes : List Write} {r : RiskJournalRecord}
    (h : r ∈ (appendEach texts e inputs writes).journaled) : r.toRiskJournalInput ∈ inputs :=
  (appendEach_inputs e inputs writes).1.subset (List.mem_map_of_mem h)

/-- Until a reset completes its append, no resume is among the completed records. -/
theorem resumed_only_by_reset {s : RiskSystem} {command : RiskCommand} {r : RiskJournalRecord}
    (h : r ∈ (s.step texts cfg command).completed) (hresumed : r.type = .tradingResumed) :
    r ∈ s.completed ∨ ∃ detail disk, command = .reset detail disk := by
  by_cases hidle : s.state = none ∨ command = .restart
  · rw [(step_of_idle texts cfg hidle).2] at h
    exact .inl h
  · obtain ⟨hrunning, hcall⟩ := not_or.mp hidle
    obtain ⟨state, hstate⟩ := Option.ne_none_iff_exists'.mp hrunning
    rw [(step_of_running texts cfg hstate hcall).2] at h
    rcases List.mem_append.mp h with h | h
    · exact .inl h
    · exact .inr (inputs_resumed (mem_inputs_of_journaled h) hresumed)

/-- Contained appends keep the layout of the file. -/
theorem laid_appendEach {inputs : List RiskJournalInput} {writes : List Write} {e : RiskEngine}
    {completed : List RiskJournalRecord}
    (hlaid : Laid riskFormat texts NotResumed e.store.file completed)
    (h : EachContained texts e inputs writes) :
    Laid riskFormat texts NotResumed (appendEach texts e inputs writes).engine.store.file
      (completed ++ (appendEach texts e inputs writes).journaled) := by
  induction inputs generalizing e writes completed with
  | nil => simpa [appendEach] using hlaid
  | cons input inputs ih =>
      obtain ⟨hcontained, hrest⟩ := h
      have hfirst := hlaid.append hcontained
      -- Folding a record changes the state in memory only: for the file it is an append.
      obtain ⟨hrecord, hstore⟩ := appendAndFold_eq e input (writes.headD .complete)
      rw [← hrecord, ← hstore] at hfirst
      rw [appendEach]
      revert hfirst hrest
      rcases appendAndFold texts e input (writes.headD .complete) with ⟨record | record, e'⟩
      · intro _ hfirst
        exact hfirst
      · intro hrest hfirst
        have hlast := ih hfirst (hrest rfl)
        rwa [Option.toList_some, List.append_assoc, List.singleton_append] at hlast

theorem laid_step {s : RiskSystem} {command : RiskCommand}
    (hlaid : Laid riskFormat texts NotResumed s.store.file s.completed)
    (h : ContainedCall texts cfg s command) :
    Laid riskFormat texts NotResumed (s.step texts cfg command).store.file
      (s.step texts cfg command).completed := by
  by_cases hidle : s.state = none ∨ command = .restart
  · obtain ⟨hfile, hcompleted⟩ := step_of_idle texts cfg hidle
    rwa [hfile, hcompleted]
  · obtain ⟨hrunning, hcall⟩ := not_or.mp hidle
    obtain ⟨state, hstate⟩ := Option.ne_none_iff_exists'.mp hrunning
    obtain ⟨hstore, hcompleted⟩ := step_of_running texts cfg hstate hcall
    rw [hstore, hcompleted]
    exact laid_appendEach hlaid (h state hstate)

/-! ## Recovery -/

/-- A recovery that returns has folded the completed records, and perhaps one more that does not
resume trading. -/
theorem recoverRiskState_laid {file : Bytes} {completed : List RiskJournalRecord}
    (hlaid : Laid riskFormat texts NotResumed file completed) {recovered : RecoveredRiskState}
    (h : recoverRiskState texts file = .ok recovered) :
    ∃ more, (∀ r ∈ more, NotResumed r) ∧
      recovered.state = reconstructRiskState (completed ++ more) := by
  unfold recoverRiskState at h
  split at h
  · cases h
  · rename_i values hread
    -- `more` is the record of a last line that lacks only its line feed.
    obtain ⟨more, hmore, rfl⟩ := hlaid.readAll_ok hread
    have htyped : ((completed ++ more).map riskFormat.toJson).mapM RiskJournalRecord.ofJson? =
        some (completed ++ more) :=
      Json.mapM_map RiskJournalRecord.ofJson?_toJson _
    rw [htyped] at h
    cases h
    exact ⟨more, hmore, rfl⟩

/-- In every run of contained calls, at every point: while a journaled halt stands, a recovery that
returns is halted. -/
theorem halt_survives_recovery (commands visited : List RiskCommand)
    (h : RunMeets (RiskSystem.step texts cfg) (ContainedCall texts cfg) initialRiskSystem commands)
    (hvisited : visited <+: commands)
    (hstands : HaltStands (run (RiskSystem.step texts cfg) initialRiskSystem visited).completed)
    (recovered : RecoveredRiskState)
    (hrecover : recoverRiskState texts
      (run (RiskSystem.step texts cfg) initialRiskSystem visited).store.file = .ok recovered) :
    recovered.state.halted = true := by
  obtain ⟨rest, rfl⟩ := hvisited
  -- The layout of the file is the invariant; that the halt stands is then a matter of the records.
  have hlaid : Laid riskFormat texts NotResumed
      (run (RiskSystem.step texts cfg) initialRiskSystem visited).store.file
      (run (RiskSystem.step texts cfg) initialRiskSystem visited).completed :=
    @run_invariant _ _ _ _ initialRiskSystem
      (fun s : RiskSystem => Laid riskFormat texts NotResumed s.store.file s.completed)
      (fun _ _ hs hcall => laid_step hs hcall) visited ⟨[], rfl, .inl (.inl rfl)⟩ h.of_append
  obtain ⟨more, hmore, hstate⟩ := recoverRiskState_laid hlaid hrecover
  rw [hstate]
  exact (hstands.append hmore).halted

end Calls

/-- The engine with the defaults of the source. -/
def sampleConfig : RiskEngineConfig := ⟨defaultRiskLimits, defaultAccountConfig⟩

abbrev sampleStep : RiskSystem → RiskCommand → RiskSystem :=
  RiskSystem.step FileRiskEventStore.jsonTexts sampleConfig

def manualHalt (disk : Disk) : RiskCommand := .halt "manual" none none disk

/-- An operator halts, the reset that follows fails after one byte, and the process restarts. -/
def haltedRun : List RiskCommand :=
  [manualHalt ⟨[.complete], ""⟩, .reset "operator reset" ⟨[.torn 1], "ENOSPC"⟩, .restart]

theorem halt_survives_recovery_haltedRun :
    RunMeets sampleStep (ContainedCall FileRiskEventStore.jsonTexts sampleConfig) initialRiskSystem
        haltedRun ∧
      ∃ recovered, recoverRiskState FileRiskEventStore.jsonTexts
          (run sampleStep initialRiskSystem haltedRun).store.file = .ok recovered ∧
        recovered.state.halted = true := by
  have hcontained : RunMeets sampleStep (ContainedCall FileRiskEventStore.jsonTexts sampleConfig)
      initialRiskSystem haltedRun := by
    decide +kernel
  have hcompleted : (run sampleStep initialRiskSystem haltedRun).completed =
      [⟨⟨.tradingHalted, "MANUAL", "manual", none, none, none, none⟩, 0⟩] := by
    decide +kernel
  have hstands : HaltStands (run sampleStep initialRiskSystem haltedRun).completed := by
    rw [hcompleted]
    exact ⟨[], _, [], rfl, .inl rfl, by simp⟩
  have hok : (recoverRiskState FileRiskEventStore.jsonTexts
      (run sampleStep initialRiskSystem haltedRun).store.file).toOption.isSome := by
    decide +kernel
  refine ⟨hcontained, ?_⟩
  cases hrecover : recoverRiskState FileRiskEventStore.jsonTexts
      (run sampleStep initialRiskSystem haltedRun).store.file with
  | error e =>
      rw [hrecover] at hok
      cases hok
  | ok recovered =>
      exact ⟨recovered, rfl, halt_survives_recovery haltedRun haltedRun hcontained
        (List.prefix_refl _) hstands recovered hrecover⟩

/-- The first halt is torn after one byte, the process restarts, and an operator halts again. -/
def tornHaltRun : List RiskCommand :=
  [manualHalt ⟨[.torn 1], "ENOSPC"⟩, .restart, manualHalt ⟨[.complete], ""⟩]

/-- The halt behind the torn line was appended in full and is not recovered. -/
theorem halt_behind_torn_line_forgotten :
    HaltStands (run sampleStep initialRiskSystem tornHaltRun).completed ∧
      (recoverRiskState FileRiskEventStore.jsonTexts
        (run sampleStep initialRiskSystem tornHaltRun).store.file).toOption.map (·.state.halted) =
          some false := by
  have hcompleted : (run sampleStep initialRiskSystem tornHaltRun).completed =
      [⟨⟨.tradingHalted, "MANUAL", "manual", none, none, none, none⟩, 0⟩] := by
    decide +kernel
  refine ⟨?_, by decide +kernel⟩
  rw [hcompleted]
  exact ⟨[], _, [], rfl, .inl rfl, by simp⟩

end NexusQuant.Risk
