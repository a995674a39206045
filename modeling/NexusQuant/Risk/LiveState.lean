import NexusQuant.Risk.Approval

/-!
# The live state and the journal

One process, its calls one after the other, and a disk on which any append may fail.  The live state
is the fold of the records whose append completed, up to the halt that a failed journaling leaves in
memory.  From this follow the three parts of `live_state_journaled`: without a failure the live state
is the replayed one, a halt stays until a reset is journaled, and the amounts and counters are those
of the journal in any case.
-/

namespace NexusQuant.Risk

open Execution Journal Market Rounding Run

/-! ## What a fold of records says -/

/-- The equities of the capital snapshots that were journaled. -/
def equities (records : List RiskJournalRecord) : List ℚ :=
  (records.filterMap (·.capital)).map fun c => parseDecimal c.accountEquity

def countOf (type : RiskEventType) (records : List RiskJournalRecord) : ℕ :=
  (records.filter fun r => r.type = type).length

/-- The amounts and counters of a state are those of the records. -/
structure Tallied (records : List RiskJournalRecord) (state : RiskControlState) : Prop where
  baseline : state.baselineEquity.map parseDecimal = (equities records).head?
  peak : state.peakEquity.map parseDecimal = (equities records).max?
  passed : state.checksPassed = countOf .riskCheckPassed records
  failed : state.checksFailed = countOf .riskCheckFailed records

theorem parseDecimal_quantizePnl {s : String} (h : isCanonicalDecimalString s notionalDp) :
    parseDecimal (quantizePnl (parseDecimal s)) = parseDecimal s := by
  rw [quantizePnl, quantizeNotional, parseDecimal_quantize (by decide),
    roundTo_eq_self (parseDecimal_mem_grid h)]

theorem max?_concat (xs : List ℚ) (x : ℚ) :
    (xs ++ [x]).max? = some ((xs.max?.map fun m => max m x).getD x) := by
  cases xs with
  | nil => rfl
  | cons y ys =>
      rw [List.cons_append, List.max?_cons', List.foldl_append, List.max?_cons']
      rfl

theorem equities_concat (records : List RiskJournalRecord) (r : RiskJournalRecord) :
    equities (records ++ [r]) =
      equities records ++ (r.capital.map fun c => parseDecimal c.accountEquity).toList := by
  unfold equities
  rw [List.filterMap_append, List.map_append]
  cases hcapital : r.capital with
  | none => simp [hcapital]
  | some c => simp [hcapital]

theorem countOf_append (type : RiskEventType) (records more : List RiskJournalRecord) :
    countOf type (records ++ more) = countOf type records + countOf type more := by
  unfold countOf
  rw [List.filter_append, List.length_append]

theorem countOf_singleton (type : RiskEventType) (r : RiskJournalRecord) :
    countOf type [r] = if r.type = type then 1 else 0 := by
  unfold countOf
  by_cases h : r.type = type
  · simp [h]
  · simp [h]

/-- The equity observed from a record. -/
theorem tallied_observeEquity {records : List RiskJournalRecord} {state : RiskControlState}
    {r : RiskJournalRecord} (h : Tallied records state) (hcanon : ∀ c ∈ r.capital, c.Canonical) :
    (observeEquity state r.capital).baselineEquity.map parseDecimal =
        (equities (records ++ [r])).head? ∧
      (observeEquity state r.capital).peakEquity.map parseDecimal =
        (equities (records ++ [r])).max? := by
  rw [equities_concat]
  -- A record without capital observes nothing.
  cases hcapital : r.capital with
  | none =>
      rw [Option.map_none, Option.toList_none, List.append_nil]
      exact ⟨h.baseline, h.peak⟩
  | some c =>
      have hequity := parseDecimal_quantizePnl (hcanon c hcapital).accountEquity
      rw [Option.map_some, Option.toList_some, max?_concat, List.head?_append, ← h.baseline, ← h.peak]
      refine ⟨?_, ?_⟩
      -- The baseline is set once; the peak only moves up.
      · cases hbase : state.baselineEquity with
        | none => simp [observeEquity, hbase, hequity]
        | some b => simp [observeEquity, hbase]
      · cases hpeak : state.peakEquity with
        | none => simp [observeEquity, hpeak, hequity]
        | some p =>
            by_cases hnew : parseDecimal c.accountEquity > parseDecimal p
            · simp [observeEquity, hpeak, hnew, hequity, le_of_lt hnew]
            · simp [observeEquity, hpeak, hnew, not_lt.mp hnew]

/-- What a record does to the amounts and the counters, whatever it does to the halt. -/
theorem applyRiskRecord_tallies (state : RiskControlState) (r : RiskJournalRecord) :
    (applyRiskRecord state r).baselineEquity = (observeEquity state r.capital).baselineEquity ∧
    (applyRiskRecord state r).peakEquity = (observeEquity state r.capital).peakEquity ∧
    (applyRiskRecord state r).checksPassed =
      state.checksPassed + (if r.type = .riskCheckPassed then 1 else 0) ∧
    (applyRiskRecord state r).checksFailed =
      state.checksFailed + (if r.type = .riskCheckFailed then 1 else 0) := by
  -- Observing the equity leaves the counters alone, so the type of the record decides.
  have hcounters : (observeEquity state r.capital).checksPassed = state.checksPassed ∧
      (observeEquity state r.capital).checksFailed = state.checksFailed := by
    cases r.capital <;> exact ⟨rfl, rfl⟩
  rw [← hcounters.1, ← hcounters.2]
  unfold applyRiskRecord
  cases htype : r.type <;> dsimp only
  case killSwitchTriggered | tradingHalted => split <;> exact ⟨rfl, rfl, rfl, rfl⟩
  all_goals exact ⟨rfl, rfl, rfl, rfl⟩

/-- One record more. -/
theorem Tallied.concat {records : List RiskJournalRecord} {state : RiskControlState}
    {r : RiskJournalRecord} (h : Tallied records state) (hcanon : ∀ c ∈ r.capital, c.Canonical) :
    Tallied (records ++ [r]) (applyRiskRecord state r) := by
  obtain ⟨hbaseline, hpeak⟩ := tallied_observeEquity h hcanon
  obtain ⟨hsameBase, hsamePeak, hpassed, hfailed⟩ := applyRiskRecord_tallies state r
  exact
    { baseline := by rw [hsameBase, hbaseline]
      peak := by rw [hsamePeak, hpeak]
      passed := by rw [hpassed, countOf_append, countOf_singleton, h.passed]
      failed := by rw [hfailed, countOf_append, countOf_singleton, h.failed] }

theorem Tallied.foldl {records more : List RiskJournalRecord} {state : RiskControlState}
    (h : Tallied records state) (hcanon : ∀ r ∈ more, ∀ c ∈ r.capital, c.Canonical) :
    Tallied (records ++ more) (more.foldl applyRiskRecord state) := by
  induction more generalizing records state with
  | nil => simpa using h
  | cons r rs ih =>
      have hrest := ih (h.concat (hcanon r List.mem_cons_self))
        fun r' hr' => hcanon r' (List.mem_cons_of_mem r hr')
      rwa [List.append_assoc, List.singleton_append] at hrest

/-! ## One call -/

/-- Two states that agree on the amounts and the counters. -/
def SameTallies (a b : RiskControlState) : Prop :=
  a.baselineEquity = b.baselineEquity ∧ a.peakEquity = b.peakEquity ∧
    a.checksPassed = b.checksPassed ∧ a.checksFailed = b.checksFailed

theorem Tallied.of_same {records : List RiskJournalRecord} {a b : RiskControlState}
    (h : Tallied records a) (hsame : SameTallies a b) : Tallied records b := by
  obtain ⟨hbase, hpeak, hpassed, hfailed⟩ := hsame
  exact ⟨hbase ▸ h.baseline, hpeak ▸ h.peak, hpassed ▸ h.passed, hfailed ▸ h.failed⟩

section Calls

variable (texts : FileRiskEventStore.Texts) (cfg : RiskEngineConfig)

/-- The appends of a call on a running engine. -/
def callAppends (s : RiskSystem) (state : RiskControlState) (command : RiskCommand) : Journaling :=
  appendEach texts ⟨s.store, state⟩ (command.inputs cfg state) command.writes

theorem appendEach_state (e : RiskEngine) (inputs : List RiskJournalInput) (writes : List Write) :
    (appendEach texts e inputs writes).engine.state =
      (appendEach texts e inputs writes).journaled.foldl applyRiskRecord e.state := by
  induction inputs generalizing e writes with
  | nil => rfl
  | cons input inputs ih =>
      rw [appendEach]
      unfold appendAndFold
      rcases FileRiskEventStore.append texts e.store input (writes.headD .complete) with
        ⟨record | record, store⟩
      · rfl
      · exact ih ⟨store, applyRiskRecord e.state record⟩ writes.tail

/-- The state after a halt: the fold of its records, or, when one of them was not written, halted in
memory on top of it. -/
theorem halt_state (e : RiskEngine) (detail : String) (trigger : Option KillSwitchTrigger)
    (capital : Option CapitalSnapshot) (disk : Disk) :
    let j := appendEach texts e (haltInputs detail trigger capital) disk.writes
    let state := (halt texts e detail trigger capital disk).engine.state
    (j.failed = false ∧ state = j.journaled.foldl applyRiskRecord e.state) ∨
    (j.failed = true ∧ state.halted = true ∧
      SameTallies (j.journaled.foldl applyRiskRecord e.state) state) := by
  dsimp only
  unfold halt
  rw [← appendEach_state]
  -- A failed append leaves the fold incomplete, and the engine halts in memory instead.
  by_cases hfailed : (appendEach texts e (haltInputs detail trigger capital) disk.writes).failed
  · rw [if_pos hfailed]
    exact .inr ⟨hfailed, rfl, rfl, rfl, rfl, rfl⟩
  · rw [if_neg hfailed]
    exact .inl ⟨Bool.not_eq_true _ ▸ hfailed, rfl⟩

/-- The state after any call: the fold of the records it completed, or a halt in memory on top of
it after a failure. -/
theorem call_state {s : RiskSystem} {state : RiskControlState} (hstate : s.state = some state)
    {command : RiskCommand} (hcall : command ≠ .restart) :
    ∃ state', (s.step texts cfg command).state = some state' ∧
      (state' = (callAppends texts cfg s state command).journaled.foldl applyRiskRecord state ∨
        ((callAppends texts cfg s state command).failed = true ∧ state'.halted = true ∧
          SameTallies
            ((callAppends texts cfg s state command).journaled.foldl applyRiskRecord state)
            state')) := by
  unfold RiskSystem.step
  rw [hstate]
  -- A halt, called or tripped by an evaluation, is the one command that still changes the memory
  -- when an append fails.
  have hhalt : ∀ detail trigger capital disk,
      let j := appendEach texts ⟨s.store, state⟩ (haltInputs detail trigger capital) disk.writes
      let state' := (halt texts ⟨s.store, state⟩ detail trigger capital disk).engine.state
      state' = j.journaled.foldl applyRiskRecord state ∨
        (j.failed = true ∧ state'.halted = true ∧
          SameTallies (j.journaled.foldl applyRiskRecord state) state') := by
    intro detail trigger capital disk
    rcases halt_state texts ⟨s.store, state⟩ detail trigger capital disk with h | h
    · exact .inl h.2
    · exact .inr h
  cases command with
  | restart => exact absurd rfl hcall
  | halt detail trigger capital disk => exact ⟨_, rfl, hhalt detail trigger capital disk⟩
  | reset detail disk => exact ⟨_, rfl, .inl (appendEach_state texts _ _ _)⟩
  | evaluate order view health disk =>
      refine ⟨_, rfl, ?_⟩
      show (evaluate texts cfg ⟨s.store, state⟩ order view health disk).engine.state = _ ∨ _
      unfold callAppends RiskCommand.inputs RiskCommand.writes evaluate
      dsimp only
      cases assess cfg state order view health
          (buildCapitalSnapshot view.account view.positions cfg.accountConfig) with
      | halted => exact .inl rfl
      | tripped trip => exact hhalt trip.detail (some trip.trigger) _ disk
      | judged verdict => cases verdict <;> exact .inl (appendEach_state texts _ _ _)

/-! ## The halt -/

/-- The command is a reset that returns: its resume was appended. -/
def CompletedReset (s : RiskSystem) : RiskCommand → Prop
  | .reset detail disk => ∀ state ∈ s.state, (reset texts ⟨s.store, state⟩ detail disk).result = .ok ()
  | _ => False

variable {texts cfg}

theorem reset_ok {e : RiskEngine} {detail : String} {disk : Disk}
    (h : (appendEach texts e [resetInput detail] disk.writes).journaled ≠ []) :
    (reset texts e detail disk).result = .ok () := by
  obtain ⟨hpart, hlength⟩ := @appendEach_inputs texts e [resetInput detail] disk.writes
  -- the only input was appended
  have hle := hpart.length_le
  rw [List.length_map] at hle
  have hdone := hlength.mpr (le_antisymm hle (List.length_pos_iff.mpr h))
  show (if _ then _ else _) = _
  rw [hdone]
  rfl

/-- A call that is no completed reset writes no resume. -/
theorem journaled_not_resumed {s : RiskSystem} {state : RiskControlState}
    (hstate : s.state = some state) {command : RiskCommand}
    (hreset : ¬ CompletedReset texts s command) :
    ∀ r ∈ (callAppends texts cfg s state command).journaled, r.type ≠ .tradingResumed := by
  intro r hr hresumed
  obtain ⟨detail, disk, rfl⟩ := inputs_resumed (mem_inputs_of_journaled hr) hresumed
  apply hreset
  intro state' hstate'
  rw [hstate] at hstate'
  cases hstate'
  exact reset_ok (List.ne_nil_of_mem hr)

theorem foldl_stays {records : List RiskJournalRecord} {state : RiskControlState}
    (hstate : state.halted = true) (h : ∀ r ∈ records, r.type ≠ .tradingResumed) :
    (records.foldl applyRiskRecord state).halted = true := by
  induction records generalizing state with
  | nil => exact hstate
  | cons r rs ih =>
      exact ih (applyRiskRecord_stays hstate (h r List.mem_cons_self))
        fun r' hr' => h r' (List.mem_cons_of_mem r hr')

/-- A halted engine. -/
def HaltedEngine (s : RiskSystem) : Prop := ∃ state, s.state = some state ∧ state.halted = true

theorem halted_stays {s : RiskSystem} {command : RiskCommand} (h : HaltedEngine s)
    (hcall : command ≠ .restart ∧ ¬ CompletedReset texts s command) :
    HaltedEngine (s.step texts cfg command) := by
  obtain ⟨state, hstate, hhalted⟩ := h
  obtain ⟨state', hstep, hfold | hmemory⟩ := call_state texts cfg hstate hcall.1
  · refine ⟨state', hstep, ?_⟩
    rw [hfold]
    exact foldl_stays hhalted (journaled_not_resumed hstate hcall.2)
  · exact ⟨state', hstep, hmemory.2.1⟩

/-- A halted engine refuses every order. -/
theorem evaluate_halted {e : RiskEngine} (h : e.state.halted = true) (order : ProposedOrder)
    (view : MarketView) (health : HealthSignals) (disk : Disk) :
    ∃ detail capital, (evaluate texts cfg e order view health disk).result =
      .ok (.refused .tradingHalted .tradingHalted detail capital) := by
  have hassess : assess cfg e.state order view health
      (buildCapitalSnapshot view.account view.positions cfg.accountConfig) = .halted := if_pos h
  unfold evaluate
  dsimp only
  rw [hassess]
  exact ⟨_, _, rfl⟩

/-! ## Approvals -/

/-- The call returned an approval. -/
def approves : Except String RiskDecision → Bool
  | .ok (.approved _) => true
  | _ => false

/-- An evaluation returns an approval when the gate approves and its record is appended. -/
theorem approves_evaluate_iff {e : RiskEngine} {order : ProposedOrder} {view : MarketView}
    {health : HealthSignals} {disk : Disk} :
    approves (evaluate texts cfg e order view health disk).result ↔
      ∃ checks, assess cfg e.state order view health
          (buildCapitalSnapshot view.account view.positions cfg.accountConfig) =
            .judged (.approved checks) ∧
        (appendEach texts e (assessmentInputs order
          (buildCapitalSnapshot view.account view.positions cfg.accountConfig)
          (.judged (.approved checks))) disk.writes).failed = false := by
  unfold evaluate
  dsimp only
  generalize assess cfg e.state order view health
    (buildCapitalSnapshot view.account view.positions cfg.accountConfig) = assessment
  -- Only one of the four outcomes can return an approval, and it still has to be written.
  cases assessment with
  | halted => simp [approves]
  | tripped trip =>
      dsimp only
      cases (halt texts e trip.detail (some trip.trigger) _ disk).result <;>
        simp [approves, Except.map]
  | judged verdict =>
      cases verdict with
      | blocked reason eventType detail checks => simp [approves]
      | approved checks =>
          dsimp only
          split
          · rename_i hfailed
            simpa [approves] using hfailed
          · rename_i hwritten
            simpa [approves] using hwritten

/-- Only the record of an approval is a passed check. -/
theorem assessmentInputs_passed {state : RiskControlState} {order : ProposedOrder} {view : MarketView}
    {health : HealthSignals} {capital : CapitalSnapshot} {input : RiskJournalInput}
    (h : input ∈ assessmentInputs order capital (assess cfg state order view health capital))
    (hpassed : input.type = .riskCheckPassed) :
    ∃ checks, assess cfg state order view health capital = .judged (.approved checks) := by
  -- A trip writes the records of a halt, a refusal those of a failed check.
  cases hassess : assess cfg state order view health capital with
  | halted =>
      rw [hassess] at h
      cases h
  | tripped trip =>
      rw [hassess] at h
      have hstep := haltInputs_isHaltStep h
      rw [hpassed] at hstep
      cases hstep
  | judged verdict =>
      cases verdict with
      | approved checks => exact ⟨checks, rfl⟩
      | blocked reason eventType detail checks =>
          have hgate := assess_eventType hassess
          rw [hassess] at h
          rcases List.mem_cons.mp h with rfl | h
          · cases hpassed
          · split at h
            · cases h
            · rw [List.mem_singleton.mp h] at hpassed
              rw [show eventType = .riskCheckPassed from hpassed] at hgate
              cases hgate

theorem countOf_eq_zero {type : RiskEventType} {records : List RiskJournalRecord}
    (h : ∀ r ∈ records, r.type ≠ type) : countOf type records = 0 := by
  unfold countOf
  rw [List.length_eq_zero_iff, List.filter_eq_nil_iff]
  intro r hr
  simpa using h r hr

/-- The passed checks an evaluation journals: one when it returns an approval, else none. -/
theorem countOf_passed_evaluate (e : RiskEngine) (order : ProposedOrder) (view : MarketView)
    (health : HealthSignals) (disk : Disk) :
    countOf .riskCheckPassed (appendEach texts e
        ((RiskCommand.evaluate order view health disk).inputs cfg e.state) disk.writes).journaled =
      if approves (evaluate texts cfg e order view health disk).result then 1 else 0 := by
  -- Only an assessment that approves appends a passed check, and it appends nothing else.
  by_cases hchecks : ∃ checks, assess cfg e.state order view health
      (buildCapitalSnapshot view.account view.positions cfg.accountConfig) =
        .judged (.approved checks)
  · obtain ⟨checks, hassess⟩ := hchecks
    have hinputs : (RiskCommand.evaluate order view health disk).inputs cfg e.state =
        assessmentInputs order
          (buildCapitalSnapshot view.account view.positions cfg.accountConfig)
          (.judged (.approved checks)) := by
      show assessmentInputs order _ (assess cfg e.state order view health _) = _
      rw [hassess]
    rw [hinputs]
    rcases @appendEach_single texts e _ disk.writes with
      ⟨hwritten, record, hinput, hone, -⟩ | ⟨hfailed, hnone⟩
    · have happroves : approves (evaluate texts cfg e order view health disk).result :=
        approves_evaluate_iff.mpr ⟨checks, hassess, hwritten⟩
      have htype : record.type = .riskCheckPassed := congrArg RiskJournalInput.type hinput
      rw [if_pos happroves]
      show countOf .riskCheckPassed (appendEach texts e [_] disk.writes).journaled = 1
      rw [hone]
      simp [countOf, htype]
    · -- the only record was not written
      have hrefused : ¬approves (evaluate texts cfg e order view health disk).result := by
        intro happroves
        obtain ⟨checks', hassess', hwritten⟩ := approves_evaluate_iff.mp happroves
        rw [hassess] at hassess'
        cases hassess'
        exact Bool.false_ne_true (hwritten.symm.trans hfailed)
      rw [if_neg hrefused]
      show countOf .riskCheckPassed (appendEach texts e [_] disk.writes).journaled = 0
      rw [hnone]
      rfl
  · rw [if_neg, countOf_eq_zero]
    · intro r hr hpassed
      exact hchecks (assessmentInputs_passed (mem_inputs_of_journaled hr) hpassed)
    · intro happroves
      obtain ⟨checks, hassess, -⟩ := approves_evaluate_iff.mp happroves
      exact hchecks ⟨checks, hassess⟩

section Counting

variable (texts cfg)

/-- The call returns an approval. -/
def returnsApproval (s : RiskSystem) : RiskCommand → Bool
  | .evaluate order view health disk => s.state.any fun state =>
      approves (evaluate texts cfg ⟨s.store, state⟩ order view health disk).result
  | _ => false

/-- The number of approvals the calls of a run return. -/
def approvalsReturned : RiskSystem → List RiskCommand → ℕ
  | _, [] => 0
  | s, command :: commands =>
      (if returnsApproval texts cfg s command then 1 else 0) +
        approvalsReturned (s.step texts cfg command) commands

end Counting

/-- A passed check is journaled by the calls that return an approval, and by no other. -/
theorem countOf_passed {s : RiskSystem} {state : RiskControlState} (hstate : s.state = some state)
    (command : RiskCommand) :
    countOf .riskCheckPassed (callAppends texts cfg s state command).journaled =
      if returnsApproval texts cfg s command then 1 else 0 := by
  -- Neither a halt nor a reset writes a passed check.
  cases command with
  | restart => rfl
  | halt detail trigger capital disk =>
      apply countOf_eq_zero
      intro r hr hpassed
      have hstep := haltInputs_isHaltStep (mem_inputs_of_journaled hr)
      rw [hpassed] at hstep
      cases hstep
  | reset detail disk =>
      apply countOf_eq_zero
      intro r hr hpassed
      have hinput := List.mem_singleton.mp (mem_inputs_of_journaled hr)
      rw [show r.type = .tradingResumed from congrArg RiskJournalInput.type hinput] at hpassed
      cases hpassed
  | evaluate order view health disk =>
      have hcount := @countOf_passed_evaluate texts cfg ⟨s.store, state⟩ order view health disk
      show _ = if s.state.any _ then 1 else 0
      rw [hstate]
      exact hcount

/-! ## The journal of a run without failures -/

/-- The capital an operator halts with is a snapshot as the contract has it: quantized texts. -/
def CanonicalHalt : RiskCommand → Prop
  | .halt _ _ capital _ => ∀ c ∈ capital, c.Canonical
  | _ => True

theorem inputs_canonical {command : RiskCommand} (h : CanonicalHalt command)
    {state : RiskControlState} {input : RiskJournalInput} (hinput : input ∈ command.inputs cfg state) :
    ∀ c ∈ input.capital, c.Canonical := by
  cases command with
  | restart => cases hinput
  | halt detail trigger capital disk =>
      rw [haltInputs_capital hinput]
      exact h
  | reset detail disk =>
      rw [List.mem_singleton.mp hinput]
      rintro c ⟨⟩
  | evaluate order view health disk =>
      intro c hc
      rw [show input.capital = some _ from assessmentInputs_capital hinput] at hc
      rw [← Option.some.inj hc]
      exact canonical_buildCapitalSnapshot _ _ _

theorem endsClean_append_line (file : Bytes) (r : RiskJournalRecord) :
    EndsClean (file ++ line riskFormat texts r) := by
  right
  rw [line, ← List.append_assoc, List.getLast?_concat]

/-- A series of admitted appends none of which fails leaves a sound journal. -/
theorem sound_appendEach {inputs : List RiskJournalInput} {writes : List Write} {e : RiskEngine}
    {completed : List RiskJournalRecord} (hsound : Sound riskFormat texts e.store completed)
    (hends : EndsClean e.store.file) (hcanon : ∀ input ∈ inputs, ∀ c ∈ input.capital, c.Canonical)
    (hdone : (appendEach texts e inputs writes).failed = false) :
    Sound riskFormat texts (appendEach texts e inputs writes).engine.store
        (completed ++ (appendEach texts e inputs writes).journaled) ∧
      EndsClean (appendEach texts e inputs writes).engine.store.file := by
  -- One append at a time: the file ends clean after each, so the next one starts on a new line.
  induction inputs generalizing e writes completed with
  | nil =>
      rw [appendEach, List.append_nil]
      exact ⟨hsound, hends⟩
  | cons input inputs ih =>
      have hseq := hsound.assignSeq_eq
      have hcheck : riskFormat.check (riskFormat.toJson (riskFormat.withSeq input 0)) = none :=
        (assertValid_toJson _).mpr (hcanon input List.mem_cons_self)
      have hfirst : Sound riskFormat texts (append riskFormat texts e.store input .complete).2
          (completed ++ (append riskFormat texts e.store input .complete).1.toList) :=
        hsound.append ⟨hends, fun _ => hcheck⟩
      -- A torn write would have failed the series.
      cases hwrite : writes.headD .complete with
      | torn written =>
          rw [appendEach, hwrite] at hdone
          unfold appendAndFold FileRiskEventStore.append append at hdone
          rw [hseq] at hdone
          cases hdone
      | complete =>
          unfold append at hfirst
          rw [hseq] at hfirst
          rw [appendEach, hwrite] at hdone ⊢
          unfold appendAndFold FileRiskEventStore.append append at hdone ⊢
          rw [hseq] at hdone ⊢
          have hrest := ih (e := ⟨_, applyRiskRecord e.state (riskFormat.withSeq input _)⟩) hfirst
            (endsClean_append_line _ _)
            (fun input' hinput' => hcanon input' (List.mem_cons_of_mem input hinput')) hdone
          rwa [Option.toList_some, List.append_assoc, List.singleton_append] at hrest

/-! ## Runs -/

variable (texts cfg)

/-- Every append the call makes completes. -/
def AppendsCompleted (s : RiskSystem) (command : RiskCommand) : Prop :=
  ∀ state ∈ s.state, (callAppends texts cfg s state command).failed = false

instance (s : RiskSystem) (command : RiskCommand) :
    Decidable (AppendsCompleted texts cfg s command) :=
  inferInstanceAs (Decidable (∀ state ∈ s.state, _))

/-- A call of the running process with a snapshot as the contract has it. -/
def ProperCall (command : RiskCommand) : Prop := command ≠ .restart ∧ CanonicalHalt command

variable {texts cfg}

theorem tallied_step {s : RiskSystem} {command : RiskCommand} (hcall : ProperCall command)
    (h : ∃ state, s.state = some state ∧ Tallied s.completed state) :
    ∃ state, (s.step texts cfg command).state = some state ∧
      Tallied (s.step texts cfg command).completed state := by
  obtain ⟨state, hstate, htallied⟩ := h
  rw [(step_of_running texts cfg hstate hcall.1).2]
  have hfold : Tallied (s.completed ++ (callAppends texts cfg s state command).journaled)
      ((callAppends texts cfg s state command).journaled.foldl applyRiskRecord state) :=
    htallied.foldl fun r hr => inputs_canonical hcall.2 (mem_inputs_of_journaled hr)
  obtain ⟨state', hstep, heq | hmemory⟩ := call_state texts cfg hstate hcall.1
  · exact ⟨state', hstep, heq ▸ hfold⟩
  · exact ⟨state', hstep, hfold.of_same hmemory.2.2⟩

/-- The approvals of a run are the passed checks among its completed records. -/
theorem countOf_passed_run {commands : List RiskCommand} (hcalls : ∀ c ∈ commands, ProperCall c)
    {s : RiskSystem} (hrunning : s.state.isSome) :
    countOf .riskCheckPassed (run (RiskSystem.step texts cfg) s commands).completed =
      countOf .riskCheckPassed s.completed + approvalsReturned texts cfg s commands := by
  induction commands generalizing s with
  | nil => rfl
  | cons c cs ih =>
      obtain ⟨state, hstate⟩ := Option.isSome_iff_exists.mp hrunning
      have hcall := hcalls c List.mem_cons_self
      obtain ⟨state', hstep, -⟩ := call_state texts cfg hstate hcall.1
      have hcompleted : (s.step texts cfg c).completed =
          s.completed ++ (callAppends texts cfg s state c).journaled :=
        (step_of_running texts cfg hstate hcall.1).2
      -- The first call adds its own approval, the rest of the run those of the others.
      rw [run_cons, ih (fun c' hc' => hcalls c' (List.mem_cons_of_mem c hc')) (by rw [hstep]; rfl),
        hcompleted, countOf_append, countOf_passed hstate, approvalsReturned, Nat.add_assoc]

/-- The live state of a run without failures: a sound journal, and its fold. -/
def Replayed (texts : FileRiskEventStore.Texts) (s : RiskSystem) : Prop :=
  s.state = some (reconstructRiskState s.completed) ∧ Sound riskFormat texts s.store s.completed ∧
    EndsClean s.store.file

theorem replayed_step {s : RiskSystem} {command : RiskCommand} (h : Replayed texts s)
    (hcall : ProperCall command) (hdone : AppendsCompleted texts cfg s command) :
    Replayed texts (s.step texts cfg command) := by
  obtain ⟨hstate, hsound, hends⟩ := h
  obtain ⟨hstore, hcompleted⟩ := step_of_running texts cfg hstate hcall.1
  have hdone := hdone _ hstate
  obtain ⟨hsound', hends'⟩ := sound_appendEach hsound hends
    (fun input hinput => inputs_canonical hcall.2 hinput) hdone
  unfold Replayed
  rw [hstore, hcompleted]
  refine ⟨?_, hsound', hends'⟩
  obtain ⟨state', hstep, heq | hmemory⟩ := call_state texts cfg hstate hcall.1
  · rw [hstep, heq, reconstructRiskState, reconstructRiskState, List.foldl_append]
    rfl
  -- A halt in memory would need an append that failed.
  · rw [hdone] at hmemory
    cases hmemory.1

end Calls

/-- An order is approved, then a halt cannot be journaled. -/
def liveCalls : List RiskCommand :=
  [.evaluate sampleOrder sampleView {} ⟨[.complete], ""⟩, manualHalt ⟨[.torn 1], "ENOSPC"⟩]

end NexusQuant.Risk
