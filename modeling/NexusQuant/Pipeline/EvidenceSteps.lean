import NexusQuant.Pipeline.EvidenceChain

/-!
# What supports a snapshot

Rows are never deleted and a report never changes, so what supports a snapshot supports it for good:
`Grown` says so, and `Sound` is what the tables keep at every step of the chain.
-/

namespace NexusQuant.Pipeline

open Fallible Ingestion Run Signal

variable {cfg : ChainConfig} {s s' : ChainState}

/-! ## The report of a window -/

theorem report_of_row {v : Validation} {row : DataQualityReport} (h : v.row cfg = .ok row) :
    ∃ health, v.report cfg = .ok ⟨v.id, row.score, row.status, row.datasetHash, health⟩ := by
  obtain ⟨stageB, hstageB, rfl⟩ := map_eq_ok.mp h
  refine ⟨(stageB.find? fun c => c.check = "stage_b_unavailable" ∧ c.category = some "INFRA").map
    (·.detail), ?_⟩
  unfold Validation.report validateAndReport
  dsimp only
  rw [hstageB]
  rfl

/-- A report that passed has the score for it. -/
theorem score_of_passed {v : Validation} {row : DataQualityReport} (h : v.row cfg = .ok row)
    (hpassed : row.status = .passed) : JsNumber.le (.fin minDataQualityScore) row.score := by
  obtain ⟨stageB, -, rfl⟩ := map_eq_ok.mp h
  dsimp only [scoreChecks] at hpassed ⊢
  split at hpassed
  · assumption
  · cases hpassed

/-- The bridge is crossed with the end of the window, under the name of its report. -/
structure Windowed (v : Validation) (input : FeatureBridgeInput) : Prop where
  named : input.dqReportId = v.id
  scope : (input.scope.exchange, input.scope.symbol, input.scope.timeframe) =
    (v.scope.exchange, v.scope.symbol, v.scope.timeframe)
  suffix : input.candles <:+ v.candles
  nonempty : input.candles ≠ []

theorem bridgeInput?_eq_some {v : Validation} {featureSet : String} {version : ℤ} {size : ℕ}
    {report : ValidationReport} {input : FeatureBridgeInput} (hid : report.id = v.id)
    (h : bridgeInput? featureSet version size v.scope v.candles report = some input) :
    report.status = .passed ∧ Windowed v input := by
  unfold bridgeInput? at h
  split at h
  · cases h
  · rename_i hpassed
    obtain ⟨last, hlast, rfl⟩ := Option.map_eq_some_iff.mp h
    refine ⟨not_not.mp hpassed, hid, rfl, List.drop_suffix _ _, ?_⟩
    show featureWindowOf size v.candles ≠ []
    intro hnil
    rw [hnil] at hlast
    cases hlast

/-! ## What the steps do -/

/-- What a window that goes through the gate does. -/
theorem validate_cases (cfg : ChainConfig) (s : ChainState) (v : Validation) (featureSet : String)
    (version : ℤ) (size : ℕ) (write : StatementReply) :
    s.validate cfg v featureSet version size write = s ∨
    ∃ row, v.row cfg = .ok row ∧ s.store.reports.get? v.id = none ∧
      (s.validate cfg v featureSet version size write = s.fileReport v row ∨
        ∃ input, row.status = .passed ∧ Windowed v input ∧
          s.validate cfg v featureSet version size write =
            { s.fileReport v row with bridges := s.bridges ++ [.computing input] }) := by
  unfold ChainState.validate
  cases hrow : v.row cfg with
  | error e => exact .inl rfl
  | ok row =>
      cases hfree : s.store.reports.get? v.id with
      | some other => exact .inl rfl
      | none =>
          cases write with
          | failed => exact .inl rfl
          | lost => exact .inr ⟨row, rfl, rfl, .inl rfl⟩
          | done =>
              refine .inr ⟨row, rfl, rfl, ?_⟩
              obtain ⟨health, hreport⟩ := report_of_row hrow
              rw [hreport]
              dsimp only
              cases hinput : bridgeInput? featureSet version size v.scope v.candles
                ⟨v.id, row.score, row.status, row.datasetHash, health⟩ with
              | none => exact .inl rfl
              | some input =>
                  obtain ⟨hpassed, hwindowed⟩ := bridgeInput?_eq_some rfl hinput
                  unfold ChainState.cross
                  dsimp only
                  split
                  · exact .inl rfl
                  · exact .inr ⟨input, hpassed, hwindowed, rfl⟩

/-- What the answer of the quant service does. -/
theorem compute_cases (cfg : ChainConfig) (s : ChainState) (i : ℕ) (reply : ComputeReply) :
    s.compute cfg i reply = s ∨
    ∃ input bridges, .computing input ∈ s.bridges ∧
      s.compute cfg i reply =
        { s with served := s.served ++ [⟨input.request, reply⟩], bridges } ∧
      ∀ b ∈ bridges, b ∈ s.bridges ∨
        ∃ columns, ChainState.columnsOf cfg input reply = some columns ∧ b = .persisting columns := by
  unfold ChainState.compute
  cases hbridge : s.bridges[i]? with
  | none => exact .inl rfl
  | some stage =>
      cases stage with
      | persisting columns => exact .inl rfl
      | computing input =>
          refine .inr ⟨input, _, List.mem_of_getElem? hbridge, rfl, ?_⟩
          intro b hb
          cases hcolumns : ChainState.columnsOf cfg input reply with
          | none =>
              rw [hcolumns] at hb
              exact .inl (List.mem_of_mem_eraseIdx hb)
          | some columns =>
              rw [hcolumns] at hb
              rcases List.mem_or_eq_of_mem_set hb with hb | rfl
              · exact .inl hb
              · exact .inr ⟨columns, rfl, rfl⟩

/-- What the upsert of a snapshot does. -/
theorem upsertSnapshot_cases (s : ChainState) (i : ℕ) (id : String) (write : StatementReply) :
    s.upsertSnapshot i id write = s ∨ ∃ columns, .persisting columns ∈ s.bridges ∧
      (s.upsertSnapshot i id write = { s with bridges := s.bridges.eraseIdx i } ∨
        ∃ snapshots, s.store.snapshots.upsert ⟨id, columns⟩ (StoredSnapshot.update columns)
            (keeps_snapshotUpdate columns) = some snapshots ∧
          s.upsertSnapshot i id write =
            { s with
              bridges := s.bridges.eraseIdx i
              store := { s.store with snapshots } }) := by
  unfold ChainState.upsertSnapshot
  cases hbridge : s.bridges[i]? with
  | none => exact .inl rfl
  | some stage =>
      cases stage with
      | computing input => exact .inl rfl
      | persisting columns =>
          refine .inr ⟨columns, List.mem_of_getElem? hbridge, ?_⟩
          dsimp only
          split
          · exact .inl rfl
          · exact .inl rfl
          · rename_i snapshots hnot hupsert
            exact .inr ⟨snapshots, hupsert, rfl⟩

/-- The moves of a tick. -/
inductive TickMove (cfg : ChainConfig) (s : ChainState) (i : ℕ) (id : String) (reply : UpsertReply) :
    TickStage → ChainState → Prop where
  | ended (stage : TickStage) : TickMove cfg s i id reply stage (s.endTick i)
  | resolved (tickId : Option String) {lineage : PersistedLineage}
      (h : resolvePersistedLineage cfg.pipeline (s.store.database cfg) = .ok lineage) :
      TickMove cfg s i id reply (.resolving tickId) (s.enterStage i (.reading tickId lineage))
  | admitted (tickId : Option String) (lineage : PersistedLineage) {ordered : List FeatureSnapshotRow}
      (h : s.admittedRows cfg lineage.featureSetId = some ordered) :
      TickMove cfg s i id reply (.reading tickId lineage)
        (s.enterStage i (.publishing tickId lineage ordered ⟨0, 0, 0, 0, []⟩))
  /-- A row without a decision is counted. -/
  | counted (tickId : Option String) (lineage : PersistedLineage) (row : FeatureSnapshotRow)
      (rest : List FeatureSnapshotRow) (p : TickProgress) {outcome : Outcome}
      (h : ∀ event, outcome ≠ .decided event) :
      TickMove cfg s i id reply (.publishing tickId lineage (row :: rest) p)
        (s.enterStage i (.publishing tickId lineage rest (p.tally outcome)))
  /-- A decision goes to the table, and the tick goes on if it has come there. -/
  | persisted (tickId : Option String) (lineage : PersistedLineage) (row : FeatureSnapshotRow)
      (rest : List FeatureSnapshotRow) (p : TickProgress) {event : DecisionEvent}
      {ticks : List TickStage}
      (h : outcomeOf cfg.pipeline.registry ⟨tickId, fun _ => none⟩ lineage.strategyVersion row =
        .ok (.decided event))
      (hticks : ticks = s.ticks.eraseIdx i ∨
        (∃ answer, (persistEngineSignal s.store.signals id event.signal reply).1 = .ok answer) ∧
          ticks = s.ticks.set i (.publishing tickId lineage rest (p.tally (.decided event)))) :
      TickMove cfg s i id reply (.publishing tickId lineage (row :: rest) p)
        { s with
          store := { s.store with
            signals := (persistEngineSignal s.store.signals id event.signal reply).2 }
          ticks }
  | handed (tickId : Option String) (lineage : PersistedLineage) (p : TickProgress) :
      TickMove cfg s i id reply (.publishing tickId lineage [] p)
        { s.endTick i with handed := s.handed ++ [p.decisions] }

theorem stepTick_move (cfg : ChainConfig) (s : ChainState) (i : ℕ) (id : String)
    (reply : UpsertReply) (stage : TickStage) :
    TickMove cfg s i id reply stage (s.stepTick cfg i id reply stage) := by
  cases stage with
  | resolving tickId =>
      unfold ChainState.stepTick
      dsimp only
      cases hresolve : resolvePersistedLineage cfg.pipeline (s.store.database cfg) with
      | error e => exact .ended _
      | ok lineage => exact .resolved tickId hresolve
  | reading tickId lineage =>
      unfold ChainState.stepTick
      dsimp only
      cases hadmitted : s.admittedRows cfg lineage.featureSetId with
      | none => exact .ended _
      | some ordered => exact .admitted tickId lineage hadmitted
  | publishing tickId lineage waiting p =>
      cases waiting with
      | nil => exact .handed tickId lineage p
      | cons row rest =>
          unfold ChainState.stepTick ChainState.publishRow
          dsimp only
          cases houtcome : outcomeOf cfg.pipeline.registry ⟨tickId, fun _ => none⟩
            lineage.strategyVersion row with
          | error e => exact .ended _
          | ok outcome =>
              cases outcome with
              | refused reason => exact .counted tickId lineage row rest p (by simp)
              | malformed detail => exact .counted tickId lineage row rest p (by simp)
              | lineageInvalid detail => exact .counted tickId lineage row rest p (by simp)
              | decided event =>
                  dsimp only
                  cases hanswer : (persistEngineSignal s.store.signals id event.signal reply).1 with
                  | error e => exact .persisted tickId lineage row rest p houtcome (.inl rfl)
                  | ok answer =>
                      exact .persisted tickId lineage row rest p houtcome (.inr ⟨⟨answer, hanswer⟩, rfl⟩)

/-- What the next step of a tick does. -/
theorem step_tick_cases (cfg : ChainConfig) (s : ChainState) (i : ℕ) (id : String)
    (reply : UpsertReply) :
    s.step cfg (.tick i id reply) = s ∨ ∃ stage ∈ s.ticks,
      s.step cfg (.tick i id reply) = s.stepTick cfg i id reply stage := by
  unfold ChainState.step
  dsimp only
  cases hstage : s.ticks[i]? with
  | none => exact .inl rfl
  | some stage => exact .inr ⟨stage, List.mem_of_getElem? hstage, rfl⟩

/-! ## What only grows -/

structure Grown (s s' : ChainState) : Prop where
  validated : s.validated ⊆ s'.validated
  served : s.served ⊆ s'.served
  reports : ∀ id report, s.store.reports.get? id = some report →
    s'.store.reports.get? id = some report
  snapshots : ∀ r ∈ s.store.snapshots.rows, ∃ r' ∈ s'.store.snapshots.rows,
    r'.id = r.id ∧ r'.columns.symbol = r.columns.symbol
  signals : ∀ r ∈ s.store.signals.rows, ∃ r' ∈ s'.store.signals.rows,
    r'.id = r.id ∧ r'.key = r.key

theorem Grown.refl (s : ChainState) : Grown s s where
  validated := List.Subset.refl _
  served := List.Subset.refl _
  reports _ _ h := h
  snapshots r hr := ⟨r, hr, rfl, rfl⟩
  signals r hr := ⟨r, hr, rfl, rfl⟩

theorem Grown.trans {s'' : ChainState} (h : Grown s s') (h' : Grown s' s'') : Grown s s'' where
  validated := List.Subset.trans h.validated h'.validated
  served := List.Subset.trans h.served h'.served
  reports id report hreport := h'.reports id report (h.reports id report hreport)
  snapshots r hr := by
    obtain ⟨r₁, hr₁, hid₁, hsymbol₁⟩ := h.snapshots r hr
    obtain ⟨r₂, hr₂, hid₂, hsymbol₂⟩ := h'.snapshots r₁ hr₁
    exact ⟨r₂, hr₂, hid₂.trans hid₁, hsymbol₂.trans hsymbol₁⟩
  signals r hr := by
    obtain ⟨r₁, hr₁, hid₁, hkey₁⟩ := h.signals r hr
    obtain ⟨r₂, hr₂, hid₂, hkey₂⟩ := h'.signals r₁ hr₁
    exact ⟨r₂, hr₂, hid₂.trans hid₁, hkey₂.trans hkey₁⟩

/-- A step that leaves the tables and the logs alone. -/
theorem Grown.of_eq (hstore : s'.store = s.store) (hvalidated : s'.validated = s.validated)
    (hserved : s'.served = s.served) : Grown s s' where
  validated := hvalidated ▸ List.Subset.refl _
  served := hserved ▸ List.Subset.refl _
  reports _ _ h := hstore ▸ h
  snapshots r hr := ⟨r, hstore ▸ hr, rfl, rfl⟩
  signals r hr := ⟨r, hstore ▸ hr, rfl, rfl⟩

theorem grown_fileReport {v : Validation} (row : DataQualityReport)
    (hfree : s.store.reports.get? v.id = none) : Grown s (s.fileReport v row) where
  validated := List.subset_append_left _ _
  served := List.Subset.refl _
  reports id report h := by
    show (s.store.reports.set v.id row).get? id = some report
    rw [LiveMap.get?_set]
    split
    · rename_i heq
      rw [heq, hfree] at h
      cases h
    · exact h
  snapshots r hr := ⟨r, hr, rfl, rfl⟩
  signals r hr := ⟨r, hr, rfl, rfl⟩

theorem step_grown (cfg : ChainConfig) (s : ChainState) (e : ChainEvent) : Grown s (s.step cfg e) := by
  cases e with
  | validate v featureSet version size write =>
      show Grown s (s.validate cfg v featureSet version size write)
      rcases validate_cases cfg s v featureSet version size write with
        h | ⟨row, -, hfree, h | ⟨input, -, -, h⟩⟩
      · rw [h]
        exact Grown.refl s
      · rw [h]
        exact grown_fileReport row hfree
      · rw [h]
        exact (grown_fileReport row hfree).trans (Grown.of_eq rfl rfl rfl)
  | compute i reply =>
      show Grown s (s.compute cfg i reply)
      rcases compute_cases cfg s i reply with h | ⟨input, bridges, -, h, -⟩
      · rw [h]
        exact Grown.refl s
      · rw [h]
        exact { Grown.refl s with served := List.subset_append_left _ _ }
  | upsertSnapshot i id write =>
      show Grown s (s.upsertSnapshot i id write)
      rcases upsertSnapshot_cases s i id write with h | ⟨columns, -, h | ⟨snapshots, hupsert, h⟩⟩
      · rw [h]
        exact Grown.refl s
      · rw [h]
        exact Grown.of_eq rfl rfl rfl
      · rw [h]
        refine { Grown.refl s with snapshots := ?_ }
        intro r hr
        obtain ⟨r', hr', hid, -, hsame⟩ := UpsertTable.exists_same_of_upsert
          (g := fun r : StoredSnapshot => r.columns.symbol) hupsert (fun _ => rfl) hr
        exact ⟨r', hr', hid, hsame⟩
  | abandonBridge i | govern versions | beginTick tickId | abandonTick i =>
      exact { Grown.refl s with }
  | tick i id reply =>
      rcases step_tick_cases cfg s i id reply with h | ⟨stage, -, h⟩
      · rw [h]
        exact Grown.refl s
      · rw [h]
        have hmove := stepTick_move cfg s i id reply stage
        generalize s.stepTick cfg i id reply stage = next at hmove ⊢
        cases hmove with
        | ended | resolved | admitted | counted | handed => exact { Grown.refl s with }
        | persisted tickId lineage row rest p h hticks =>
            refine { Grown.refl s with signals := ?_ }
            intro r hr
            obtain ⟨r', hr', hid, hkey, -⟩ := exists_same_persist id _ reply hr
            exact ⟨r', hr', hid, hkey⟩

theorem run_grown (cfg : ChainConfig) {start : ChainState} {earlier later : List ChainEvent}
    (h : earlier <+: later) :
    Grown (run (ChainState.step cfg) start earlier) (run (ChainState.step cfg) start later) := by
  obtain ⟨between, rfl⟩ := h
  rw [run_append]
  exact RunMeets.rel_run Grown.refl (fun _ _ _ => Grown.trans)
    (runMeets_of_forall fun e _ s => step_grown cfg s e)

/-! ## What supports a snapshot -/

structure Evidence where
  validation : Validation
  report : DataQualityReport
  window : List NormalizedCandle
  served : Served
  result : FeatureComputeResult

/-- The window of a report that passed was sent to the quant service under the name of the report, and the
columns hold the vector and the hash that came back, as they came. -/
structure Evidence.Supports (cfg : ChainConfig) (s : ChainState) (e : Evidence) (c : SnapshotColumns) :
    Prop where
  validated : e.validation ∈ s.validated
  named : e.validation.id = c.dqReportId
  scope : (e.validation.scope.exchange, e.validation.scope.symbol, e.validation.scope.timeframe) =
    (c.exchange, c.symbol, c.timeframe)
  report : e.validation.row cfg = .ok e.report
  passed : e.report.status = .passed
  filed : s.store.reports.get? c.dqReportId = some e.report
  window : e.window <:+ e.validation.candles ∧ e.window ≠ []
  served : e.served ∈ s.served
  asked : e.served.request.dqReportId = c.dqReportId ∧
    e.served.request.candles = e.window.map fun candle => (candle.ts, candle.ohlcv)
  answered : computeFeatures cfg.client e.served.reply = .ok e.result
  features : c.features = e.result.features
  featureHash : c.featureHash = e.result.featureHash

theorem Evidence.Supports.mono {e : Evidence} {c : SnapshotColumns} (h : e.Supports cfg s c)
    (hgrown : Grown s s') : e.Supports cfg s' c :=
  { h with
    validated := hgrown.validated h.validated
    filed := hgrown.reports _ _ h.filed
    served := hgrown.served h.served }

/-- What is under way on the bridge. -/
def BridgeSound (cfg : ChainConfig) (s : ChainState) : BridgeStage → Prop
  | .computing input => ∃ v ∈ s.validated, Windowed v input ∧
      ∃ report, v.row cfg = .ok report ∧ report.status = .passed
  | .persisting columns => ∃ e : Evidence, e.Supports cfg s columns

theorem BridgeSound.mono {b : BridgeStage} (h : BridgeSound cfg s b) (hgrown : Grown s s') :
    BridgeSound cfg s' b := by
  cases b with
  | computing input =>
      obtain ⟨v, hv, hwindowed, hreport⟩ := h
      exact ⟨v, hgrown.validated hv, hwindowed, hreport⟩
  | persisting columns =>
      obtain ⟨e, he⟩ := h
      exact ⟨e, he.mono hgrown⟩

structure Sound (cfg : ChainConfig) (s : ChainState) : Prop where
  validated : ∀ v ∈ s.validated, ∀ report, v.row cfg = .ok report →
    s.store.reports.get? v.id = some report
  bridges : ∀ b ∈ s.bridges, BridgeSound cfg s b
  snapshots : ∀ r ∈ s.store.snapshots.rows, ∃ e : Evidence, e.Supports cfg s r.columns

theorem initial_sound (cfg : ChainConfig) (versions : List StrategyVersionRow) :
    Sound cfg (.initial versions) where
  validated := List.forall_mem_nil _
  bridges := List.forall_mem_nil _
  snapshots := List.forall_mem_nil _

/-- A step that only takes processes off, or moves ticks. -/
theorem Sound.of_eq (h : Sound cfg s) (hgrown : Grown s s') (hvalidated : s'.validated = s.validated)
    (hsnapshots : s'.store.snapshots = s.store.snapshots) (hbridges : s'.bridges ⊆ s.bridges) :
    Sound cfg s' where
  validated v hv report hreport :=
    hgrown.reports _ _ (h.validated v (hvalidated ▸ hv) report hreport)
  bridges b hb := (h.bridges b (hbridges hb)).mono hgrown
  snapshots r hr := by
    obtain ⟨e, he⟩ := h.snapshots r (hsnapshots ▸ hr)
    exact ⟨e, he.mono hgrown⟩

/-- The columns of an answer are supported by the request they answer. -/
theorem supports_of_columnsOf {input : FeatureBridgeInput} {reply : ComputeReply}
    {columns : SnapshotColumns} (hs : Sound cfg s) (hinput : BridgeSound cfg s (.computing input))
    (hgrown : Grown s s') (hserved : ⟨input.request, reply⟩ ∈ s'.served)
    (h : ChainState.columnsOf cfg input reply = some columns) :
    ∃ e : Evidence, e.Supports cfg s' columns := by
  obtain ⟨v, hv, hwindowed, report, hrow, hpassed⟩ := hinput
  have hfiled := hgrown.reports _ _ (hs.validated v hv report hrow)
  unfold ChainState.columnsOf at h
  cases hreceived : receiveFeatures cfg.client input reply with
  | error e =>
      rw [hreceived] at h
      cases h
  | ok result =>
      rw [hreceived] at h
      obtain ⟨definition, -, hcolumns⟩ := Option.bind_eq_some_iff.mp h
      obtain ⟨ts, -, rfl⟩ := Option.map_eq_some_iff.mp hcolumns
      obtain ⟨answer, hanswer, hrest⟩ := bind_eq_ok.mp hreceived
      obtain ⟨-, -, hresult⟩ := bind_eq_ok.mp hrest
      cases hresult
      exact ⟨⟨v, report, input.candles, ⟨input.request, reply⟩, result⟩,
        { validated := hgrown.validated hv
          named := hwindowed.named.symm
          scope := hwindowed.scope.symm
          report := hrow
          passed := hpassed
          filed := by
            rw [show v.id = input.dqReportId from hwindowed.named.symm] at hfiled
            exact hfiled
          window := ⟨hwindowed.suffix, hwindowed.nonempty⟩
          served := hserved
          asked := ⟨rfl, rfl⟩
          answered := hanswer
          features := rfl
          featureHash := rfl }⟩

theorem step_sound (h : Sound cfg s) (e : ChainEvent) : Sound cfg (s.step cfg e) := by
  have hgrown := step_grown cfg s e
  cases e with
  | validate v featureSet version size write =>
      -- The report of the window is the only new one.
      have hfile : ∀ row, v.row cfg = .ok row → s.store.reports.get? v.id = none →
          Sound cfg (s.fileReport v row) := by
        intro row hrow hfree
        have hfiled := grown_fileReport row hfree
        refine ⟨?_, fun b hb => (h.bridges b hb).mono hfiled, ?_⟩
        · intro v' hv' report hreport
          rcases List.mem_append.mp hv' with hv' | hv'
          · exact hfiled.reports _ _ (h.validated v' hv' report hreport)
          · obtain rfl := List.mem_singleton.mp hv'
            obtain rfl := Except.ok.inj (hrow.symm.trans hreport)
            show (s.store.reports.set v'.id row).get? v'.id = some row
            rw [LiveMap.get?_set, if_pos rfl]
        · intro r hr
          obtain ⟨e, he⟩ := h.snapshots r hr
          exact ⟨e, he.mono hfiled⟩
      show Sound cfg (s.validate cfg v featureSet version size write)
      rcases validate_cases cfg s v featureSet version size write with
        heq | ⟨row, hrow, hfree, heq | ⟨input, hpassed, hwindowed, heq⟩⟩
      · rw [heq]
        exact h
      · rw [heq]
        exact hfile row hrow hfree
      · rw [heq]
        have hsound := hfile row hrow hfree
        have hmore : Grown (s.fileReport v row)
            { s.fileReport v row with bridges := s.bridges ++ [.computing input] } :=
          Grown.of_eq rfl rfl rfl
        refine ⟨hsound.validated, ?_, ?_⟩
        · intro b hb
          rcases List.mem_append.mp hb with hb | hb
          · exact (hsound.bridges b hb).mono hmore
          · obtain rfl := List.mem_singleton.mp hb
            have hv : v ∈ s.validated ++ [v] := List.mem_append_right _ (List.mem_singleton_self v)
            exact ⟨v, hv, hwindowed, row, hrow, hpassed⟩
        · intro r hr
          obtain ⟨e, he⟩ := hsound.snapshots r hr
          exact ⟨e, he.mono hmore⟩
  | compute i reply =>
      change Grown s (s.compute cfg i reply) at hgrown
      show Sound cfg (s.compute cfg i reply)
      rcases compute_cases cfg s i reply with heq | ⟨input, bridges, hinput, heq, hbridges⟩
      · rw [heq]
        exact h
      · rw [heq] at hgrown ⊢
        refine ⟨h.validated, ?_, ?_⟩
        · intro b hb
          rcases hbridges b hb with hb | ⟨columns, hcolumns, rfl⟩
          · exact (h.bridges b hb).mono hgrown
          · exact supports_of_columnsOf h (h.bridges _ hinput) hgrown
              (List.mem_append_right _ (List.mem_singleton_self _)) hcolumns
        · intro r hr
          obtain ⟨e, he⟩ := h.snapshots r hr
          exact ⟨e, he.mono hgrown⟩
  | upsertSnapshot i id write =>
      change Grown s (s.upsertSnapshot i id write) at hgrown
      show Sound cfg (s.upsertSnapshot i id write)
      rcases upsertSnapshot_cases s i id write with
        heq | ⟨columns, hcolumns, heq | ⟨snapshots, hupsert, heq⟩⟩
      · rw [heq]
        exact h
      · rw [heq] at hgrown ⊢
        exact h.of_eq hgrown rfl rfl fun b hb => List.mem_of_mem_eraseIdx hb
      · rw [heq] at hgrown ⊢
        obtain ⟨e, he⟩ := h.bridges _ hcolumns
        refine ⟨h.validated, fun b hb => (h.bridges b (List.mem_of_mem_eraseIdx hb)).mono hgrown, ?_⟩
        intro r hr
        rcases UpsertTable.mem_of_upsert hupsert hr with hr | rfl | ⟨old, hold, hkey, rfl⟩
        · obtain ⟨e', he'⟩ := h.snapshots r hr
          exact ⟨e', he'.mono hgrown⟩
        · exact ⟨e, he.mono hgrown⟩
        · -- A row of the same key is, once updated, the row that was to be written.
          have hsame : (StoredSnapshot.update columns old).columns = columns := by
            obtain ⟨hexchange, hsymbol, htimeframe, hts, hset⟩ :
                old.columns.exchange = columns.exchange ∧ old.columns.symbol = columns.symbol ∧
                  old.columns.timeframe = columns.timeframe ∧ old.columns.ts = columns.ts ∧
                  old.columns.featureSetId = columns.featureSetId := by
              simpa [StoredSnapshot.key, SnapshotColumns.key] using hkey
            simp [StoredSnapshot.update, SnapshotColumns.update, hexchange, hsymbol, htimeframe, hts,
              hset]
          rw [hsame]
          exact ⟨e, he.mono hgrown⟩
  | abandonBridge i => exact h.of_eq hgrown rfl rfl fun b hb => List.mem_of_mem_eraseIdx hb
  | govern versions | beginTick tickId | abandonTick i =>
      exact h.of_eq hgrown rfl rfl (List.Subset.refl _)
  | tick i id reply =>
      rcases step_tick_cases cfg s i id reply with heq | ⟨stage, -, heq⟩
      · rw [heq]
        exact h
      · rw [heq] at hgrown ⊢
        have hmove := stepTick_move cfg s i id reply stage
        generalize s.stepTick cfg i id reply stage = next at hmove hgrown ⊢
        cases hmove with
        | ended | resolved | admitted | counted | persisted | handed =>
            exact h.of_eq hgrown rfl rfl (List.Subset.refl _)

theorem run_sound (cfg : ChainConfig) (versions : List StrategyVersionRow) (events : List ChainEvent) :
    Sound cfg (run (ChainState.step cfg) (.initial versions) events) := by
  have hstep : ∀ (s : ChainState) (e : ChainEvent), Sound cfg s → Sound cfg (s.step cfg e) :=
    fun _ e h => step_sound h e
  exact run_keeps hstep (initial_sound cfg versions) events

end NexusQuant.Pipeline
