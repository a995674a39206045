import NexusQuant.Pipeline.EvidenceSteps

/-!
# What a stored signal rests on

The snapshot and the version that a tick has read may have changed since.  `History` is what every tick in
flight and every signal goes back to in the run so far: the artifacts as they stood in the database when
they were read.
-/

namespace NexusQuant.Pipeline

open Fallible Ingestion Run Signal

variable {cfg : ChainConfig} {s s' : ChainState}

/-! ## What a tick goes back to -/

section History

variable (cfg : ChainConfig) (versions : List StrategyVersionRow) (events : List ChainEvent)

/-- The run so far. -/
def reached : ChainState := run (ChainState.step cfg) (.initial versions) events

/-- The version was active, with these parameters. -/
def VersionHeld (sv : SignalStrategyVersion) : Prop :=
  Past (ChainState.step cfg) (.initial versions) events fun s =>
    ∃ v ∈ s.store.versions, v.active ∧ v.id = sv.id ∧ v.parameters = sv.parameters

/-- The snapshot stood in the table, with this report. -/
def RowHeld (row : FeatureSnapshotRow) : Prop :=
  Past (ChainState.step cfg) (.initial versions) events fun s =>
    ∃ r ∈ s.store.snapshots.rows, s.store.joined r = some row

/-- The signal is what the engine generated from artifacts that were in the database. -/
def Generated (signal : GeneratedSignal) : Prop :=
  ∃ sv row, VersionHeld cfg versions events sv ∧ RowHeld cfg versions events row ∧
    generateSignal (engineInput sv row) = .ok (.generated signal)

/-- The row holds a generated signal, column by column. -/
def Recorded (r : EngineSignalRow) : Prop :=
  ∃ signal confidence, Generated cfg versions events signal ∧
    DecimalText.number? signal.confidence = some confidence ∧ r = newSignalRow r.id confidence signal

/-- A row of the signal's key stands in the table. -/
def OnRecord (s : ChainState) (signal : GeneratedSignal) : Prop :=
  ∃ r ∈ s.store.signals.rows, r.key = (signal.featureSnapshotId, signal.strategyVersionId)

def DecisionSound (s : ChainState) (event : DecisionEvent) : Prop :=
  Generated cfg versions events event.signal ∧ OnRecord s event.signal

def TickSound (s : ChainState) : TickStage → Prop
  | .resolving _ => True
  | .reading _ lineage => VersionHeld cfg versions events lineage.strategyVersion
  | .publishing _ lineage waiting p =>
      VersionHeld cfg versions events lineage.strategyVersion ∧
        (∀ row ∈ waiting, RowHeld cfg versions events row) ∧
        ∀ event ∈ p.decisions, DecisionSound cfg versions events s event

structure History (s : ChainState) : Prop where
  ticks : ∀ t ∈ s.ticks, TickSound cfg versions events s t
  signals : ∀ r ∈ s.store.signals.rows, Recorded cfg versions events r
  handed : ∀ decisions ∈ s.handed, ∀ event ∈ decisions, DecisionSound cfg versions events s event

end History

section Steps

variable {versions : List StrategyVersionRow} {events : List ChainEvent} {e : ChainEvent}

theorem Generated.snoc {signal : GeneratedSignal} (h : Generated cfg versions events signal) :
    Generated cfg versions (events ++ [e]) signal := by
  obtain ⟨sv, row, hsv, hrow, hgenerated⟩ := h
  exact ⟨sv, row, hsv.append [e], hrow.append [e], hgenerated⟩

theorem Recorded.snoc {r : EngineSignalRow} (h : Recorded cfg versions events r) :
    Recorded cfg versions (events ++ [e]) r := by
  obtain ⟨signal, confidence, hgenerated, hrest⟩ := h
  exact ⟨signal, confidence, hgenerated.snoc, hrest⟩

theorem OnRecord.mono {signal : GeneratedSignal} (h : OnRecord s signal) (hgrown : Grown s s') :
    OnRecord s' signal := by
  obtain ⟨r, hr, hkey⟩ := h
  obtain ⟨r', hr', -, hsame⟩ := hgrown.signals r hr
  exact ⟨r', hr', hsame.trans hkey⟩

theorem DecisionSound.snoc {event : DecisionEvent} (h : DecisionSound cfg versions events s event)
    (hgrown : Grown s s') : DecisionSound cfg versions (events ++ [e]) s' event :=
  ⟨h.1.snoc, h.2.mono hgrown⟩

theorem TickSound.snoc {t : TickStage} (h : TickSound cfg versions events s t)
    (hgrown : Grown s s') : TickSound cfg versions (events ++ [e]) s' t := by
  cases t with
  | resolving tickId => trivial
  | reading tickId lineage =>
      have hversion : VersionHeld cfg versions events lineage.strategyVersion := h
      exact hversion.append [e]
  | publishing tickId lineage waiting p =>
      obtain ⟨hversion, hwaiting, hdecisions⟩ := h
      exact ⟨hversion.append [e], fun row hrow => (hwaiting row hrow).append [e],
        fun event hevent => (hdecisions event hevent).snoc hgrown⟩

/-- Where the tables of the signals and the decisions that were handed over are left as they are. -/
theorem History.of_eq (h : History cfg versions events s) (hgrown : Grown s s')
    (hsignals : s'.store.signals = s.store.signals) (hhanded : s'.handed = s.handed)
    (hticks : ∀ t ∈ s'.ticks, t ∈ s.ticks ∨ TickSound cfg versions (events ++ [e]) s' t) :
    History cfg versions (events ++ [e]) s' where
  ticks t ht := (hticks t ht).elim (fun h' => (h.ticks t h').snoc hgrown) id
  signals r hr := (h.signals r (hsignals ▸ hr)).snoc
  handed decisions hds event hevent :=
    (h.handed decisions (hhanded ▸ hds) event hevent).snoc hgrown

/-- A version that stands in the table has stood there, whatever comes next. -/
theorem versionHeld_reached {sv : SignalStrategyVersion}
    (h : ∃ v ∈ (reached cfg versions events).store.versions, v.active ∧ v.id = sv.id ∧
      v.parameters = sv.parameters) : VersionHeld cfg versions (events ++ [e]) sv :=
  ⟨events, List.prefix_append events [e], h⟩

theorem rowHeld_reached {row : FeatureSnapshotRow}
    (h : ∃ r ∈ (reached cfg versions events).store.snapshots.rows,
      (reached cfg versions events).store.joined r = some row) :
    RowHeld cfg versions (events ++ [e]) row :=
  ⟨events, List.prefix_append events [e], h⟩

theorem mem_filterMap_joined {store : EvidenceStore} {row : FeatureSnapshotRow}
    (h : row ∈ (store.database cfg).featureSnapshots) :
    ∃ r ∈ store.snapshots.rows, store.joined r = some row :=
  List.mem_filterMap.mp h

/-- The active version a tick has resolved is in the table. -/
theorem version_of_resolved {lineage : PersistedLineage} {store : EvidenceStore}
    (h : resolvePersistedLineage cfg.pipeline (store.database cfg) = .ok lineage) :
    ∃ v ∈ store.versions, v.active ∧ v.id = lineage.strategyVersion.id ∧
      v.parameters = lineage.strategyVersion.parameters := by
  unfold resolvePersistedLineage at h
  split at h
  · cases h
  · split at h
    · cases h
    · rename_i version hhead
      obtain ⟨-, -, rfl⟩ := map_eq_ok.mp h
      have hmem := List.mem_of_mem_head? (Option.mem_def.mpr hhead)
      rw [(List.perm_insertionSort _ _).mem_iff] at hmem
      obtain ⟨hversion, hactive⟩ := List.mem_filter.mp hmem
      exact ⟨version, hversion, hactive, rfl, rfl⟩

theorem held_of_admitted {featureSetId : String} {ordered : List FeatureSnapshotRow}
    (h : s.admittedRows cfg featureSetId = some ordered) :
    ∀ row ∈ ordered, ∃ r ∈ s.store.snapshots.rows, s.store.joined r = some row := by
  unfold ChainState.admittedRows at h
  dsimp only at h
  split at h
  · cases h
  · split at h
    · cases h
    · cases h
      exact fun row hrow => mem_filterMap_joined (mem_of_mem_considered hrow)

/-- The decision on a row is derived from what the engine generates on it. -/
theorem generated_of_decided {registry : StrategyRegistry} {t : TickContext}
    {sv : SignalStrategyVersion} {row : FeatureSnapshotRow} {event : DecisionEvent}
    (h : outcomeOf registry t sv row = .ok (.decided event)) :
    generateSignal (engineInput sv row) = .ok (.generated event.signal) := by
  obtain ⟨result, hresult, h⟩ := bind_eq_ok.mp h
  cases result with
  | refused reason => cases h
  | generated signal =>
      dsimp only at h
      split at h
      · cases h
      · obtain ⟨lineage, -, h⟩ := map_eq_ok.mp h
        split at h
        · cases h
          exact hresult
        · cases h

/-- Two rows of one snapshot have one symbol, however far apart they were read. -/
theorem symbol_eq_of_held {row row' : FeatureSnapshotRow} (h : RowHeld cfg versions events row)
    (h' : RowHeld cfg versions events row') (hid : row.id = row'.id) : row.symbol = row'.symbol := by
  have hnow : ∀ row, RowHeld cfg versions events row →
      ∃ r ∈ (reached cfg versions events).store.snapshots.rows,
        r.id = row.id ∧ r.columns.symbol = row.symbol := by
    intro row hrow
    obtain ⟨done, hdone, r, hr, hjoined⟩ := hrow
    obtain ⟨report, -, rfl⟩ := Option.map_eq_some_iff.mp hjoined
    obtain ⟨r', hr', hid', hsymbol'⟩ := (run_grown cfg hdone).snapshots r hr
    exact ⟨r', hr', hid', hsymbol'⟩
  obtain ⟨r, hr, hrid, hsymbol⟩ := hnow row h
  obtain ⟨r', hr', hrid', hsymbol'⟩ := hnow row' h'
  have hsame : r = r' := UpsertTable.eq_of_id hr hr' (by rw [hrid, hrid', hid])
  rw [← hsymbol, ← hsymbol', hsame]

/-- A generated signal names the snapshot and the version it comes from. -/
theorem names_of_generated {sv : SignalStrategyVersion} {row : FeatureSnapshotRow}
    {signal : GeneratedSignal}
    (h : generateSignal (engineInput sv row) = .ok (.generated signal)) :
    signal.featureSnapshotId = row.id ∧ signal.symbol = row.symbol := by
  obtain ⟨-, params, result, -, -, rfl⟩ := generateSignal_iff.mp h
  exact ⟨rfl, rfl⟩

/-- A row that a signal has been persisted to is recorded. -/
theorem recorded_persist {id : String} {signal : GeneratedSignal} {reply : UpsertReply}
    (h : ∀ r ∈ s.store.signals.rows, Recorded cfg versions events r)
    (hsignal : Generated cfg versions events signal) :
    ∀ r ∈ (persistEngineSignal s.store.signals id signal reply).2.rows,
      Recorded cfg versions events r := by
  rcases persist_table s.store.signals id signal reply with heq | ⟨confidence, hconfidence, hupsert⟩
  · rw [heq]
    exact h
  · intro r hr
    rcases UpsertTable.mem_of_upsert hupsert hr with hr | rfl | ⟨old, hold, hkey, rfl⟩
    · exact h r hr
    · exact ⟨signal, confidence, hsignal, hconfidence, rfl⟩
    · -- The symbol is that of the old row, which is a row of the same snapshot.
      obtain ⟨oldSignal, oldConfidence, ⟨sv, row, -, hrow, hgenerated⟩, -, hcolumns⟩ := h old hold
      have hnew := hsignal
      obtain ⟨sv', row', -, hrow', hgenerated'⟩ := hnew
      obtain ⟨hid, hsymbol⟩ := names_of_generated hgenerated
      obtain ⟨hid', hsymbol'⟩ := names_of_generated hgenerated'
      obtain ⟨hsnapshot, hversion⟩ : old.featureSnapshotId = signal.featureSnapshotId ∧
          old.strategyVersionId = signal.strategyVersionId := by
        simpa [EngineSignalRow.key, newSignalRow] using hkey
      have hold₁ : old.featureSnapshotId = oldSignal.featureSnapshotId := by
        rw [hcolumns]
        rfl
      have hold₂ : old.symbol = oldSignal.symbol := by
        rw [hcolumns]
        rfl
      have hsame : old.symbol = signal.symbol := by
        rw [hold₂, hsymbol, hsymbol']
        exact symbol_eq_of_held hrow hrow' (by rw [← hid, ← hid', ← hold₁, hsnapshot])
      refine ⟨signal, confidence, hsignal, hconfidence, ?_⟩
      simp [EngineSignalRow.update, newSignalRow, hsame, hsnapshot, hversion]

theorem mem_tally_decided {p : TickProgress} {event event' : DecisionEvent}
    (h : event' ∈ (p.tally (.decided event)).decisions) : event' ∈ p.decisions ∨ event' = event := by
  rcases List.mem_append.mp h with h | h
  · exact .inl h
  · exact .inr (List.mem_singleton.mp h)

theorem decisions_tally {p : TickProgress} {outcome : Outcome}
    (h : ∀ event, outcome ≠ .decided event) : (p.tally outcome).decisions = p.decisions := by
  cases outcome with
  | decided event => exact absurd rfl (h event)
  | refused | malformed | lineageInvalid => rfl

/-- What a tick that moves goes back to. -/
theorem move_history {i : ℕ} {id : String} {reply : UpsertReply} {stage : TickStage}
    (h : History cfg versions events s) (hs : s = reached cfg versions events)
    (hstage : stage ∈ s.ticks) (hmove : TickMove cfg s i id reply stage s') (hgrown : Grown s s') :
    History cfg versions (events ++ [e]) s' := by
  subst hs
  have hsound := h.ticks stage hstage
  cases hmove with
  | ended => exact h.of_eq hgrown rfl rfl fun t ht => .inl (List.mem_of_mem_eraseIdx ht)
  | resolved tickId hresolve =>
      refine h.of_eq hgrown rfl rfl fun t ht => ?_
      rcases List.mem_or_eq_of_mem_set ht with ht | rfl
      · exact .inl ht
      · exact .inr (versionHeld_reached (version_of_resolved hresolve))
  | admitted tickId lineage hadmitted =>
      refine h.of_eq hgrown rfl rfl fun t ht => ?_
      rcases List.mem_or_eq_of_mem_set ht with ht | rfl
      · exact .inl ht
      · have hversion : VersionHeld cfg versions events lineage.strategyVersion := hsound
        exact .inr ⟨hversion.append [e],
          fun row hrow => rowHeld_reached (held_of_admitted hadmitted row hrow),
          List.forall_mem_nil _⟩
  | counted tickId lineage row rest p houtcome =>
      refine h.of_eq hgrown rfl rfl fun t ht => ?_
      rcases List.mem_or_eq_of_mem_set ht with ht | rfl
      · exact .inl ht
      · obtain ⟨hversion, hwaiting, hdecisions⟩ := hsound
        refine .inr ⟨hversion.append [e],
          fun row hrow => (hwaiting row (List.mem_cons_of_mem _ hrow)).append [e], ?_⟩
        rw [decisions_tally houtcome]
        exact fun event hevent => (hdecisions event hevent).snoc hgrown
  | handed tickId lineage p =>
      obtain ⟨-, -, hdecisions⟩ := hsound
      refine ⟨fun t ht => (h.ticks t (List.mem_of_mem_eraseIdx ht)).snoc hgrown,
        fun r hr => (h.signals r hr).snoc, ?_⟩
      intro decisions hds event hevent
      rcases List.mem_append.mp hds with hds | hds
      · exact (h.handed decisions hds event hevent).snoc hgrown
      · obtain rfl := List.mem_singleton.mp hds
        exact (hdecisions event hevent).snoc hgrown
  | persisted tickId lineage row rest p hdecided hticks =>
      rename_i event ticks
      obtain ⟨hversion, hwaiting, hdecisions⟩ := hsound
      have hsignal : Generated cfg versions events event.signal :=
        ⟨lineage.strategyVersion, row, hversion, hwaiting row List.mem_cons_self,
          generated_of_decided hdecided⟩
      refine ⟨?_, fun r hr => (recorded_persist h.signals hsignal r hr).snoc,
        fun decisions hds event hevent => (h.handed decisions hds event hevent).snoc hgrown⟩
      intro t ht
      rcases hticks with rfl | ⟨⟨answer, hanswer⟩, rfl⟩
      · exact (h.ticks t (List.mem_of_mem_eraseIdx ht)).snoc hgrown
      · rcases List.mem_or_eq_of_mem_set ht with ht | rfl
        · exact (h.ticks t ht).snoc hgrown
        · refine ⟨hversion.append [e],
            fun row hrow => (hwaiting row (List.mem_cons_of_mem _ hrow)).append [e], ?_⟩
          intro event' hevent'
          rcases mem_tally_decided hevent' with hevent' | rfl
          · exact (hdecisions event' hevent').snoc hgrown
          · -- The tick goes on once the row of the signal stands.
            obtain ⟨r, hr, -, hkey⟩ := persisted_of_ok hanswer
            exact ⟨hsignal.snoc, r, hr, hkey⟩

theorem step_history (h : History cfg versions events s) (hs : s = reached cfg versions events) :
    History cfg versions (events ++ [e]) (s.step cfg e) := by
  have hgrown := step_grown cfg s e
  cases e with
  | validate v featureSet version size write =>
      change Grown s (s.validate cfg v featureSet version size write) at hgrown
      show History cfg versions _ (s.validate cfg v featureSet version size write)
      rcases validate_cases cfg s v featureSet version size write with
        heq | ⟨row, -, -, heq | ⟨input, -, -, heq⟩⟩
      all_goals
        rw [heq] at hgrown ⊢
        exact h.of_eq hgrown rfl rfl fun t ht => .inl ht
  | compute i reply =>
      change Grown s (s.compute cfg i reply) at hgrown
      show History cfg versions _ (s.compute cfg i reply)
      rcases compute_cases cfg s i reply with heq | ⟨input, bridges, -, heq, -⟩
      all_goals
        rw [heq] at hgrown ⊢
        exact h.of_eq hgrown rfl rfl fun t ht => .inl ht
  | upsertSnapshot i id write =>
      change Grown s (s.upsertSnapshot i id write) at hgrown
      show History cfg versions _ (s.upsertSnapshot i id write)
      rcases upsertSnapshot_cases s i id write with heq | ⟨columns, -, heq | ⟨snapshots, -, heq⟩⟩
      all_goals
        rw [heq] at hgrown ⊢
        exact h.of_eq hgrown rfl rfl fun t ht => .inl ht
  | abandonBridge i | govern rows => exact h.of_eq hgrown rfl rfl fun t ht => .inl ht
  | beginTick tickId =>
      refine h.of_eq hgrown rfl rfl fun t ht => ?_
      rcases List.mem_append.mp ht with ht | ht
      · exact .inl ht
      · rw [List.mem_singleton.mp ht]
        exact .inr trivial
  | abandonTick i => exact h.of_eq hgrown rfl rfl fun t ht => .inl (List.mem_of_mem_eraseIdx ht)
  | tick i id reply =>
      rcases step_tick_cases cfg s i id reply with heq | ⟨stage, hstage, heq⟩
      · rw [heq] at hgrown ⊢
        exact h.of_eq hgrown rfl rfl fun t ht => .inl ht
      · rw [heq] at hgrown ⊢
        exact move_history h hs hstage (stepTick_move cfg s i id reply stage) hgrown

theorem initial_history (cfg : ChainConfig) (versions : List StrategyVersionRow) :
    History cfg versions [] (.initial versions) where
  ticks := List.forall_mem_nil _
  signals := List.forall_mem_nil _
  handed := List.forall_mem_nil _

end Steps

theorem reached_history (cfg : ChainConfig) (versions : List StrategyVersionRow)
    (events : List ChainEvent) : History cfg versions events (reached cfg versions events) := by
  have hstep : ∀ (done : List ChainEvent) (e : ChainEvent),
      History cfg versions done (reached cfg versions done) →
      History cfg versions (done ++ [e]) ((reached cfg versions done).step cfg e) :=
    fun _ _ h => step_history h rfl
  exact run_history (initial_history cfg versions) hstep events

/-! ## The chain -/

/-- A snapshot that a tick has read is supported, for good. -/
theorem supports_of_rowHeld {versions : List StrategyVersionRow} {events : List ChainEvent}
    {row : FeatureSnapshotRow} (h : RowHeld cfg versions events row) :
    ∃ snapshot, ∃ e : Evidence,
      Past (ChainState.step cfg) (.initial versions) events
        (fun s => snapshot ∈ s.store.snapshots.rows) ∧
      e.Supports cfg (reached cfg versions events) snapshot.columns ∧
      row = joinedRow snapshot e.report := by
  obtain ⟨done, hdone, snapshot, hsnapshot, hjoined⟩ := h
  obtain ⟨e, he⟩ := (run_sound cfg versions done).snapshots snapshot hsnapshot
  obtain ⟨report, hreport, rfl⟩ := Option.map_eq_some_iff.mp hjoined
  rw [he.filed] at hreport
  obtain rfl := Option.some.inj hreport
  exact ⟨snapshot, e, ⟨done, hdone, hsnapshot⟩, he.mono (run_grown cfg hdone), rfl⟩

/-- However daemons, ticks and governance interleave and fail, a stored signal is what its engine derives
from a version that was active and a snapshot that stood in the table, so that its replay on them matches;
the snapshot is, as it came, what the quant service answered to a request with candles of a window that had
passed the gate, under the name of the report of that window. -/
theorem signals_have_evidence (cfg : ChainConfig) (versions : List StrategyVersionRow)
    (events : List ChainEvent) (r : EngineSignalRow)
    (hr : r ∈ (reached cfg versions events).store.signals.rows) :
    ∃ sv snapshot, ∃ e : Evidence,
      VersionHeld cfg versions events sv ∧
      Past (ChainState.step cfg) (.initial versions) events
        (fun s => snapshot ∈ s.store.snapshots.rows) ∧
      e.Supports cfg (reached cfg versions events) snapshot.columns ∧
      JsNumber.le (.fin minDataQualityScore) e.report.score ∧
      ∃ result, replayEngineSignal r.persisted (engineInput sv (joinedRow snapshot e.report)) =
        .ok result ∧ result.replayResult = .matched := by
  obtain ⟨signal, confidence, ⟨sv, row, hsv, hrow, hgenerated⟩, hconfidence, hcolumns⟩ :=
    (reached_history cfg versions events).signals r hr
  obtain ⟨snapshot, e, hsnapshot, he, rfl⟩ := supports_of_rowHeld hrow
  refine ⟨sv, snapshot, e, hsv, hsnapshot, he, score_of_passed he.report he.passed, ?_⟩
  rw [hcolumns]
  exact replay_persisted hgenerated hconfidence

section Sample

def sampleAnswer : String :=
  "\x7b\"featureHash\":\"fh1\",\"features\":\x7b\"ema_20\":110,\"ema_50\":105,\"ema_200\":100," ++
    "\"rsi_14\":60,\"realized_vol_30\":0.01\x7d,\"feature_set\":\"core-technical\",\"version\":1," ++
    "\"as_of_ts\":\"1970-01-01T00:00:00.000Z\",\"input_candle_count\":1\x7d"

def sampleChain : ChainConfig where
  computeDatasetHash _ := "ds1"
  client := ⟨"http://quant", fun _ => "Unexpected token", fun _ => some 0⟩
  pipeline := sampleDeps
  featureSets := [⟨"fs1", "core-technical", 1⟩]

/-- One hour of one symbol, which the statistical service has nothing to say about. -/
def sampleValidation : Validation where
  id := "dq1"
  quantBaseUrl := some "http://quant"
  reply := .response 200 (.ok (.arr []))
  scope := ⟨.binance, "BTC-USDT", .h1, 0, 3600000⟩
  candles := [⟨.binance, "BTC-USDT", .perp, .h1, 0, "100.00000000", "110.00000000", "90.00000000",
    "105.00000000", "1000.00000000", none⟩]

/-- The window becomes a snapshot, and a tick takes it to its execution stage. -/
def chainEvents : List ChainEvent :=
  [.validate sampleValidation "core-technical" 1 300 .done,
    .compute 0 (.response 200 (.ok sampleAnswer)), .upsertSnapshot 0 "snap1" .done,
    .beginTick (some "tick1"), .tick 0 "" .done, .tick 0 "" .done, .tick 0 "sig1" .done,
    .tick 0 "" .done]

def chainVersions : List StrategyVersionRow := [⟨"sv1", true, 0, .obj []⟩]

def chainSignal : EngineSignalRow where
  id := "sig1"
  symbol := "BTC-USDT"
  side := .long
  decision := .long
  confidence := 3 / 20
  strategyVersionId := "sv1"
  strategyParams := defaultSignalParams
  featureSnapshotId := "snap1"
  dqReportId := "dq1"
  datasetHash := "ds1"
  featureHash := "fh1"

theorem signals_have_evidence_sample :
    (reached sampleChain chainVersions chainEvents).store.signals.rows = [chainSignal] ∧
    ∃ sv snapshot, ∃ e : Evidence,
      VersionHeld sampleChain chainVersions chainEvents sv ∧
      Past (ChainState.step sampleChain) (.initial chainVersions) chainEvents
        (fun s => snapshot ∈ s.store.snapshots.rows) ∧
      e.Supports sampleChain (reached sampleChain chainVersions chainEvents) snapshot.columns ∧
      JsNumber.le (.fin minDataQualityScore) e.report.score ∧
      ∃ result, replayEngineSignal chainSignal.persisted
          (engineInput sv (joinedRow snapshot e.report)) = .ok result ∧
        result.replayResult = .matched := by
  have hrows : (reached sampleChain chainVersions chainEvents).store.signals.rows =
      [chainSignal] := by
    decide +kernel
  refine ⟨hrows, signals_have_evidence sampleChain chainVersions chainEvents chainSignal ?_⟩
  rw [hrows]
  exact List.mem_singleton_self chainSignal

end Sample

/-- A decision is handed to the execution stage only with its observation on record: a row of its snapshot
and its version stands in the table, and what it was derived from had passed the gate. -/
theorem handed_decisions_on_record (cfg : ChainConfig) (versions : List StrategyVersionRow)
    (events : List ChainEvent) (decisions : List DecisionEvent)
    (hdecisions : decisions ∈ (reached cfg versions events).handed) (event : DecisionEvent)
    (hevent : event ∈ decisions) :
    (∃ r ∈ (reached cfg versions events).store.signals.rows,
      r.key = (event.signal.featureSnapshotId, event.signal.strategyVersionId)) ∧
    ∃ sv snapshot, ∃ e : Evidence,
      VersionHeld cfg versions events sv ∧
      e.Supports cfg (reached cfg versions events) snapshot.columns ∧
      generateSignal (engineInput sv (joinedRow snapshot e.report)) =
        .ok (.generated event.signal) := by
  obtain ⟨⟨sv, row, hsv, hrow, hgenerated⟩, hrecord⟩ :=
    (reached_history cfg versions events).handed decisions hdecisions event hevent
  obtain ⟨snapshot, e, -, he, rfl⟩ := supports_of_rowHeld hrow
  exact ⟨hrecord, sv, snapshot, e, hsv, he, hgenerated⟩

theorem handed_decisions_on_record_sample :
    ∃ event, [event] ∈ (reached sampleChain chainVersions chainEvents).handed ∧
      (∃ r ∈ (reached sampleChain chainVersions chainEvents).store.signals.rows,
        r.key = (event.signal.featureSnapshotId, event.signal.strategyVersionId)) ∧
      ∃ sv snapshot, ∃ e : Evidence,
        VersionHeld sampleChain chainVersions chainEvents sv ∧
        e.Supports sampleChain (reached sampleChain chainVersions chainEvents) snapshot.columns ∧
        generateSignal (engineInput sv (joinedRow snapshot e.report)) =
          .ok (.generated event.signal) := by
  have hlength : (reached sampleChain chainVersions chainEvents).handed.map List.length = [1] := by
    decide +kernel
  obtain ⟨decisions, hdecisions, hone⟩ := List.map_eq_singleton_iff.mp hlength
  obtain ⟨event, rfl⟩ := List.length_eq_one_iff.mp hone
  have hhanded : [event] ∈ (reached sampleChain chainVersions chainEvents).handed := by
    rw [hdecisions]
    exact List.mem_singleton_self [event]
  exact ⟨event, hhanded, handed_decisions_on_record sampleChain chainVersions chainEvents [event]
    hhanded event (List.mem_singleton_self event)⟩

end NexusQuant.Pipeline
