import NexusQuant.Lib.KeyedLists
import NexusQuant.Pipeline.Tick

/-!
# What the fingerprint of a tick determines

The fingerprint names the strategy version and, of every snapshot, the ids and the hashes; it holds
neither the parameters of the version nor the score and the status of a report.  Two ticks with one
fingerprint consider the same snapshots, and their outputs are the same exactly where those values
are too, as far as a readable snapshot makes the engine look at them.
-/

namespace NexusQuant.Pipeline

open Fallible
open Signal
open TradingDecision (SignalParams)

/-! ## The rows of a tick -/

theorem latestPerSymbol_spec (rows : List FeatureSnapshotRow) :
    (latestPerSymbol rows).keys.Nodup ∧
      ∀ p ∈ latestPerSymbol rows, p.2.symbol = p.1 ∧ p.2 ∈ rows := by
  unfold latestPerSymbol
  apply List.foldlRecOn (motive := fun latest : Dict FeatureSnapshotRow =>
    latest.keys.Nodup ∧ ∀ p ∈ latest, p.2.symbol = p.1 ∧ p.2 ∈ rows)
  · exact ⟨List.nodup_nil, fun p hp => absurd hp List.not_mem_nil⟩
  · intro latest hlatest row hrow
    split
    · exact ⟨Dict.nodup_keys_set hlatest.1, Dict.forall_set hlatest.2 ⟨rfl, hrow⟩⟩
    · exact hlatest

section Rows

variable {deps : PipelineDeps} {db : Database} {featureSetId : String}

/-- A tick considers one row of a symbol. -/
theorem nodup_symbols : ((consideredRows deps db featureSetId).map fun r => r.symbol).Nodup := by
  obtain ⟨hnodup, hspec⟩ := latestPerSymbol_spec (scannedRows deps db featureSetId)
  have hkeys : ((latestPerSymbol (scannedRows deps db featureSetId)).map Prod.snd).map
      (fun r => r.symbol) = (latestPerSymbol (scannedRows deps db featureSetId)).keys := by
    rw [List.map_map]
    exact List.map_congr_left fun p hp => (hspec p hp).1
  unfold consideredRows
  rw [((List.perm_insertionSort _ _).map _).nodup_iff, hkeys]
  exact hnodup

theorem mem_of_mem_considered {row : FeatureSnapshotRow}
    (h : row ∈ consideredRows deps db featureSetId) : row ∈ db.featureSnapshots := by
  unfold consideredRows at h
  rw [(List.perm_insertionSort _ _).mem_iff] at h
  obtain ⟨p, hp, rfl⟩ := List.mem_map.mp h
  have hscanned := ((latestPerSymbol_spec _).2 p hp).2
  have hsorted := List.mem_of_mem_take hscanned
  rw [(List.perm_insertionSort _ _).mem_iff] at hsorted
  exact List.mem_of_mem_filter hsorted

end Rows

/-! ## What a snapshot gives -/

/-- The event of a snapshot, if the engine does not refuse it. -/
def decided? (registry : StrategyRegistry) (tickId : Option String) (sv : SignalStrategyVersion)
    (row : FeatureSnapshotRow) : Option DecisionEvent :=
  match generateSignal (engineInput sv row) with
  | .ok (.generated signal) =>
      some (deriveDecisionEvent signal (registry.resolve signal.strategyVersionId) tickId)
  | _ => none

section Snapshot

variable {registry : StrategyRegistry} {t : TickContext} {sv : SignalStrategyVersion}
  {params : SignalParams}

/-- The generated signal cites the artifacts it comes from. -/
theorem lineage_candidateOf {row : FeatureSnapshotRow} {result : SignalDecisionResult}
    (hparams : resolveSignalParams sv.parameters = .ok params) :
    ∃ lineage, verifySignalLineage (candidateOf (signalOf (engineInput sv row) params result))
      (engineInput sv row) = .ok lineage ∧ lineage.lineageValid :=
  lineage_valid_iff.mpr ⟨⟨rfl, rfl, rfl, rfl, rfl, rfl⟩, params, hparams, ⟨rfl, rfl, rfl⟩⟩

/-- Neither the contract nor the lineage check stops a snapshot. -/
theorem outcomeOf_eq (hparams : resolveSignalParams sv.parameters = .ok params)
    (row : FeatureSnapshotRow) :
    (∃ event, decided? registry t.tickId sv row = some event ∧
      outcomeOf registry t sv row = .ok (.decided event)) ∨
    (decided? registry t.tickId sv row = none ∧
      ∃ reason, outcomeOf registry t sv row = .ok (.refused reason)) := by
  have hfinite := finite_of_resolve hparams
  unfold decided? outcomeOf
  cases hgenerate : generateSignal (engineInput sv row) with
  | error message =>
      -- Only the reading of the parameters throws.
      unfold generateSignal at hgenerate
      split at hgenerate
      · cases hgenerate
      · rw [show (engineInput sv row).strategyVersion.parameters = sv.parameters from rfl,
          hparams] at hgenerate
        cases hgenerate
  | ok result =>
      cases result with
      | refused reason => exact .inr ⟨rfl, reason, rfl⟩
      | generated signal =>
          obtain ⟨-, live, result, hlive, hdecide, rfl⟩ := generateSignal_iff.mp hgenerate
          obtain ⟨x, -, rfl⟩ := map_eq_ok.mp hdecide
          have hlive' : resolveSignalParams sv.parameters = .ok live := hlive
          obtain rfl := Except.ok.inj (hparams.symm.trans hlive')
          obtain ⟨lineage, hverify, hvalid⟩ :=
            @lineage_candidateOf sv params row (decideInputs x params) hparams
          apply Or.inl
          refine ⟨_, rfl, ?_⟩
          dsimp only [Except.bind]
          rw [malformedSignalReason_signalOf hfinite]
          dsimp only
          rw [hverify]
          show Except.ok (if lineage.lineageValid = true then _ else _) = _
          rw [if_pos hvalid]

/-- The loop publishes the events of the snapshots that have one, and refuses the others. -/
theorem runSnapshots_eq (hparams : resolveSignalParams sv.parameters = .ok params)
    {rows : List FeatureSnapshotRow} {p p' : TickProgress}
    (h : runSnapshots registry t sv p rows = .ok p') :
    p' =
      { generated := p.generated + (rows.filterMap (decided? registry t.tickId sv)).length
        refused := p.refused +
          (rows.length - (rows.filterMap (decided? registry t.tickId sv)).length)
        lineageRejected := p.lineageRejected
        malformedRejected := p.malformedRejected
        decisions := p.decisions ++ rows.filterMap (decided? registry t.tickId sv) } := by
  induction rows generalizing p with
  | nil =>
      rw [← Except.ok.inj h]
      simp
  | cons row rest ih =>
      obtain ⟨outcome, houtcome, hstep⟩ := bind_eq_ok.mp h
      obtain ⟨q, hpublish, hrest⟩ := bind_eq_ok.mp hstep
      have hlength := List.length_filterMap_le (decided? registry t.tickId sv) rest
      rcases @outcomeOf_eq registry t sv params hparams row with
        ⟨event, hdecided, heq⟩ | ⟨hdecided, reason, heq⟩
      · rw [heq] at houtcome
        obtain rfl := Except.ok.inj houtcome
        have hq : q = p.tally (.decided event) := by
          unfold publishOutcome at hpublish
          dsimp only at hpublish
          split at hpublish
          · cases hpublish
          · exact (Except.ok.inj hpublish).symm
        rw [ih hrest, hq, List.filterMap_cons_some hdecided]
        simp only [TickProgress.tally, List.length_cons, List.append_assoc, List.singleton_append,
          TickProgress.mk.injEq, and_true]
        omega
      · rw [heq] at houtcome
        obtain rfl := Except.ok.inj houtcome
        have hq : q = p.tally (.refused reason) := (Except.ok.inj hpublish).symm
        rw [ih hrest, hq, List.filterMap_cons_none hdecided]
        simp only [TickProgress.tally, List.length_cons, TickProgress.mk.injEq, and_true, true_and]
        omega

/-- A snapshot whose features cannot be read has no event. -/
theorem decided?_of_unreadable {registry : StrategyRegistry} {tickId : Option String}
    {sv : SignalStrategyVersion} {row : FeatureSnapshotRow} {message : String}
    (hread : readInputs (featuresOf row.features) = .error message) :
    decided? registry tickId sv row = none := by
  unfold decided?
  cases hgenerate : generateSignal (engineInput sv row) with
  | error => rfl
  | ok result =>
      cases result with
      | refused reason => rfl
      | generated signal =>
          obtain ⟨-, live, result, -, hdecide, -⟩ := generateSignal_iff.mp hgenerate
          obtain ⟨x, hx, -⟩ := map_eq_ok.mp hdecide
          rw [show (engineInput sv row).featureSnapshot.features = featuresOf row.features from rfl,
            hread] at hx
          cases hx

/-- The event of a snapshot whose features can be read. -/
theorem decided?_of_readable {registry : StrategyRegistry} {tickId : Option String}
    {row : FeatureSnapshotRow} {x : RuleInputs}
    (hparams : resolveSignalParams sv.parameters = .ok params)
    (hread : readInputs (featuresOf row.features) = .ok x) :
    decided? registry tickId sv row =
      if belowFloor row.dqReport then none
      else some (deriveDecisionEvent (signalOf (engineInput sv row) params (decideInputs x params))
        (registry.resolve sv.id) tickId) := by
  by_cases hfloor : belowFloor row.dqReport
  · have hrefused : generateSignal (engineInput sv row) =
        .ok (.refused (floorText row.dqReport ++ "signal refused")) := if_pos hfloor
    rw [if_pos hfloor, decided?, hrefused]
  · have hgenerated : generateSignal (engineInput sv row) =
        .ok (.generated (signalOf (engineInput sv row) params (decideInputs x params))) :=
      generateSignal_iff.mpr ⟨Bool.not_eq_true _ ▸ hfloor, params, decideInputs x params, hparams,
        map_eq_ok.mpr ⟨x, hread, rfl⟩, rfl⟩
    rw [if_neg hfloor, decided?, hgenerated]
    rfl

theorem symbol_of_decided? {registry : StrategyRegistry} {tickId : Option String}
    {sv : SignalStrategyVersion} {row : FeatureSnapshotRow} {event : DecisionEvent}
    (h : decided? registry tickId sv row = some event) : event.signal.symbol = row.symbol := by
  unfold decided? at h
  split at h
  · rename_i signal hgenerate
    obtain ⟨-, live, result, -, -, rfl⟩ := generateSignal_iff.mp hgenerate
    cases h
    rfl
  · cases h

theorem map_untick_decided? (registry : StrategyRegistry) (tickId : Option String)
    (sv : SignalStrategyVersion) (rows : List FeatureSnapshotRow) :
    (rows.filterMap (decided? registry tickId sv)).map DecisionEvent.untick =
      rows.filterMap (decided? registry none sv) := by
  rw [List.map_filterMap]
  apply List.filterMap_congr
  intro row hrow
  unfold decided?
  split
  · rename_i signal hgenerate
    rw [Option.map_some, untick_deriveDecisionEvent]
  · rfl

end Snapshot

/-! ## A whole tick -/

section Tick

variable {deps : PipelineDeps} {db : Database} {t : TickContext}

/-- The parameters of an admitted version are an object, which resolves. -/
theorem resolve_of_lineage {lineage : PersistedLineage}
    (h : resolvePersistedLineage deps db = .ok lineage) :
    ∃ params, resolveSignalParams lineage.strategyVersion.parameters = .ok params := by
  unfold resolvePersistedLineage at h
  split at h
  · cases h
  · split at h
    · cases h
    · rename_i version _
      obtain ⟨_, hvalid, rfl⟩ := map_eq_ok.mp h
      unfold assertValidStrategyVersionRow at hvalid
      split at hvalid
      · cases hvalid
      · split at hvalid
        · cases hvalid
        · rename_i hplain
          dsimp only
          cases hparameters : version.parameters with
          | obj members => exact ⟨_, rfl⟩
          | undefined | null | bool | num | str | arr =>
              rw [hparameters] at hplain
              exact absurd rfl hplain

/-- What a tick reports. -/
theorem tick_eq {r : PipelineTickResult} (h : runSignalPipelineTick deps db t = .ok r) :
    ∃ lineage, resolvePersistedLineage deps db = .ok lineage ∧
      r.inputHash = computeInputHash deps lineage.featureSetId lineage.strategyVersion.id
        (consideredRows deps db lineage.featureSetId) ∧
      ∃ decisions, decisions = (consideredRows deps db lineage.featureSetId).filterMap
          (decided? deps.registry t.tickId lineage.strategyVersion) ∧
        r.progress = ⟨decisions.length,
          (consideredRows deps db lineage.featureSetId).length - decisions.length, 0, 0,
          decisions⟩ := by
  obtain ⟨lineage, hlineage, hrows⟩ := bind_eq_ok.mp h
  have hlineage' : resolvePersistedLineage deps db = .ok lineage := by
    cases hresolve : resolvePersistedLineage deps db with
    | error e =>
        rw [hresolve] at hlineage
        cases hlineage
    | ok l =>
        rw [hresolve] at hlineage
        rw [Except.ok.inj hlineage]
  obtain ⟨params, hparams⟩ := resolve_of_lineage hlineage'
  refine ⟨lineage, hlineage', ?_⟩
  dsimp only at hrows
  split at hrows
  · cases hrows
  · obtain ⟨-, -, hloop⟩ := bind_eq_ok.mp hrows
    obtain ⟨progress, hprogress, rfl⟩ := map_eq_ok.mp hloop
    refine ⟨rfl, _, rfl, ?_⟩
    rw [show progress = _ from runSnapshots_eq hparams hprogress]
    simp

end Tick

/-! ## Two ticks with one fingerprint -/

/-- Two rows the fingerprint does not tell apart. -/
structure SameEntry (row₁ row₂ : FeatureSnapshotRow) : Prop where
  id : row₁.id = row₂.id
  symbol : row₁.symbol = row₂.symbol
  featureHash : row₁.featureHash = row₂.featureHash
  dqReportId : row₁.dqReport.id = row₂.dqReport.id
  datasetHash : row₁.dqReport.datasetHash = row₂.dqReport.datasetHash

theorem sameEntry_of_snapshotJson {row₁ row₂ : FeatureSnapshotRow}
    (h : snapshotJson row₁ = snapshotJson row₂) : SameEntry row₁ row₂ := by
  unfold snapshotJson at h
  simp only [Json.obj.injEq, List.cons.injEq, Prod.mk.injEq, Json.str.injEq, true_and] at h
  exact ⟨h.1, h.2.1, h.2.2.2.1, h.2.2.2.2.1, h.2.2.2.2.2.1⟩

theorem of_computeInputHash_eq {deps : PipelineDeps} (hsha256 : Function.Injective deps.sha256)
    {featureSetId₁ featureSetId₂ versionId₁ versionId₂ : String}
    {rows₁ rows₂ : List FeatureSnapshotRow}
    (h : computeInputHash deps featureSetId₁ versionId₁ rows₁ =
      computeInputHash deps featureSetId₂ versionId₂ rows₂) :
    versionId₁ = versionId₂ ∧ rows₁.map snapshotJson = rows₂.map snapshotJson := by
  have hjson := Json.print_injective (hsha256 h)
  unfold inputJson at hjson
  simp only [Json.obj.injEq, List.cons.injEq, Prod.mk.injEq, Json.str.injEq, Json.arr.injEq,
    true_and, and_true] at hjson
  exact ⟨hjson.2.1, hjson.2.2⟩

/-- The engine makes the same of what the fingerprint leaves out: the two reports pass the floor
together, and where they do the two versions resolve to the same parameters. -/
structure EngineAgrees (sv₁ sv₂ : SignalStrategyVersion) (row₁ row₂ : FeatureSnapshotRow) :
    Prop where
  floor : belowFloor row₁.dqReport = belowFloor row₂.dqReport
  params : belowFloor row₁.dqReport = false →
    resolveSignalParams sv₁.parameters = resolveSignalParams sv₂.parameters

def Readable (row : FeatureSnapshotRow) : Prop := ∃ x, readInputs (featuresOf row.features) = .ok x

/-- One event comes of two such rows exactly where the engine makes the same of them. -/
theorem decided?_eq_iff {registry : StrategyRegistry} {sv₁ sv₂ : SignalStrategyVersion}
    {row₁ row₂ : FeatureSnapshotRow} {params₁ params₂ : SignalParams}
    (hparams₁ : resolveSignalParams sv₁.parameters = .ok params₁)
    (hparams₂ : resolveSignalParams sv₂.parameters = .ok params₂) (hid : sv₁.id = sv₂.id)
    (hentry : SameEntry row₁ row₂) (hfeatures : row₁.features = row₂.features) :
    decided? registry none sv₁ row₁ = decided? registry none sv₂ row₂ ↔
      (Readable row₁ → EngineAgrees sv₁ sv₂ row₁ row₂) := by
  cases hread : readInputs (featuresOf row₁.features) with
  | error message =>
      rw [decided?_of_unreadable hread, decided?_of_unreadable (hfeatures ▸ hread)]
      apply iff_of_true rfl
      rintro ⟨x, hx⟩
      rw [hread] at hx
      cases hx
  | ok x =>
      have hreadable : Readable row₁ := ⟨x, hread⟩
      have hsignal : ∀ params, signalOf (engineInput sv₁ row₁) params (decideInputs x params) =
          signalOf (engineInput sv₂ row₂) params (decideInputs x params) := by
        intro params
        simp only [signalOf, engineInput, hid, hentry.id, hentry.symbol, hentry.featureHash,
          hentry.dqReportId, hentry.datasetHash]
      rw [decided?_of_readable hparams₁ hread, decided?_of_readable hparams₂ (hfeatures ▸ hread)]
      by_cases hfloor₁ : belowFloor row₁.dqReport
      · by_cases hfloor₂ : belowFloor row₂.dqReport
        · rw [if_pos hfloor₁, if_pos hfloor₂]
          exact iff_of_true rfl fun _ =>
            ⟨hfloor₁.trans hfloor₂.symm, fun h => nomatch h.symm.trans hfloor₁⟩
        · rw [if_pos hfloor₁, if_neg hfloor₂]
          exact iff_of_false (fun h => nomatch h) fun h =>
            hfloor₂ ((h hreadable).floor.symm.trans hfloor₁)
      · by_cases hfloor₂ : belowFloor row₂.dqReport
        · rw [if_neg hfloor₁, if_pos hfloor₂]
          exact iff_of_false (fun h => nomatch h) fun h =>
            hfloor₁ ((h hreadable).floor.trans hfloor₂)
        · rw [if_neg hfloor₁, if_neg hfloor₂]
          rw [Bool.not_eq_true] at hfloor₁ hfloor₂
          constructor
          · intro h _
            -- The signal carries the parameters it was generated with.
            have hparams : params₁ = params₂ :=
              congrArg (fun event => event.signal.strategyParams) (Option.some.inj h)
            exact ⟨hfloor₁.trans hfloor₂.symm, fun _ => by rw [hparams₁, hparams₂, hparams]⟩
          · intro h
            have hparams := (h hreadable).params hfloor₁
            rw [hparams₁, hparams₂] at hparams
            rw [Except.ok.inj hparams, hsignal, hid]

/-- What two ticks publish, apart from their ids, and count. -/
structure SameOutput (r₁ r₂ : PipelineTickResult) : Prop where
  decisions : r₁.progress.decisions.map DecisionEvent.untick =
    r₂.progress.decisions.map DecisionEvent.untick
  generated : r₁.progress.generated = r₂.progress.generated
  refused : r₁.progress.refused = r₂.progress.refused
  lineageRejected : r₁.progress.lineageRejected = r₂.progress.lineageRejected
  malformedRejected : r₁.progress.malformedRejected = r₂.progress.malformedRejected

/-- Of every symbol that two ticks consider, with features that can be read, the engine makes the
same of what their fingerprints leave out. -/
def UnlistedAgree (deps : PipelineDeps) (db₁ db₂ : Database) : Prop :=
  ∀ l₁ l₂, resolvePersistedLineage deps db₁ = .ok l₁ → resolvePersistedLineage deps db₂ = .ok l₂ →
    ∀ row₁ ∈ consideredRows deps db₁ l₁.featureSetId,
    ∀ row₂ ∈ consideredRows deps db₂ l₂.featureSetId, row₁.symbol = row₂.symbol →
      Readable row₁ → EngineAgrees l₁.strategyVersion l₂.strategyVersion row₁ row₂

/-- Two ticks with one fingerprint have one output exactly where the parameters, the scores and the
statuses, which the fingerprint does not hold, agree in what the engine reads of them. -/
theorem same_output_iff {deps : PipelineDeps} (hsha256 : Function.Injective deps.sha256)
    {db₁ db₂ : Database}
    (hfeatures : ∀ row₁ ∈ db₁.featureSnapshots, ∀ row₂ ∈ db₂.featureSnapshots,
      row₁.featureHash = row₂.featureHash → row₁.features = row₂.features)
    {t₁ t₂ : TickContext} {r₁ r₂ : PipelineTickResult}
    (hrun₁ : runSignalPipelineTick deps db₁ t₁ = .ok r₁)
    (hrun₂ : runSignalPipelineTick deps db₂ t₂ = .ok r₂) (hhash : r₁.inputHash = r₂.inputHash) :
    SameOutput r₁ r₂ ↔ UnlistedAgree deps db₁ db₂ := by
  obtain ⟨l₁, hl₁, hhash₁, decisions₁, hdecisions₁, hprogress₁⟩ := tick_eq hrun₁
  obtain ⟨l₂, hl₂, hhash₂, decisions₂, hdecisions₂, hprogress₂⟩ := tick_eq hrun₂
  obtain ⟨params₁, hparams₁⟩ := resolve_of_lineage hl₁
  obtain ⟨params₂, hparams₂⟩ := resolve_of_lineage hl₂
  rw [hhash₁, hhash₂] at hhash
  obtain ⟨hid, hrows⟩ := of_computeInputHash_eq hsha256 hhash
  have hname : ∀ row₁ row₂, snapshotJson row₁ = snapshotJson row₂ → row₁.symbol = row₂.symbol :=
    fun row₁ row₂ h => (sameEntry_of_snapshotJson h).symbol
  have hsymbols := KeyedLists.names_eq_of_map_eq hname hrows
  -- The events, without the ids of the ticks.
  have huntick₁ := map_untick_decided? deps.registry t₁.tickId l₁.strategyVersion
    (consideredRows deps db₁ l₁.featureSetId)
  have huntick₂ := map_untick_decided? deps.registry t₂.tickId l₂.strategyVersion
    (consideredRows deps db₂ l₂.featureSetId)
  rw [← hdecisions₁] at huntick₁
  rw [← hdecisions₂] at huntick₂
  have hcount : SameOutput r₁ r₂ ↔
      decisions₁.map DecisionEvent.untick = decisions₂.map DecisionEvent.untick := by
    constructor
    · intro h
      have hdecisions := h.decisions
      rw [hprogress₁, hprogress₂] at hdecisions
      exact hdecisions
    · intro h
      have hlength : decisions₁.length = decisions₂.length := by
        simpa using congrArg List.length h
      have htotal : (consideredRows deps db₁ l₁.featureSetId).length =
          (consideredRows deps db₂ l₂.featureSetId).length := by
        simpa using congrArg List.length hrows
      constructor
      · rw [hprogress₁, hprogress₂]
        exact h
      · rw [hprogress₁, hprogress₂]
        exact hlength
      · rw [hprogress₁, hprogress₂]
        show _ - _ = _ - _
        rw [hlength, htotal]
      · rw [hprogress₁, hprogress₂]
      · rw [hprogress₁, hprogress₂]
  rw [hcount, huntick₁, huntick₂, KeyedLists.filterMap_eq_iff hsymbols nodup_symbols
    (fun row _ event h => symbol_of_decided? h) (fun row _ event h => symbol_of_decided? h)]
  -- Symbol by symbol.
  have hpair : ∀ row₁ ∈ consideredRows deps db₁ l₁.featureSetId,
      ∀ row₂ ∈ consideredRows deps db₂ l₂.featureSetId, row₁.symbol = row₂.symbol →
      (decided? deps.registry none l₁.strategyVersion row₁ =
          decided? deps.registry none l₂.strategyVersion row₂ ↔
        (Readable row₁ → EngineAgrees l₁.strategyVersion l₂.strategyVersion row₁ row₂)) := by
    intro row₁ hrow₁ row₂ hrow₂ hsymbol
    have hentry := sameEntry_of_snapshotJson
      (KeyedLists.eq_of_map_eq hname nodup_symbols hrows row₁ hrow₁ row₂ hrow₂ hsymbol)
    exact decided?_eq_iff hparams₁ hparams₂ hid hentry (hfeatures row₁ (mem_of_mem_considered hrow₁)
      row₂ (mem_of_mem_considered hrow₂) hentry.featureHash)
  constructor
  · intro h m₁ m₂ hm₁ hm₂ row₁ hrow₁ row₂ hrow₂ hsymbol
    rw [hl₁] at hm₁
    rw [hl₂] at hm₂
    obtain rfl := Except.ok.inj hm₁
    obtain rfl := Except.ok.inj hm₂
    exact (hpair row₁ hrow₁ row₂ hrow₂ hsymbol).mp (h row₁ hrow₁ row₂ hrow₂ hsymbol)
  · intro h row₁ hrow₁ row₂ hrow₂ hsymbol
    exact (hpair row₁ hrow₁ row₂ hrow₂ hsymbol).mpr (h l₁ l₂ hl₁ hl₂ row₁ hrow₁ row₂ hrow₂ hsymbol)

/-! ### A snapshot under two scores and under two ceilings -/

section Sample

def sampleRow (score : ℚ) : FeatureSnapshotRow where
  id := "snap1"
  featureSetId := "fs1"
  exchange := "DERIBIT"
  symbol := "BTC-PERPETUAL"
  ts := ⟨"2026-01-01T00:00:00.000Z", .fin 1767225600000⟩
  featureHash := "fh1"
  features := .obj [("ema_20", .num (.fin 110)), ("ema_50", .num (.fin 105)),
    ("ema_200", .num (.fin 100)), ("rsi_14", .num (.fin 60)),
    ("realized_vol_30", .num (.fin (1 / 100)))]
  dqReport := ⟨"dq1", .fin score, .passed, "ds1"⟩

def sampleState (score : ℚ) (parameters : JsValue) : Database where
  featureSets := [⟨"fs1", "core-technical", 1⟩]
  strategyVersions := [⟨"sv1", true, 0, parameters⟩]
  featureSnapshots := [sampleRow score]

def sampleText : Bytes := Json.print (inputJson "fs1" "sv1" [sampleRow 95])

/-- The digest of the sample's text, and the bytes of any other text under a mark. -/
def sampleSha256 (text : Bytes) : String :=
  if text = sampleText then "d59abe6457a6bc16953271f49f5af1d9a8fc71de42321cf5e11c52921f42b174"
  else String.ofList ('#' :: text.map fun b => Char.ofNat b.toNat)

theorem sampleSha256_injective : Function.Injective sampleSha256 := by
  have hmark : ∀ text, "d59abe6457a6bc16953271f49f5af1d9a8fc71de42321cf5e11c52921f42b174" ≠
      String.ofList ('#' :: List.map (fun b : UInt8 => Char.ofNat b.toNat) text) := by
    intro text h
    have hhead : "d59abe6457a6bc16953271f49f5af1d9a8fc71de42321cf5e11c52921f42b174".toList.head? =
        some '#' := by
      rw [h, String.toList_ofList]
      rfl
    exact absurd hhead (by decide)
  have hbyte : Function.Injective fun b : UInt8 => Char.ofNat b.toNat := by
    intro a b h
    have hval : ∀ n < 256, (Char.ofNat n).toNat = n := by decide +kernel
    have hnat := congrArg Char.toNat h
    dsimp only at hnat
    rw [hval _ a.toNat_lt, hval _ b.toNat_lt] at hnat
    exact UInt8.toNat_inj.mp hnat
  intro a b h
  unfold sampleSha256 at h
  split at h
  · rename_i ha
    split at h
    · rename_i hb
      exact ha.trans hb.symm
    · exact absurd h (hmark b)
  · split at h
    · exact absurd h.symm (hmark a)
    · exact hbyte.list_map (List.cons.inj (String.ofList_injective h)).2

def sampleDeps : PipelineDeps where
  sha256 := sampleSha256
  idLe a b := decide (a ≤ b)
  registry := defaultStrategyRegistry

def sampleTick : TickContext := ⟨some "tick1", fun _ => none⟩

theorem sampleState_features (score₁ score₂ : ℚ) (parameters₁ parameters₂ : JsValue) :
    ∀ row₁ ∈ (sampleState score₁ parameters₁).featureSnapshots,
    ∀ row₂ ∈ (sampleState score₂ parameters₂).featureSnapshots,
      row₁.featureHash = row₂.featureHash → row₁.features = row₂.features := by
  intro row₁ hrow₁ row₂ hrow₂ _
  rw [List.mem_singleton.mp hrow₁, List.mem_singleton.mp hrow₂]
  rfl

theorem same_output_iff_scores :
    ∃ r₁ r₂, runSignalPipelineTick sampleDeps (sampleState 95 (.obj [])) sampleTick = .ok r₁ ∧
      runSignalPipelineTick sampleDeps (sampleState 97 (.obj [])) sampleTick = .ok r₂ ∧
      r₁.inputHash = "d59abe6457a6bc16953271f49f5af1d9a8fc71de42321cf5e11c52921f42b174" ∧
      (SameOutput r₁ r₂ ↔
        UnlistedAgree sampleDeps (sampleState 95 (.obj [])) (sampleState 97 (.obj []))) := by
  have hhash₁ : (runSignalPipelineTick sampleDeps (sampleState 95 (.obj [])) sampleTick).map
      (fun r => r.inputHash) =
        .ok "d59abe6457a6bc16953271f49f5af1d9a8fc71de42321cf5e11c52921f42b174" := by decide +kernel
  have hhash₂ : (runSignalPipelineTick sampleDeps (sampleState 97 (.obj [])) sampleTick).map
      (fun r => r.inputHash) =
        .ok "d59abe6457a6bc16953271f49f5af1d9a8fc71de42321cf5e11c52921f42b174" := by decide +kernel
  obtain ⟨r₁, hrun₁, hr₁⟩ := map_eq_ok.mp hhash₁
  obtain ⟨r₂, hrun₂, hr₂⟩ := map_eq_ok.mp hhash₂
  exact ⟨r₁, r₂, hrun₁, hrun₂, hr₁, same_output_iff sampleSha256_injective
    (sampleState_features 95 97 (.obj []) (.obj [])) hrun₁ hrun₂ (hr₁.trans hr₂.symm)⟩

/-- The ceiling of a version is edited in its row: one fingerprint, and an entry becomes an abstention. -/
theorem edited_ceiling_same_hash :
    Function.Injective sampleDeps.sha256 ∧
    (∀ row₁ ∈ (sampleState 95 (.obj [])).featureSnapshots,
      ∀ row₂ ∈ (sampleState 95
        (.obj [("maxRealizedVol", .num (.fin (1 / 1000)))])).featureSnapshots,
      row₁.featureHash = row₂.featureHash → row₁.features = row₂.features) ∧
    ∃ r₁ r₂, runSignalPipelineTick sampleDeps (sampleState 95 (.obj [])) sampleTick = .ok r₁ ∧
      runSignalPipelineTick sampleDeps
        (sampleState 95 (.obj [("maxRealizedVol", .num (.fin (1 / 1000)))])) sampleTick = .ok r₂ ∧
      r₁.inputHash = r₂.inputHash ∧ ¬ SameOutput r₁ r₂ := by
  have hrun : ∀ parameters action,
      (runSignalPipelineTick sampleDeps (sampleState 95 parameters) sampleTick).map
        (fun r => (r.inputHash, r.progress.decisions.map fun e => e.decision.action)) =
          .ok ("d59abe6457a6bc16953271f49f5af1d9a8fc71de42321cf5e11c52921f42b174", [action]) →
      ∃ r, runSignalPipelineTick sampleDeps (sampleState 95 parameters) sampleTick = .ok r ∧
        r.inputHash = "d59abe6457a6bc16953271f49f5af1d9a8fc71de42321cf5e11c52921f42b174" ∧
        (r.progress.decisions.map DecisionEvent.untick).map (fun e => e.decision.action) =
          [action] := by
    intro parameters action h
    obtain ⟨r, hrun, hr⟩ := map_eq_ok.mp h
    obtain ⟨hhash, hactions⟩ := Prod.mk.inj hr
    exact ⟨r, hrun, hhash, (List.map_map ..).trans hactions⟩
  obtain ⟨r₁, hrun₁, hr₁, hactions₁⟩ := hrun (.obj []) .enter (by decide +kernel)
  obtain ⟨r₂, hrun₂, hr₂, hactions₂⟩ :=
    hrun (.obj [("maxRealizedVol", .num (.fin (1 / 1000)))]) .standAside (by decide +kernel)
  refine ⟨sampleSha256_injective, sampleState_features 95 95 _ _, r₁, r₂, hrun₁, hrun₂,
    hr₁.trans hr₂.symm, ?_⟩
  intro hsame
  rw [hsame.decisions, hactions₂] at hactions₁
  cases hactions₁

end Sample

end NexusQuant.Pipeline
