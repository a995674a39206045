import NexusQuant.Signal.Engine

/-!
# Lineage and replay

`lineage.ts` and `replay.ts`: a persisted signal is checked against the artifacts it cites, and its
decision is derived again from them.  The generation reads the parameters of the live strategy row,
the replay those stored with the signal; the lineage check is what ties the two together.  It compares
them with `===`, which takes the two zeros for one, where the rule divides by one of them: a replay
matches exactly the signals the engine would generate unless a zero bound of the volatility has
changed its sign.
-/

namespace NexusQuant.Signal

open Fallible
open TradingDecision (SignalParams)

/-! ## Lineage (`lineage.ts`) -/

structure LineageVerification where
  lineageValid : Bool
  datasetHashMatch : Bool
  featureHashMatch : Bool
  strategyVersionMatch : Bool
  detail : String
deriving DecidableEq, Repr

/-- The stored parameters are, one by one, those the live row resolves to. -/
def paramsMatch (live : SignalParams) (snap : JsValue) : Except String Bool := do
  let rsiLongMin ← snap.member "rsiLongMin"
  let rsiShortMax ← snap.member "rsiShortMax"
  let maxRealizedVol ← snap.member "maxRealizedVol"
  .ok (JsValue.isNumber live.rsiLongMin rsiLongMin && JsValue.isNumber live.rsiShortMax rsiShortMax &&
    JsValue.isNumber live.maxRealizedVol maxRealizedVol)

/-- The texts of the checks that failed. -/
def problemsOf (checks : List (Bool × String)) : List String :=
  (checks.filter fun check => !check.1).map Prod.snd

def verifySignalLineage (signal : PersistedSignal) (input : SignalEngineInput) :
    Except String LineageVerification := do
  let snapshot := input.featureSnapshot
  let report := input.dqReport
  let featureSnapshotLink := signal.featureSnapshotId == snapshot.id
  let dqReportLink := signal.dqReportId == report.id
  let featureHashMatch := featureSnapshotLink && signal.featureHash == snapshot.featureHash
  let datasetHashMatch := dqReportLink && signal.datasetHash == report.datasetHash
  let symbolMatch := featureSnapshotLink && signal.symbol == snapshot.symbol
  let idMatch := signal.strategyVersionId == input.strategyVersion.id
  let live ← resolveSignalParams input.strategyVersion.parameters
  let stored ← paramsMatch live signal.strategyParams
  let strategyVersionMatch := idMatch && stored
  let lineageValid := featureSnapshotLink && dqReportLink && featureHashMatch && datasetHashMatch &&
    symbolMatch && strategyVersionMatch
  let problems := problemsOf
    [(featureSnapshotLink, "featureSnapshotId does not reference the snapshot"),
      (dqReportLink, "dqReportId does not reference the DQ report"),
      (featureHashMatch, "featureHash mismatch vs snapshot"),
      (datasetHashMatch, "datasetHash mismatch vs DQ report"),
      (symbolMatch, "symbol mismatch vs snapshot"),
      (idMatch, "strategyVersionId mismatch"),
      -- Reported only where the identifier is right.
      (!idMatch || stored, "strategy parameter drift vs persisted snapshot")]
  .ok
    { lineageValid
      datasetHashMatch
      featureHashMatch
      strategyVersionMatch
      detail := if lineageValid then "lineage intact" else "; ".intercalate problems }

/-! ## Replay (`replay.ts`) -/

inductive ReplayVerdict where
  | matched | decisionMismatch | refusedDq | abortedLineage | abortedFeatureVector
deriving DecidableEq, Repr

/-- `recomputedDecision`: a decision, or that the report was refused. -/
inductive Recomputed where
  | decision (d : SignalDecision)
  | refused
deriving DecidableEq, Repr

structure SignalReplayResult where
  replayResult : ReplayVerdict
  decisionMatch : Bool
  confidenceMatch : Bool
  sideMatch : Bool
  lineageMatch : Bool
  datasetHashMatch : Bool
  featureHashMatch : Bool
  strategyVersionMatch : Bool
  recomputedDecision : Option Recomputed
  recordedDecision : SignalDecision
  detail : String
deriving DecidableEq, Repr

def SignalDecision.text : SignalDecision → String
  | .long => "LONG"
  | .short => "SHORT"
  | .flat => "FLAT"

/-- The part of a result that the lineage check decides, with a verdict that was not reached by a
comparison. -/
def replayBase (signal : PersistedSignal) (lineage : LineageVerification) (verdict : ReplayVerdict)
    (recomputed : Option Recomputed) (detail : String) : SignalReplayResult where
  replayResult := verdict
  decisionMatch := false
  confidenceMatch := false
  sideMatch := false
  lineageMatch := lineage.lineageValid
  datasetHashMatch := lineage.datasetHashMatch
  featureHashMatch := lineage.featureHashMatch
  strategyVersionMatch := lineage.strategyVersionMatch
  recomputedDecision := recomputed
  recordedDecision := signal.decision
  detail := detail

/-- The recomputed decision against the recorded one. -/
def compareReplay (signal : PersistedSignal) (lineage : LineageVerification)
    (result : SignalDecisionResult) : SignalReplayResult :=
  let recomputedConfidence := quantizeConfidence result.confidence
  let decisionMatch := result.decision == signal.decision
  let confidenceMatch := recomputedConfidence == signal.confidence
  let sideMatch := result.side == signal.side
  let fullMatch := decisionMatch && confidenceMatch && sideMatch
  { replayBase signal lineage (if fullMatch then .matched else .decisionMismatch)
      (some (.decision result.decision))
      (if fullMatch then "decision + side + confidence reproduced from persisted artifacts"
        else "recomputed " ++ SignalDecision.text result.side ++ "/" ++
          SignalDecision.text result.decision ++ "/" ++ recomputedConfidence ++ " != recorded " ++
          SignalDecision.text signal.side ++ "/" ++ SignalDecision.text signal.decision ++ "/" ++
          signal.confidence) with
    decisionMatch
    confidenceMatch
    sideMatch }

def replayEngineSignal (signal : PersistedSignal) (input : SignalEngineInput)
    (negativeZero : Bool := false) : Except String SignalReplayResult := do
  let lineage ← verifySignalLineage signal input
  if !lineage.lineageValid then
    .ok (replayBase signal lineage .abortedLineage none lineage.detail)
  else if belowFloor input.dqReport then
    .ok (replayBase signal lineage .refusedDq (some .refused)
      (floorText input.dqReport ++ "refused"))
  else
    -- The parameters are those stored with the signal, not those of the live row.
    let params ← resolveSignalParams signal.strategyParams
    match decideSignal input.featureSnapshot.features params negativeZero with
    | .error message =>
        .ok (replayBase signal lineage .abortedFeatureVector none message)
    | .ok result => .ok (compareReplay signal lineage result)

/-! ## What the lineage check accepts -/

/-- The signal cites these artifacts, under their names and hashes. -/
structure Cites (signal : PersistedSignal) (input : SignalEngineInput) : Prop where
  featureSnapshotId : signal.featureSnapshotId = input.featureSnapshot.id
  dqReportId : signal.dqReportId = input.dqReport.id
  featureHash : signal.featureHash = input.featureSnapshot.featureHash
  datasetHash : signal.datasetHash = input.dqReport.datasetHash
  symbol : signal.symbol = input.featureSnapshot.symbol
  strategyVersionId : signal.strategyVersionId = input.strategyVersion.id

theorem paramsMatch_iff {live : SignalParams} (hfinite : FiniteParams live) {snap : JsValue} :
    paramsMatch live snap = .ok true ↔ Holds snap live := by
  have hnan : ∀ x : JsNumber, x.isFinite → x ≠ .nan := by
    intro x hx hnan
    rw [hnan] at hx
    cases hx
  unfold paramsMatch
  constructor
  · intro h
    obtain ⟨rsiLongMin, hlong, h⟩ := bind_eq_ok.mp h
    obtain ⟨rsiShortMax, hshort, h⟩ := bind_eq_ok.mp h
    obtain ⟨maxRealizedVol, hvol, h⟩ := bind_eq_ok.mp h
    have hall := Except.ok.inj h
    rw [Bool.and_eq_true, Bool.and_eq_true, JsValue.isNumber_iff, JsValue.isNumber_iff,
      JsValue.isNumber_iff] at hall
    rw [hall.1.1.1] at hlong
    rw [hall.1.2.1] at hshort
    rw [hall.2.1] at hvol
    exact ⟨hlong, hshort, hvol⟩
  · intro h
    rw [h.rsiLongMin, h.rsiShortMax, h.maxRealizedVol]
    show Except.ok _ = _
    rw [JsValue.isNumber_iff.mpr ⟨rfl, hnan _ hfinite.rsiLongMin⟩,
      JsValue.isNumber_iff.mpr ⟨rfl, hnan _ hfinite.rsiShortMax⟩,
      JsValue.isNumber_iff.mpr ⟨rfl, hnan _ hfinite.maxRealizedVol⟩]
    rfl

variable {signal : PersistedSignal} {input : SignalEngineInput}

/-- A lineage check that comes to an end, and what it says. -/
theorem verify_cases {lineage : LineageVerification}
    (h : verifySignalLineage signal input = .ok lineage) :
    ∃ live stored, resolveSignalParams input.strategyVersion.parameters = .ok live ∧
      paramsMatch live signal.strategyParams = .ok stored ∧
      (lineage.lineageValid = true ↔ Cites signal input ∧ stored = true) := by
  obtain ⟨live, hlive, h⟩ := bind_eq_ok.mp h
  obtain ⟨stored, hstored, h⟩ := bind_eq_ok.mp h
  cases h
  refine ⟨live, stored, hlive, hstored, ?_⟩
  simp only [Bool.and_eq_true, beq_iff_eq]
  constructor
  · rintro ⟨⟨⟨⟨⟨hsnapshot, hreport⟩, -, hfeature⟩, -, hdataset⟩, -, hsymbol⟩, hversion, hstored⟩
    exact ⟨⟨hsnapshot, hreport, hfeature, hdataset, hsymbol, hversion⟩, hstored⟩
  · rintro ⟨hcites, hstored⟩
    exact ⟨⟨⟨⟨⟨hcites.1, hcites.2⟩, hcites.1, hcites.3⟩, hcites.2, hcites.4⟩, hcites.1, hcites.5⟩,
      hcites.6, hstored⟩

/-- The lineage is intact exactly where the signal cites the artifacts and holds the parameters of the
live row. -/
theorem lineage_valid_iff :
    (∃ lineage, verifySignalLineage signal input = .ok lineage ∧ lineage.lineageValid) ↔
      Cites signal input ∧ ∃ live, resolveSignalParams input.strategyVersion.parameters = .ok live ∧
        Holds signal.strategyParams live := by
  constructor
  · rintro ⟨lineage, hverify, hvalid⟩
    obtain ⟨live, stored, hlive, hstored, hiff⟩ := verify_cases hverify
    obtain ⟨hcites, rfl⟩ := hiff.mp hvalid
    exact ⟨hcites, live, hlive, (paramsMatch_iff (finite_of_resolve hlive)).mp hstored⟩
  · rintro ⟨hcites, live, hlive, hholds⟩
    have hstored := (paramsMatch_iff (finite_of_resolve hlive)).mpr hholds
    have hok : ∃ lineage, verifySignalLineage signal input = .ok lineage := by
      unfold verifySignalLineage
      rw [hlive]
      show ∃ lineage, ((paramsMatch live signal.strategyParams).bind _) = .ok lineage
      rw [hstored]
      exact ⟨_, rfl⟩
    obtain ⟨lineage, hverify⟩ := hok
    obtain ⟨live', stored, hlive', hstored', hiff⟩ := verify_cases hverify
    rw [hlive] at hlive'
    cases hlive'
    rw [hstored] at hstored'
    cases hstored'
    exact ⟨lineage, hverify, hiff.mpr ⟨hcites, rfl⟩⟩

/-! ## What the replay accepts -/

/-- The comparison matches exactly the recorded decision, confidence and side. -/
theorem compareReplay_matched_iff {lineage : LineageVerification} {result : SignalDecisionResult} :
    (compareReplay signal lineage result).replayResult = .matched ↔
      result.decision = signal.decision ∧ quantizeConfidence result.confidence = signal.confidence ∧
        result.side = signal.side := by
  unfold compareReplay replayBase
  dsimp only
  split
  · rename_i hfull
    simp only [Bool.and_eq_true, beq_iff_eq] at hfull
    exact iff_of_true rfl ⟨hfull.1.1, hfull.1.2, hfull.2⟩
  · rename_i hfull
    refine iff_of_false (by decide) fun h => hfull ?_
    simp only [Bool.and_eq_true, beq_iff_eq]
    exact ⟨⟨h.1, h.2.1⟩, h.2.2⟩

/-- The record is the generated signal: every field, the parameters field by field. -/
structure SameSignal (signal : PersistedSignal) (g : GeneratedSignal) : Prop where
  symbol : signal.symbol = g.symbol
  side : signal.side = g.side
  decision : signal.decision = g.decision
  confidence : signal.confidence = g.confidence
  strategyVersionId : signal.strategyVersionId = g.strategyVersionId
  strategyParams : Holds signal.strategyParams g.strategyParams
  featureSnapshotId : signal.featureSnapshotId = g.featureSnapshotId
  dqReportId : signal.dqReportId = g.dqReportId
  datasetHash : signal.datasetHash = g.datasetHash
  featureHash : signal.featureHash = g.featureHash

/-- The replay once the lineage is known to be intact. -/
theorem replay_of_valid {lineage : LineageVerification} {live : SignalParams} {negativeZero : Bool}
    (hverify : verifySignalLineage signal input = .ok lineage) (hvalid : lineage.lineageValid)
    (hresolve : resolveSignalParams signal.strategyParams = .ok live)
    (hfloor : belowFloor input.dqReport = false) :
    replayEngineSignal signal input negativeZero =
      match decideSignal input.featureSnapshot.features live negativeZero with
      | .error message => .ok (replayBase signal lineage .abortedFeatureVector none message)
      | .ok result => .ok (compareReplay signal lineage result) := by
  unfold replayEngineSignal
  rw [hverify]
  show (if (!lineage.lineageValid) = true then _ else _) = _
  rw [hvalid, if_neg (by decide), if_neg (by rw [hfloor]; decide), hresolve]
  rfl

/-- A replay that matches went through every check. -/
theorem checks_of_matched {r : SignalReplayResult} {negativeZero : Bool}
    (h : replayEngineSignal signal input negativeZero = .ok r)
    (hmatched : r.replayResult = .matched) :
    (∃ lineage, verifySignalLineage signal input = .ok lineage ∧ lineage.lineageValid) ∧
      belowFloor input.dqReport = false := by
  obtain ⟨lineage, hverify, h⟩ := bind_eq_ok.mp h
  by_cases hvalid : lineage.lineageValid
  · rw [hvalid] at h
    refine ⟨⟨lineage, hverify, hvalid⟩, ?_⟩
    by_contra hfloor
    rw [Bool.not_eq_false] at hfloor
    rw [if_neg (by decide), if_pos hfloor] at h
    cases h
    cases hmatched
  · rw [Bool.not_eq_true] at hvalid
    rw [hvalid, if_pos (by decide)] at h
    cases h
    cases hmatched

/-! ## What both sides derive -/

/-- The record holds the outcome of the rule. -/
def Records (signal : PersistedSignal) (result : SignalDecisionResult) : Prop :=
  result.decision = signal.decision ∧ quantizeConfidence result.confidence = signal.confidence ∧
    result.side = signal.side

/-- The artifacts are cited and admitted, the live parameters stored, and the features read; the zero
of the bound has the given sign. -/
def Derives (signal : PersistedSignal) (input : SignalEngineInput) (negativeZero : Bool) : Prop :=
  Cites signal input ∧ belowFloor input.dqReport = false ∧ ∃ params x,
    resolveSignalParams input.strategyVersion.parameters = .ok params ∧
    Holds signal.strategyParams params ∧ readInputs input.featureSnapshot.features = .ok x ∧
    Records signal (decideInputs x params negativeZero)

/-- The replay matches where the record is what the rule derives with the stored zero. -/
theorem replay_matches {stored : Bool} :
    (∃ r, replayEngineSignal signal input stored = .ok r ∧ r.replayResult = .matched) ↔
      Derives signal input stored := by
  constructor
  · rintro ⟨r, hreplay, hmatched⟩
    obtain ⟨hlineage, hfloor⟩ := checks_of_matched hreplay hmatched
    obtain ⟨hcites, live, hlive, hholds⟩ := lineage_valid_iff.mp hlineage
    obtain ⟨lineage, hverify, hvalid⟩ := hlineage
    -- What is stored resolves to what the live row resolves to.
    have hresolve := hholds.resolve (finite_of_resolve hlive)
    rw [replay_of_valid hverify hvalid hresolve hfloor] at hreplay
    cases hdecide : decideSignal input.featureSnapshot.features live stored with
    | error message =>
        rw [hdecide] at hreplay
        cases hreplay
        cases hmatched
    | ok result =>
        rw [hdecide] at hreplay
        cases hreplay
        obtain ⟨x, hread, rfl⟩ := map_eq_ok.mp hdecide
        exact ⟨hcites, hfloor, live, x, hlive, hholds, hread, compareReplay_matched_iff.mp hmatched⟩
  · rintro ⟨hcites, hfloor, live, x, hlive, hholds, hread, hrecords⟩
    obtain ⟨lineage, hverify, hvalid⟩ := lineage_valid_iff.mpr ⟨hcites, live, hlive, hholds⟩
    have hresolve := hholds.resolve (finite_of_resolve hlive)
    have hdecide : decideSignal input.featureSnapshot.features live stored =
        .ok (decideInputs x live stored) := map_eq_ok.mpr ⟨x, hread, rfl⟩
    refine ⟨compareReplay signal lineage (decideInputs x live stored), ?_, ?_⟩
    · rw [replay_of_valid hverify hvalid hresolve hfloor, hdecide]
    · exact compareReplay_matched_iff.mpr hrecords

/-- The engine generates the record where it is what the rule derives with the live zero. -/
theorem generates_same {live : Bool} :
    (∃ g, generateSignal input live = .ok (.generated g) ∧ SameSignal signal g) ↔
      Derives signal input live := by
  constructor
  · rintro ⟨g, hgenerate, hsame⟩
    obtain ⟨hfloor, params, result, hparams, hdecide, rfl⟩ := generateSignal_iff.mp hgenerate
    obtain ⟨x, hread, rfl⟩ := map_eq_ok.mp hdecide
    have hcites : Cites signal input :=
      ⟨hsame.featureSnapshotId, hsame.dqReportId, hsame.featureHash, hsame.datasetHash,
        hsame.symbol, hsame.strategyVersionId⟩
    exact ⟨hcites, hfloor, params, x, hparams, hsame.strategyParams, hread, hsame.decision.symm,
      hsame.confidence.symm, hsame.side.symm⟩
  · rintro ⟨hcites, hfloor, params, x, hparams, hholds, hread, hdecision, hconfidence, hside⟩
    refine ⟨signalOf input params (decideInputs x params live),
      generateSignal_iff.mpr ⟨hfloor, params, _, hparams, map_eq_ok.mpr ⟨x, hread, rfl⟩, rfl⟩, ?_⟩
    exact
      { symbol := hcites.symbol
        side := hside.symm
        decision := hdecision.symm
        confidence := hconfidence.symm
        strategyVersionId := hcites.strategyVersionId
        strategyParams := hholds
        featureSnapshotId := hcites.featureSnapshotId
        dqReportId := hcites.dqReportId
        datasetHash := hcites.datasetHash
        featureHash := hcites.featureHash }

/-! ## The sign of a zero bound -/

/-- The sign of the zero is read only where the bound is zero and the volatility is over it. -/
theorem decideInputs_sign {x : RuleInputs} {params : SignalParams}
    (h : params.maxRealizedVol = .fin 0 → ¬ 0 < x.realizedVol) (live stored : Bool) :
    decideInputs x params live = decideInputs x params stored := by
  unfold decideInputs
  by_cases hvol : volFiltered x params
  · have hbound : params.maxRealizedVol ≠ .fin 0 := by
      intro hzero
      unfold volFiltered at hvol
      rw [hzero] at hvol
      exact h hzero (by simpa [JsNumber.lt] using hvol)
    have hsame : ∀ sign, excess x.realizedVol params.maxRealizedVol sign =
        (.fin x.realizedVol - params.maxRealizedVol) / params.maxRealizedVol := by
      intro sign
      unfold excess
      rw [beq_eq_false_iff_ne.mpr hbound, Bool.and_false, if_neg (by decide)]
    simp only [hsame]
  · simp only [hvol, Bool.false_eq_true, if_false]

/-- What the rule says of a volatility over a bound of zero. -/
theorem decideInputs_zeroBound {x : RuleInputs} {params : SignalParams} (sign : Bool)
    (hbound : params.maxRealizedVol = .fin 0) (hvol : 0 < x.realizedVol) :
    decideInputs x params sign = ⟨trendSide x, .flat, if sign then .fin 0 else .fin 1⟩ := by
  have hfilter : volFiltered x params = true := by
    unfold volFiltered
    rw [hbound]
    simpa [JsNumber.lt] using hvol
  have hquotient : (.fin x.realizedVol - .fin 0 : JsNumber) / .fin 0 = .posInf := by
    show JsNumber.div (JsNumber.sub _ _) _ = _
    simp [JsNumber.sub, JsNumber.neg, JsNumber.add, JsNumber.div, JsNumber.infOfSign, hvol.ne',
      not_lt.mpr hvol.le]
  have hexcess : clamp01 (excess x.realizedVol (.fin 0) sign) = if sign then .fin 0 else .fin 1 := by
    unfold excess
    rw [hquotient]
    cases sign <;> decide
  unfold decideInputs
  simp [hfilter, hbound, hexcess]

/-- The stored bound is a zero of the other sign than the live one, and the record holds what one of the
two signs gives. -/
structure SignedDrift (signal : PersistedSignal) (input : SignalEngineInput) (live stored : Bool) :
    Prop where
  sign : live ≠ stored
  cites : Cites signal input
  admitted : belowFloor input.dqReport = false
  zeroBound : ∃ params x, resolveSignalParams input.strategyVersion.parameters = .ok params ∧
    Holds signal.strategyParams params ∧ params.maxRealizedVol = .fin 0 ∧
    readInputs input.featureSnapshot.features = .ok x ∧ 0 < x.realizedVol ∧
    signal.decision = .flat ∧ signal.side = trendSide x ∧
    (signal.confidence = "0.0000" ∨ signal.confidence = "1.0000")

theorem records_zeroBound {x : RuleInputs} {params : SignalParams} (sign : Bool)
    (hbound : params.maxRealizedVol = .fin 0) (hvol : 0 < x.realizedVol) :
    Records signal (decideInputs x params sign) ↔ signal.decision = .flat ∧
      signal.side = trendSide x ∧ signal.confidence = if sign then "0.0000" else "1.0000" := by
  have htext : quantizeConfidence (if sign then .fin 0 else .fin 1) =
      if sign then "0.0000" else "1.0000" := by
    cases sign <;> decide +kernel
  unfold Records
  rw [decideInputs_zeroBound sign hbound hvol, htext]
  exact ⟨fun h => ⟨h.1.symm, h.2.2.symm, h.2.1.symm⟩, fun h => ⟨h.1.symm, h.2.2.symm, h.2.1.symm⟩⟩

/-- Two zeros of different sign give the same verdict exactly where the record holds neither outcome. -/
theorem derives_sign_iff {live stored : Bool} :
    (Derives signal input stored ↔ Derives signal input live) ↔
      ¬ SignedDrift signal input live stored := by
  constructor
  · rintro hiff ⟨hsign, hcites, hfloor, params, x, hparams, hholds, hbound, hread, hvol, hdecision,
      hside, hconfidence⟩
    have hderives : ∀ sign, Derives signal input sign ↔
        signal.confidence = if sign then "0.0000" else "1.0000" := by
      intro sign
      constructor
      · rintro ⟨-, -, params', x', hparams', -, hread', hrecords⟩
        rw [hparams] at hparams'
        rw [hread] at hread'
        cases hparams'
        cases hread'
        exact ((records_zeroBound sign hbound hvol).mp hrecords).2.2
      · intro htext
        exact ⟨hcites, hfloor, params, x, hparams, hholds, hread,
          (records_zeroBound sign hbound hvol).mpr ⟨hdecision, hside, htext⟩⟩
    rw [hderives, hderives] at hiff
    revert hiff hsign
    rcases hconfidence with h | h <;> rw [h] <;> cases live <;> cases stored <;> decide
  · intro hdrift
    by_cases hsign : live = stored
    · rw [hsign]
    · have hother : ∀ {sign : Bool} (other : Bool), Derives signal input sign →
          Derives signal input other := by
        rintro sign other ⟨hcites, hfloor, params, x, hparams, hholds, hread, hrecords⟩
        refine ⟨hcites, hfloor, params, x, hparams, hholds, hread, ?_⟩
        by_cases hzero : params.maxRealizedVol = .fin 0 ∧ 0 < x.realizedVol
        · -- Over a zero bound the record would be the drift.
          have h := (records_zeroBound sign hzero.1 hzero.2).mp hrecords
          refine absurd ⟨hsign, hcites, hfloor, params, x, hparams, hholds, hzero.1, hread, hzero.2,
            h.1, h.2.1, ?_⟩ hdrift
          rw [h.2.2]
          cases sign
          · exact .inr rfl
          · exact .inl rfl
        · rw [decideInputs_sign (fun hbound hvol => hzero ⟨hbound, hvol⟩) other sign]
          exact hrecords
      exact ⟨hother live, hother stored⟩

/-- The replay matches exactly where the engine, on the same artifacts, generates this signal, if and
only if the zero of the stored bound has not lost or gained a sign that decides the record. -/
theorem replay_matches_iff (signal : PersistedSignal) (input : SignalEngineInput)
    (live stored : Bool) :
    ((∃ r, replayEngineSignal signal input stored = .ok r ∧ r.replayResult = .matched) ↔
      ∃ g, generateSignal input live = .ok (.generated g) ∧ SameSignal signal g) ↔
      ¬ SignedDrift signal input live stored := by
  rw [replay_matches, generates_same]
  exact derives_sign_iff

/-! A strategy whose bound is zero, and a signal that cites it with the negative zero. -/

def flatFeatures : Features := fun key =>
  if key = "rsi_14" then some (.fin 50)
  else if key = "realized_vol_30" then some (.fin (1 / 100))
  else some (.fin 100)

def zeroBoundParams : JsValue := .obj
  [("rsiLongMin", .num (.fin 55)), ("rsiShortMax", .num (.fin 45)),
    ("maxRealizedVol", .num (.fin 0))]

def zeroBoundInput : SignalEngineInput where
  featureSnapshot := ⟨"fs-1", "BTC-USDT", "feature-hash", flatFeatures⟩
  dqReport := ⟨"dq-1", .fin 100, .passed, "dataset-hash"⟩
  strategyVersion := ⟨"sv-1", zeroBoundParams⟩

def signedSignal : PersistedSignal where
  id := "sig-1"
  symbol := "BTC-USDT"
  side := .flat
  decision := .flat
  confidence := "0.0000"
  strategyVersionId := "sv-1"
  strategyParams := zeroBoundParams
  featureSnapshotId := "fs-1"
  dqReportId := "dq-1"
  datasetHash := "dataset-hash"
  featureHash := "feature-hash"

/-- The engine generates a confidence of one, and the replay accepts a confidence of zero. -/
theorem signed_zero_replays :
    ¬ ∀ (signal : PersistedSignal) (input : SignalEngineInput) (live stored : Bool),
      (∃ r, replayEngineSignal signal input stored = .ok r ∧ r.replayResult = .matched) ↔
        ∃ g, generateSignal input live = .ok (.generated g) ∧ SameSignal signal g := by
  intro h
  have hdrift : SignedDrift signedSignal zeroBoundInput false true :=
    { sign := by decide
      cites := ⟨rfl, rfl, rfl, rfl, rfl, rfl⟩
      admitted := by decide
      zeroBound := ⟨⟨.fin 55, .fin 45, .fin 0⟩, ⟨100, 100, 100, 50, 1 / 100⟩, rfl,
        ⟨rfl, rfl, rfl⟩, rfl, rfl, by norm_num, rfl, rfl, .inl rfl⟩ }
  have hiff := h signedSignal zeroBoundInput false true
  rw [replay_matches, generates_same] at hiff
  exact derives_sign_iff.mp hiff hdrift

end NexusQuant.Signal
