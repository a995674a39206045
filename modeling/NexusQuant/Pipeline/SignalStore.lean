import NexusQuant.Lib.UpsertTable
import NexusQuant.Pipeline.Tick

/-!
# The stored signals

`signal/persistence.ts`, and the subscriber of the bus that calls it: a generated signal is filed under its
snapshot and its strategy version, once.  A writer that lost the race for the key takes the row of the
winner; every other failure goes up to the tick.
-/

namespace NexusQuant.Pipeline

open Fallible Signal
open TradingDecision (SignalParams)

/-! ## The table -/

/-- A row of `EngineSignal`; its confidence is a decimal column. -/
structure EngineSignalRow where
  id : String
  symbol : String
  side : SignalDecision
  decision : SignalDecision
  confidence : ℚ
  strategyVersionId : String
  strategyParams : SignalParams
  featureSnapshotId : String
  dqReportId : String
  datasetHash : String
  featureHash : String
deriving DecidableEq, Repr

/-- `featureSnapshotId_strategyVersionId`. -/
def EngineSignalRow.key (r : EngineSignalRow) : String × String :=
  (r.featureSnapshotId, r.strategyVersionId)

abbrev EngineSignals := UpsertTable EngineSignalRow.id EngineSignalRow.key

def newSignalRow (id : String) (confidence : ℚ) (signal : GeneratedSignal) : EngineSignalRow where
  id
  symbol := signal.symbol
  side := signal.side
  decision := signal.decision
  confidence
  strategyVersionId := signal.strategyVersionId
  strategyParams := signal.strategyParams
  featureSnapshotId := signal.featureSnapshotId
  dqReportId := signal.dqReportId
  datasetHash := signal.datasetHash
  featureHash := signal.featureHash

/-- What the upsert updates; the symbol is not among it. -/
def EngineSignalRow.update (new old : EngineSignalRow) : EngineSignalRow :=
  { old with
    side := new.side
    decision := new.decision
    confidence := new.confidence
    strategyParams := new.strategyParams
    dqReportId := new.dqReportId
    datasetHash := new.datasetHash
    featureHash := new.featureHash }

theorem keeps_update (new : EngineSignalRow) :
    UpsertTable.Keeps EngineSignalRow.id EngineSignalRow.key new.update :=
  ⟨fun _ => rfl, fun _ => rfl⟩

/-- A row as it is read back for a replay: the confidence is quantized again. -/
def EngineSignalRow.persisted (r : EngineSignalRow) : PersistedSignal where
  id := r.id
  symbol := r.symbol
  side := r.side
  decision := r.decision
  confidence := quantizeConfidence (.fin r.confidence)
  strategyVersionId := r.strategyVersionId
  strategyParams := .obj [("rsiLongMin", .num r.strategyParams.rsiLongMin),
    ("rsiShortMax", .num r.strategyParams.rsiShortMax),
    ("maxRealizedVol", .num r.strategyParams.maxRealizedVol)]
  featureSnapshotId := r.featureSnapshotId
  dqReportId := r.dqReportId
  datasetHash := r.datasetHash
  featureHash := r.featureHash

/-! ## Persisting -/

structure PersistedEngineSignal where
  id : String
  symbol : String
  decision : SignalDecision
  confidence : String
deriving DecidableEq, Repr

def EngineSignalRow.answer (r : EngineSignalRow) : PersistedEngineSignal :=
  ⟨r.id, r.symbol, r.decision, numberText (.fin r.confidence)⟩

/-- What the database makes of the upsert. -/
inductive UpsertReply where
  | done
  /-- It is committed, and the answer is lost. -/
  | lost (message : String)
  | failed (message : String)
  /-- `P2002`, and the failure of the read that follows, if there is one. -/
  | raced (message : String) (readFailure : Option String)
deriving DecidableEq, Repr

/-- `persistEngineSignal`; a new row has the id `id`. -/
def persistEngineSignal (table : EngineSignals) (id : String) (signal : GeneratedSignal)
    (reply : UpsertReply) : Except String PersistedEngineSignal × EngineSignals :=
  match DecimalText.number? signal.confidence with
  | none => (.error ("[DecimalError] Invalid argument: " ++ signal.confidence), table)
  | some confidence =>
      let new := newSignalRow id confidence signal
      match reply with
      | .failed message => (.error message, table)
      | .raced message none =>
          match table.withKey new.key with
          | some existing => (.ok existing.answer, table)
          | none => (.error message, table)
      | .raced _ (some failure) => (.error failure, table)
      | .done =>
          match table.upsert new new.update (keeps_update new) with
          | none => (.error "Unique constraint failed on the fields: (id)", table)
          | some table' =>
              match table'.withKey new.key with
              | some row => (.ok row.answer, table')
              -- There is a row of the key now.
              | none => (.error "no row", table')
      | .lost message =>
          match table.upsert new new.update (keeps_update new) with
          | none => (.error "Unique constraint failed on the fields: (id)", table)
          | some table' => (.error message, table')

variable {table : EngineSignals} {id : String} {signal : GeneratedSignal} {reply : UpsertReply}

/-- What persisting does to the table: nothing, or the upsert of the signal. -/
theorem persist_table (table : EngineSignals) (id : String) (signal : GeneratedSignal)
    (reply : UpsertReply) :
    (persistEngineSignal table id signal reply).2 = table ∨
    ∃ confidence, DecimalText.number? signal.confidence = some confidence ∧
      table.upsert (newSignalRow id confidence signal) (newSignalRow id confidence signal).update
        (keeps_update _) = some (persistEngineSignal table id signal reply).2 := by
  unfold persistEngineSignal
  cases hconfidence : DecimalText.number? signal.confidence with
  | none => exact .inl rfl
  | some confidence =>
      cases reply with
      | failed message => exact .inl rfl
      | raced message failure =>
          cases failure with
          | some failure => exact .inl rfl
          | none =>
              left
              dsimp only
              split <;> rfl
      | done =>
          dsimp only
          split
          · exact .inl rfl
          · rename_i table' htable
            right
            refine ⟨confidence, rfl, ?_⟩
            rw [htable]
            split <;> rfl
      | lost message =>
          dsimp only
          split
          · exact .inl rfl
          · rename_i table' htable
            exact .inr ⟨confidence, rfl, htable⟩

/-- A row outlives the writes of others: its id, its key and its symbol are what they were. -/
theorem exists_same_persist (id : String) (signal : GeneratedSignal) (reply : UpsertReply)
    {r : EngineSignalRow} (hr : r ∈ table.rows) :
    ∃ r' ∈ (persistEngineSignal table id signal reply).2.rows,
      r'.id = r.id ∧ r'.key = r.key ∧ r'.symbol = r.symbol := by
  rcases persist_table table id signal reply with h | ⟨confidence, -, h⟩
  · rw [h]
    exact ⟨r, hr, rfl, rfl, rfl⟩
  · have hsymbol : ∀ old, ((newSignalRow id confidence signal).update old).symbol = old.symbol :=
      fun _ => rfl
    exact UpsertTable.exists_same_of_upsert h hsymbol hr

/-- A call that returns leaves a row of the signal's key behind, and returns that row's id. -/
theorem persisted_of_ok {answer : PersistedEngineSignal}
    (h : (persistEngineSignal table id signal reply).1 = .ok answer) :
    ∃ r ∈ (persistEngineSignal table id signal reply).2.rows,
      r.id = answer.id ∧ r.key = (signal.featureSnapshotId, signal.strategyVersionId) := by
  unfold persistEngineSignal at h ⊢
  cases hconfidence : DecimalText.number? signal.confidence with
  | none =>
      rw [hconfidence] at h
      cases h
  | some confidence =>
      rw [hconfidence] at h
      cases reply with
      | failed message => cases h
      | raced message failure =>
          cases failure with
          | some failure => cases h
          | none =>
              dsimp only at h ⊢
              split at h
              · rename_i existing hfound
                cases h
                obtain ⟨hmem, hkey⟩ := UpsertTable.withKey_eq_some.mp hfound
                exact ⟨existing, hmem, rfl, hkey⟩
              · cases h
      | done =>
          dsimp only at h ⊢
          split at h
          · cases h
          · rename_i table' htable
            split at h
            · rename_i row hfound
              cases h
              obtain ⟨hmem, hkey⟩ := UpsertTable.withKey_eq_some.mp hfound
              exact ⟨row, hmem, rfl, hkey⟩
            · cases h
      | lost message =>
          dsimp only at h
          split at h
          · cases h
          · cases h

/-! ## What is read back -/

open DecimalText Rounding in
/-- The text of a quantized number denotes a number that is quantized to this text. -/
theorem quantize_number_toFixed {q : ℚ} (hnonneg : 0 ≤ q) (hone : q ≤ 1) :
    ∃ c, number? (toFixed 4 q) = some c ∧ quantizeConfidence (.fin c) = toFixed 4 q := by
  obtain ⟨hn0, hn1⟩ := units_bounds hnonneg hone
  have hlow : (0 : ℚ) ≤ units 4 q := by exact_mod_cast hn0
  have hhigh : (units 4 q : ℚ) ≤ 10000 := by exact_mod_cast hn1
  have hc0 : (0 : ℚ) ≤ units 4 q / 10 ^ 4 := by positivity
  have hc1 : (units 4 q : ℚ) / 10 ^ 4 ≤ 1 := by
    rw [div_le_one (by positivity)]
    norm_num
    exact hhigh
  -- A multiple of the last place is its own rounding.
  have hunits : units 4 ((units 4 q : ℚ) / 10 ^ 4) = units 4 q := by
    rw [units_of_nonneg hc0, div_mul_cancel₀ _ (by positivity), Int.floor_eq_iff]
    norm_num
  refine ⟨units 4 q / 10 ^ 4, ?_, ?_⟩
  · rw [toFixed_of_nonneg hnonneg, number?_fixedText (by decide)]
  · show DecimalText.jsToFixed 4 (clamp01 (.fin _)) = _
    rw [clamp01_fin, mirrorClamp_of_bounds hc0 hc1]
    show toFixed 4 _ = _
    rw [toFixed_of_nonneg hc0, hunits, toFixed_of_nonneg hnonneg]

/-- The confidence of a generated signal survives the decimal column. -/
theorem quantize_confidence {input : SignalEngineInput}
    (h : generateSignal input = .ok (.generated signal)) :
    ∃ c, DecimalText.number? signal.confidence = some c ∧
      quantizeConfidence (.fin c) = signal.confidence := by
  obtain ⟨-, params, result, hparams, hdecide, rfl⟩ := generateSignal_iff.mp h
  obtain ⟨x, -, rfl⟩ := map_eq_ok.mp hdecide
  obtain ⟨q, hq, hnonneg, hone⟩ := @confidence_number x params (finite_of_resolve hparams)
  have hconfidence : (signalOf input params (decideInputs x params)).confidence =
      DecimalText.toFixed 4 q := by
    show DecimalText.jsToFixed 4 (clamp01 (decideInputs x params).confidence) = _
    rw [hq, clamp01_fin, mirrorClamp_of_bounds hnonneg hone]
    rfl
  rw [hconfidence]
  exact quantize_number_toFixed hnonneg hone

/-- A row that holds a generated signal replays to a match, on what the signal was generated from. -/
theorem replay_persisted {input : SignalEngineInput} {c : ℚ}
    (h : generateSignal input = .ok (.generated signal))
    (hc : DecimalText.number? signal.confidence = some c) :
    ∃ r, replayEngineSignal (newSignalRow id c signal).persisted input = .ok r ∧
      r.replayResult = .matched := by
  obtain ⟨c', hc', hconfidence⟩ := quantize_confidence h
  obtain rfl := Option.some.inj (hc.symm.trans hc')
  obtain ⟨hfloor, live, result, hlive, hdecide, rfl⟩ := generateSignal_iff.mp h
  have hcites : Cites (newSignalRow id c (signalOf input live result)).persisted input :=
    ⟨rfl, rfl, rfl, rfl, rfl, rfl⟩
  have hholds : Holds (newSignalRow id c (signalOf input live result)).persisted.strategyParams live :=
    ⟨rfl, rfl, rfl⟩
  obtain ⟨lineage, hverify, hvalid⟩ := lineage_valid_iff.mpr ⟨hcites, live, hlive, hholds⟩
  have hresolve := hholds.resolve (finite_of_resolve hlive)
  have hsame : quantizeConfidence result.confidence = quantizeConfidence (.fin c) := hconfidence.symm
  let row := newSignalRow id c (signalOf input live result)
  refine ⟨compareReplay row.persisted lineage result, ?_, ?_⟩
  · rw [replay_of_valid hverify hvalid hresolve hfloor, hdecide]
  · exact compareReplay_matched_iff.mpr ⟨rfl, hsame, rfl⟩

end NexusQuant.Pipeline
