import NexusQuant.Pipeline.Validate

/-!
# Admission at the decision bus

`services/workers/src/bus/admission.ts`: whatever process wrote a payload, it becomes a decision event
only here.  Admission refuses and never changes.  It compares the lineage of an event with the signal
it claims; the side and the confidence of the decision it only checks on their own.
-/

namespace NexusQuant.Bus

open Pipeline
open Signal (GeneratedSignal SignalEngineInput SignalGenerationResult generateSignal)
open TradingDecision (SignalParams)

/-- How admission fails: with a `BusAdmissionError`, or with the `TypeError` of a value that has no
text for the message. -/
inductive AdmissionFailure where
  | refused (message : String)
  | typeError (message : String)
deriving DecidableEq, Repr

/-- `DECISION_ACTIONS`. -/
def decisionActions : List String := ["ENTER", "HOLD", "STAND_ASIDE"]

def intentChecks (decision : JsValue) : List (Bool × Except String String) :=
  [(isPlainObject decision, .ok "decision is not a JSON object"),
    ((decision.field "action").isOneOf decisionActions,
      quoting "decision.action \"" (decision.field "action")
        ("\" not in " ++ "|".intercalate decisionActions)),
    ((decision.field "side").isOneOf signalDecisions,
      quoting "decision.side \"" (decision.field "side")
        ("\" not in " ++ "|".intercalate signalDecisions)),
    ((decision.field "confidence").isText isConfidenceText,
      .ok "decision.confidence is not the quantized 4-decimal string format"),
    ((decision.field "confidence").isText confidenceInRange,
      quoting "decision.confidence " (decision.field "confidence") " outside [0, 1]"),
    ((decision.field "rationale").isString, .ok "decision.rationale is not a string")]

/-- The hook may be `null`; a missing one is refused. -/
def executionChecks (execution : JsValue) : List (Bool × Except String String) :=
  if execution.isNull then []
  else
    [(isPlainObject execution, .ok "execution is not null or a JSON object"),
      ((execution.field "status").isOneOf ["PENDING", "SKIPPED"],
        quoting "execution.status \"" (execution.field "status") "\" is not PENDING|SKIPPED"),
      ((execution.field "detail").isString, .ok "execution.detail is not a string")]

def lineageChecks (lineage : JsValue) : List (Bool × Except String String) :=
  (isPlainObject lineage, .ok "lineage is not a JSON object") ::
  (lineageFields ++ ["executionStrategyId"]).map
    (fun field => ((lineage.field field).isNonEmptyString,
      .ok ("lineage." ++ field ++ " missing or empty"))) ++
  [((lineage.field "executionStrategyVersion").isInteger,
      .ok "lineage.executionStrategyVersion is not a finite integer"),
    -- Absent or a string that is not empty.
    ((lineage.field "tickId").isUndefined || (lineage.field "tickId").isNonEmptyString,
      .ok "lineage.tickId present but not a non-empty string")]

def verbatimChecks (lineage signal : JsValue) : List (Bool × Except String String) :=
  lineageFields.map fun field => ((lineage.field field).sameString (signal.field field),
    .ok ("lineage." ++ field ++ " does not match signal." ++ field ++ " (must be carried verbatim)"))

def admissionChecks (v : JsValue) : List (Bool × Except String String) :=
  let signal := v.field "signal"
  let signalReason := malformedSignalStructureReason signal
  [(isPlainObject v, .ok "event is not a JSON object"),
    (isPlainObject signal, .ok "signal is not a JSON object"),
    (signalReason.isNone, (signalReason.getD (.ok "")).map ("signal " ++ ·))] ++
  intentChecks (v.field "decision") ++ executionChecks (v.field "execution") ++
  lineageChecks (v.field "lineage") ++ verbatimChecks (v.field "lineage") signal

def admitDecisionEvent (v : JsValue) : Except AdmissionFailure JsValue :=
  match JsValue.refusal (admissionChecks v) with
  | none => .ok v
  | some (.ok detail) => .error (.refused ("decision bus event rejected: " ++ detail))
  | some (.error message) => .error (.typeError message)

/-! ## What an admitted value is -/

/-- A confidence on the wire: four decimals, between zero and one. -/
def IsWireConfidence (v : JsValue) : Prop :=
  ∃ text, v = .str text ∧ isConfidenceText text ∧ confidenceInRange text

/-- What admission guarantees of a payload. -/
structure Admitted (v : JsValue) : Prop where
  action : ∃ text ∈ decisionActions, (v.field "decision").field "action" = .str text
  side : ∃ text ∈ signalDecisions, (v.field "decision").field "side" = .str text
  decisionConfidence : IsWireConfidence ((v.field "decision").field "confidence")
  signalDecision : ∃ text ∈ signalDecisions, (v.field "signal").field "decision" = .str text
  signalConfidence : IsWireConfidence ((v.field "signal").field "confidence")
  lineage : ∀ field ∈ lineageFields, ∃ text, text ≠ "" ∧
    (v.field "lineage").field field = .str text ∧ (v.field "signal").field field = .str text

theorem isWireConfidence {v : JsValue} (hformat : v.isText isConfidenceText)
    (hrange : v.isText confidenceInRange) : IsWireConfidence v := by
  obtain ⟨text, rfl, htext⟩ := JsValue.isText_iff.mp hformat
  exact ⟨text, rfl, htext, hrange⟩

theorem admitDecisionEvent_eq_ok {v w : JsValue} :
    admitDecisionEvent v = .ok w ↔ w = v ∧ ∀ c ∈ admissionChecks v, c.1 = true := by
  rw [← JsValue.refusal_eq_none]
  unfold admitDecisionEvent
  cases JsValue.refusal (admissionChecks v) with
  | none => simp [eq_comm]
  | some text => cases text <;> simp

/-- What the structure check of a signal leaves nothing to say about. -/
structure StructureSound (v : JsValue) : Prop where
  object : isPlainObject v
  symbol : (v.field "symbol").isNonEmptyString
  side : (v.field "side").isOneOf signalDecisions
  decision : (v.field "decision").isOneOf signalDecisions
  format : (v.field "confidence").isText isConfidenceText
  range : (v.field "confidence").isText confidenceInRange
  ids : ∀ field ∈ lineageFields, (v.field field).isNonEmptyString
  params : isPlainObject (v.field "strategyParams")

theorem malformedSignalStructureReason_iff {v : JsValue} :
    malformedSignalStructureReason v = none ↔ StructureSound v := by
  rw [malformedSignalStructureReason, JsValue.refusal_eq_none]
  simp only [signalStructureChecks, List.forall_mem_append, List.forall_mem_cons,
    List.forall_mem_map]
  constructor
  · intro ⟨⟨⟨hobject, hsymbol, hside, hdecision, hformat, hrange, _⟩, hids⟩, hparams, _⟩
    exact ⟨hobject, hsymbol, hside, hdecision, hformat, hrange, hids, hparams⟩
  · intro h
    exact ⟨⟨⟨h.object, h.symbol, h.side, h.decision, h.format, h.range, by simp⟩, h.ids⟩, h.params,
      by simp⟩

theorem admitted_of_checks {v : JsValue} (h : ∀ c ∈ admissionChecks v, c.1 = true) : Admitted v := by
  simp only [admissionChecks, List.forall_mem_append, List.forall_mem_cons,
    Option.isNone_iff_eq_none, malformedSignalStructureReason_iff] at h
  obtain ⟨⟨⟨⟨⟨-, -, hsignal, -⟩, hintent⟩, -⟩, hlineage⟩, hverbatim⟩ := h
  simp only [intentChecks, List.forall_mem_cons] at hintent
  obtain ⟨-, haction, hside, hformat, hrange, -⟩ := hintent
  simp only [verbatimChecks, List.forall_mem_map] at hverbatim
  exact
    { action := JsValue.isOneOf_iff.mp haction
      side := JsValue.isOneOf_iff.mp hside
      decisionConfidence := isWireConfidence hformat hrange
      signalDecision := JsValue.isOneOf_iff.mp hsignal.decision
      signalConfidence := isWireConfidence hsignal.format hsignal.range
      lineage := by
        intro field hfield
        obtain ⟨text, hlin, hsig⟩ := JsValue.sameString_iff.mp (hverbatim field hfield)
        obtain ⟨text', htext, hne⟩ := JsValue.isNonEmptyString_iff.mp (hsignal.ids field hfield)
        rw [hsig, JsValue.str.injEq] at htext
        exact ⟨text, htext ▸ hne, hlin, hsig⟩ }

/-! ## Events as values -/

def paramsToJs (params : SignalParams) : JsValue :=
  .obj [("rsiLongMin", .num params.rsiLongMin), ("rsiShortMax", .num params.rsiShortMax),
    ("maxRealizedVol", .num params.maxRealizedVol)]

/-- A signal with its parameters as they are written. -/
def signalWith (s : GeneratedSignal) (params : JsValue) : JsValue :=
  .obj [("symbol", .str s.symbol), ("side", .str (decisionText s.side)),
    ("decision", .str (decisionText s.decision)), ("confidence", .str s.confidence),
    ("strategyVersionId", .str s.strategyVersionId), ("strategyParams", params),
    ("featureSnapshotId", .str s.featureSnapshotId), ("dqReportId", .str s.dqReportId),
    ("datasetHash", .str s.datasetHash), ("featureHash", .str s.featureHash)]

def signalToJs (s : GeneratedSignal) : JsValue := signalWith s (paramsToJs s.strategyParams)

def planStatusText : PlanStatus → String
  | .pending => "PENDING"
  | .skipped => "SKIPPED"

def lineageToJs (l : DecisionLineage) : JsValue :=
  -- An absent tick is left out by the spread of `deriveDecisionEvent`.
  .obj ((l.tickId.map fun id => ("tickId", JsValue.str id)).toList ++
    [("strategyVersionId", .str l.strategyVersionId),
      ("featureSnapshotId", .str l.featureSnapshotId), ("dqReportId", .str l.dqReportId),
      ("datasetHash", .str l.datasetHash), ("featureHash", .str l.featureHash),
      ("executionStrategyId", .str l.executionStrategyId),
      ("executionStrategyVersion", .num (.fin l.executionStrategyVersion))])

/-- An event around a signal that is a value already. -/
def eventAround (e : DecisionEvent) (signal : JsValue) : JsValue :=
  .obj [("signal", signal),
    ("decision", .obj [("action", .str (actionText e.decision.action)),
      ("side", .str (decisionText e.decision.side)), ("confidence", .str e.decision.confidence),
      ("rationale", .str e.decision.rationale)]),
    ("execution", .obj [("status", .str (planStatusText e.execution.status)),
      ("detail", .str e.execution.detail)]),
    ("lineage", lineageToJs e.lineage)]

def eventToJs (e : DecisionEvent) : JsValue := eventAround e (signalToJs e.signal)

/-- A JSON text changes at most the parameters of an event, those that are not finite. -/
theorem jsonRoundTrip_eventToJs (e : DecisionEvent) : ∃ members, (eventToJs e).jsonRoundTrip =
    eventAround e (signalWith e.signal (.obj members)) := by
  refine ⟨JsValue.roundTripMembers
    [("rsiLongMin", .num e.signal.strategyParams.rsiLongMin),
      ("rsiShortMax", .num e.signal.strategyParams.rsiShortMax),
      ("maxRealizedVol", .num e.signal.strategyParams.maxRealizedVol)], ?_⟩
  cases htick : e.lineage.tickId <;>
    simp [eventToJs, eventAround, signalToJs, signalWith, lineageToJs, paramsToJs, htick,
      JsValue.jsonRoundTrip, JsValue.roundTripMembers]

/-- The structure check reads nothing inside the parameters. -/
theorem StructureSound.signalWith {s : GeneratedSignal} {params : JsValue}
    (h : StructureSound (signalWith s params)) (members : List (String × JsValue)) :
    StructureSound (signalWith s (.obj members)) where
  object := rfl
  symbol := h.symbol
  side := h.side
  decision := h.decision
  format := h.format
  range := h.range
  ids := by
    intro field hfield
    have heq : (Bus.signalWith s (.obj members)).field field =
        (Bus.signalWith s params).field field := by
      simp only [lineageFields, List.mem_cons, List.not_mem_nil, or_false] at hfield
      rcases hfield with rfl | rfl | rfl | rfl | rfl <;> rfl
    rw [heq]
    exact h.ids field hfield
  params := rfl

/-! ## Derived events -/

/-- The strategies of the registry. -/
theorem resolve_cases (key : String) : defaultStrategyRegistry.resolve key = StrategyV1 ∨
    defaultStrategyRegistry.resolve key = StrategyV2 := by
  have hget : Dict.get? defaultStrategyRegistry.byKey key =
      if "core-technical@v1" = key then some StrategyV1
      else if "core-technical@v2" = key then some StrategyV2 else none := by
    rw [defaultStrategyRegistry, Dict.get?_cons, Dict.get?_cons, Dict.get?_nil]
  rw [StrategyRegistry.resolve, hget]
  by_cases h₁ : "core-technical@v1" = key
  · rw [if_pos h₁]
    exact .inl rfl
  · by_cases h₂ : "core-technical@v2" = key
    · rw [if_neg h₁, if_pos h₂]
      exact .inr rfl
    · rw [if_neg h₁, if_neg h₂]
      exact .inl rfl

/-- A floor strategy copies the side and the confidence, and enters only on a directional signal. -/
theorem deriveFloorIntent_spec (observation : GeneratedSignal) (floor : ℚ) :
    (deriveFloorIntent observation floor).side = observation.side ∧
    (deriveFloorIntent observation floor).confidence = observation.confidence ∧
    ((deriveFloorIntent observation floor).action = .enter → observation.decision ≠ .flat) := by
  unfold deriveFloorIntent
  dsimp only
  split
  · exact ⟨rfl, rfl, fun h => Execution.DecisionAction.noConfusion h⟩
  · rename_i hdirectional
    split <;> exact ⟨rfl, rfl, fun _ => hdirectional⟩

theorem derived_intent (observation : GeneratedSignal) (key : String) (tickId : Option String) :
    let e := deriveDecisionEvent observation (defaultStrategyRegistry.resolve key) tickId
    e.decision.side = observation.side ∧ e.decision.confidence = observation.confidence ∧
      (e.decision.action = .enter → observation.decision ≠ .flat) := by
  rcases resolve_cases key with h | h <;> rw [h] <;> exact deriveFloorIntent_spec observation _

theorem registered_id (key : String) : (defaultStrategyRegistry.resolve key).id ≠ "" := by
  rcases resolve_cases key with h | h <;> rw [h] <;> decide

theorem decisionText_mem (d : SignalDecision) : signalDecisions.contains (decisionText d) := by
  cases d <;> decide

theorem actionText_mem (action : Execution.DecisionAction) :
    decisionActions.contains (actionText action) := by
  cases action <;> decide

theorem planStatusText_mem (status : PlanStatus) :
    ["PENDING", "SKIPPED"].contains (planStatusText status) := by
  cases status <;> decide

/-- The intent of a derived event passes, the confidence being the signal's. -/
theorem intentChecks_derived (e : DecisionEvent) {params : JsValue} {signal : JsValue}
    (hsound : StructureSound (signalWith e.signal params))
    (hconfidence : e.decision.confidence = e.signal.confidence) :
    ∀ c ∈ intentChecks ((eventAround e signal).field "decision"), c.1 = true := by
  have hformat : isConfidenceText e.decision.confidence := hconfidence ▸ hsound.format
  have hrange : confidenceInRange e.decision.confidence := hconfidence ▸ hsound.range
  simp only [intentChecks, List.forall_mem_cons]
  exact ⟨rfl, actionText_mem _, decisionText_mem _, hformat, hrange, rfl, by simp⟩

theorem executionChecks_derived (e : DecisionEvent) (signal : JsValue) :
    ∀ c ∈ executionChecks ((eventAround e signal).field "execution"), c.1 = true := by
  show ∀ c ∈ executionChecks (.obj _), c.1 = true
  simp only [executionChecks, JsValue.isNull, Bool.false_eq_true, if_false, List.forall_mem_cons]
  exact ⟨rfl, planStatusText_mem _, rfl, by simp⟩

section Lineage

variable {observation : GeneratedSignal} {strategy : Strategy} {tickId : Option String}

/-- The lineage of a derived event is its signal's. -/
theorem lineage_verbatim (params : JsValue) {field : String} (hfield : field ∈ lineageFields) :
    (lineageToJs (deriveDecisionEvent observation strategy tickId).lineage).field field =
      (signalWith observation params).field field := by
  simp only [lineageFields, List.mem_cons, List.not_mem_nil, or_false] at hfield
  cases tickId <;> rcases hfield with rfl | rfl | rfl | rfl | rfl <;> rfl

theorem lineage_strategy :
    let lineage := lineageToJs (deriveDecisionEvent observation strategy tickId).lineage
    lineage.field "executionStrategyId" = .str strategy.id ∧
      lineage.field "executionStrategyVersion" = .num (.fin strategy.version) ∧
      lineage.field "tickId" = (tickId.map JsValue.str).getD .undefined := by
  cases tickId <;> exact ⟨rfl, rfl, rfl⟩

theorem lineageChecks_derived {params : JsValue}
    (hsound : StructureSound (signalWith observation params)) (hid : strategy.id ≠ "")
    (htick : tickId ≠ some "") :
    ∀ c ∈ lineageChecks (lineageToJs (deriveDecisionEvent observation strategy tickId).lineage),
      c.1 = true := by
  obtain ⟨hstrategy, hversion, htickField⟩ := @lineage_strategy observation strategy tickId
  have hids : ∀ field ∈ lineageFields,
      ((lineageToJs (deriveDecisionEvent observation strategy tickId).lineage).field
        field).isNonEmptyString := by
    intro field hfield
    rw [lineage_verbatim params hfield]
    exact hsound.ids field hfield
  have htickOk : ((tickId.map JsValue.str).getD .undefined).isUndefined ||
      ((tickId.map JsValue.str).getD .undefined).isNonEmptyString := by
    cases tickId with
    | none => rfl
    | some id => exact bne_iff_ne.mpr fun h => htick (congrArg some h)
  simp only [lineageChecks, List.cons_append, List.forall_mem_cons, List.forall_mem_append,
    List.forall_mem_map, hstrategy, hversion, htickField]
  refine ⟨rfl, ⟨hids, bne_iff_ne.mpr hid, by simp⟩, ?_, htickOk, by simp⟩
  simp [JsValue.isInteger]

theorem verbatimChecks_derived {params : JsValue}
    (hsound : StructureSound (signalWith observation params)) :
    ∀ c ∈ verbatimChecks (lineageToJs (deriveDecisionEvent observation strategy tickId).lineage)
      (signalWith observation params), c.1 = true := by
  simp only [verbatimChecks, List.forall_mem_map]
  intro field hfield
  rw [lineage_verbatim params hfield]
  exact JsValue.sameString_self (hsound.ids field hfield)

end Lineage

/-- What a registered strategy derives from a sound signal is admitted as it comes out of a JSON
text. -/
theorem admit_derived (observation : GeneratedSignal) (key : String) {tickId : Option String}
    (hsound : malformedSignalStructureReason (signalToJs observation) = none)
    (htick : tickId ≠ some "") :
    let v := (eventToJs (deriveDecisionEvent observation (defaultStrategyRegistry.resolve key)
      tickId)).jsonRoundTrip
    admitDecisionEvent v = .ok v := by
  obtain ⟨members, hmembers⟩ := jsonRoundTrip_eventToJs
    (deriveDecisionEvent observation (defaultStrategyRegistry.resolve key) tickId)
  have hwire := (malformedSignalStructureReason_iff.mp hsound).signalWith members
  rw [hmembers]
  apply admitDecisionEvent_eq_ok.mpr
  refine ⟨rfl, ?_⟩
  simp only [admissionChecks, List.forall_mem_append, List.forall_mem_cons,
    Option.isNone_iff_eq_none]
  refine ⟨⟨⟨⟨⟨rfl, rfl, malformedSignalStructureReason_iff.mpr hwire, by simp⟩, ?_⟩, ?_⟩, ?_⟩, ?_⟩
  · exact intentChecks_derived _ hwire (derived_intent observation key tickId).2.1
  · exact executionChecks_derived _ _
  · exact lineageChecks_derived hwire (registered_id key) htick
  · exact verbatimChecks_derived hwire

/-- Admission refuses or returns the payload, whose confidences are on the wire format and whose
lineage is its signal's.  What a registered strategy derives carries the side and the confidence of its
signal and enters only on a directional decision, which for a generated signal is its side; and it is
admitted after a JSON round trip. -/
theorem admission_sound_and_complete :
    (∀ v w, admitDecisionEvent v = .ok w → w = v ∧ Admitted v) ∧
    (∀ (observation : GeneratedSignal) (key : String) (tickId : Option String),
      let e := deriveDecisionEvent observation (defaultStrategyRegistry.resolve key) tickId
      e.decision.side = observation.side ∧ e.decision.confidence = observation.confidence ∧
        (e.decision.action = .enter → observation.decision ≠ .flat)) ∧
    (∀ (input : SignalEngineInput) (signal : GeneratedSignal) (key : String) (tickId : Option String),
      generateSignal input = .ok (.generated signal) →
      let e := deriveDecisionEvent signal (defaultStrategyRegistry.resolve key) tickId
      e.decision.action = .enter → e.decision.side = signal.decision ∧
        (signal.decision = .long ∨ signal.decision = .short) ∧
        e.decision.confidence = signal.confidence) ∧
    (∀ (observation : GeneratedSignal) (key : String) (tickId : Option String),
      malformedSignalStructureReason (signalToJs observation) = none → tickId ≠ some "" →
      let v := (eventToJs (deriveDecisionEvent observation (defaultStrategyRegistry.resolve key)
        tickId)).jsonRoundTrip
      admitDecisionEvent v = .ok v) := by
  refine ⟨?_, derived_intent, ?_, fun observation key tickId => admit_derived observation key⟩
  · intro v w h
    obtain ⟨rfl, hchecks⟩ := admitDecisionEvent_eq_ok.mp h
    exact ⟨rfl, admitted_of_checks hchecks⟩
  · intro input signal key tickId hgenerated
    dsimp only
    intro henter
    obtain ⟨hside, hconfidence, hdirectional⟩ := derived_intent signal key tickId
    have hne := hdirectional henter
    have hsame : signal.side = signal.decision := by
      obtain ⟨-, params, result, -, hresult, rfl⟩ := Signal.generateSignal_iff.mp hgenerated
      obtain ⟨x, -, rfl⟩ := Fallible.map_eq_ok.mp hresult
      exact Signal.side_of_decision hne
    refine ⟨hside.trans hsame, ?_, hconfidence⟩
    cases hd : signal.decision with
    | long => exact .inl rfl
    | short => exact .inr rfl
    | flat => exact absurd hd hne

/-- A long signal of low confidence. -/
def sampleSignal : GeneratedSignal where
  symbol := "BTC-PERP"
  side := .long
  decision := .long
  confidence := "0.2000"
  strategyVersionId := "sv-1"
  strategyParams := ⟨.fin 55, .fin 45, .fin (2 / 100)⟩
  featureSnapshotId := "fs-1"
  dqReportId := "dq-1"
  datasetHash := "dataset-hash-1"
  featureHash := "feature-hash-1"

/-- The event of the sample signal, with another intent. -/
def forgedEvent (intent : DecisionIntent) : DecisionEvent :=
  { deriveDecisionEvent sampleSignal StrategyV1 none with decision := intent }

/-- An event that enters short with full confidence on a long signal of low confidence is admitted; a
signal whose side is not its decision is sound, and a registered strategy enters on it with its side;
and an event of a tick without a name is refused. -/
theorem admission_of_another_trade :
    (∃ v, admitDecisionEvent v = .ok v ∧ (v.field "decision").field "action" = .str "ENTER" ∧
      (v.field "decision").field "side" = .str "SHORT" ∧
      (v.field "signal").field "decision" = .str "LONG" ∧
      (v.field "decision").field "confidence" = .str "1.0000" ∧
      (v.field "signal").field "confidence" = .str "0.2000") ∧
    (malformedSignalStructureReason (signalToJs { sampleSignal with side := .flat }) = none ∧
      (deriveDecisionEvent { sampleSignal with side := .flat }
        (defaultStrategyRegistry.resolve "") none).decision = ⟨.enter, .flat, "0.2000",
          "LONG edge with conviction 0.2000 >= floor 0.1000 — enter"⟩) ∧
    ∀ w, admitDecisionEvent (eventToJs (deriveDecisionEvent sampleSignal
      (defaultStrategyRegistry.resolve "") (some ""))).jsonRoundTrip ≠ .ok w := by
  refine ⟨⟨eventToJs (forgedEvent ⟨.enter, .short, "1.0000", ""⟩), ?_, rfl, rfl, rfl, rfl, rfl⟩,
    ⟨Option.isNone_iff_eq_none.mp (by decide +kernel), by decide +kernel⟩, ?_⟩
  · exact admitDecisionEvent_eq_ok.mpr ⟨rfl, by decide +kernel⟩
  · intro w h
    exact absurd (admitDecisionEvent_eq_ok.mp h).2 (by decide +kernel)

theorem admission_sound_and_complete_sample :
    let v := (eventToJs (deriveDecisionEvent sampleSignal (defaultStrategyRegistry.resolve "")
      (some "tick-1"))).jsonRoundTrip
    admitDecisionEvent v = .ok v ∧ Admitted v := by
  have hsample := admission_sound_and_complete.2.2.2 sampleSignal "" (some "tick-1")
    (Option.isNone_iff_eq_none.mp (by decide +kernel)) (by decide)
  exact ⟨hsample, (admission_sound_and_complete.1 _ _ hsample).2⟩

end NexusQuant.Bus
