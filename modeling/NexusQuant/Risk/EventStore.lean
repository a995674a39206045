import NexusQuant.Lib.Journal
import NexusQuant.Lib.JsonChecks
import NexusQuant.Risk.Gate

/-!
# The risk journal

`events.ts`: the JSON of a risk record, the structural admission of a value that is read back, and
the file store of JSON lines.
-/

namespace NexusQuant.Risk

open Execution Journal JsonChecks

/-! ## JSON -/

def RiskEventType.ofText? (s : String) : Option RiskEventType :=
  riskEventTypes.find? (·.text = s)

def KillSwitchTrigger.ofText? (s : String) : Option KillSwitchTrigger :=
  killSwitchTriggers.find? (·.text = s)

def CapitalSnapshot.toJson (c : CapitalSnapshot) : Json :=
  .obj [("accountEquity", .str c.accountEquity), ("availableCash", .str c.availableCash),
    ("usedMargin", .str c.usedMargin), ("availableMargin", .str c.availableMargin),
    ("unrealizedPnl", .str c.unrealizedPnl), ("realizedPnl", .str c.realizedPnl),
    ("grossExposure", .str c.grossExposure), ("netExposure", .str c.netExposure)]

def CapitalSnapshot.ofJson? (v : Json) : Option CapitalSnapshot := do
  return {
    accountEquity := ← v.getStr? "accountEquity"
    availableCash := ← v.getStr? "availableCash"
    usedMargin := ← v.getStr? "usedMargin"
    availableMargin := ← v.getStr? "availableMargin"
    unrealizedPnl := ← v.getStr? "unrealizedPnl"
    realizedPnl := ← v.getStr? "realizedPnl"
    grossExposure := ← v.getStr? "grossExposure"
    netExposure := ← v.getStr? "netExposure" }

/-- An order without a lineage has no such member. -/
def ProposedOrder.toJson (o : ProposedOrder) : Json :=
  .obj ([("symbol", .str o.symbol), ("side", .str o.side.text),
    ("targetQuantity", .str o.targetQuantity), ("targetNotional", .str o.targetNotional),
    ("price", .str o.price), ("strategyId", .str o.strategyId)] ++
    o.lineage.toList.map fun l => ("lineage", l.toJson))

def ProposedOrder.ofJson? (v : Json) : Option ProposedOrder := do
  return {
    symbol := ← v.getStr? "symbol"
    side := ← (← v.getStr? "side") |> ExecutionSide.ofText?
    targetQuantity := ← v.getStr? "targetQuantity"
    targetNotional := ← v.getStr? "targetNotional"
    price := ← v.getStr? "price"
    strategyId := ← v.getStr? "strategyId"
    lineage := (v.get? "lineage").bind ExecutionLineage.ofJson? }

def orNull (v : Option Json) : Json := v.getD .null

/-- `{ ...input, seq }`. -/
def RiskJournalRecord.toJson (r : RiskJournalRecord) : Json :=
  .obj [("type", .str r.type.text), ("reason", .str r.reason), ("detail", .str r.detail),
    ("symbol", orNull (r.symbol.map .str)), ("capital", orNull (r.capital.map CapitalSnapshot.toJson)),
    ("trigger", orNull (r.trigger.map fun t => .str t.text)),
    ("order", orNull (r.order.map ProposedOrder.toJson)), ("seq", .num r.seq)]

/-- The typed view of a value that passed admission.  Nothing is asked of the order, which no fold
reads. -/
def RiskJournalRecord.ofJson? (v : Json) : Option RiskJournalRecord := do
  return {
    type := ← (← v.getStr? "type") |> RiskEventType.ofText?
    reason := ← v.getStr? "reason"
    detail := ← v.getStr? "detail"
    symbol := v.getStr? "symbol"
    capital := (v.get? "capital").bind CapitalSnapshot.ofJson?
    trigger := (v.getStr? "trigger").bind KillSwitchTrigger.ofText?
    order := (v.get? "order").bind ProposedOrder.ofJson?
    seq := (← v.getNum? "seq").toNat }

theorem RiskEventType.ofText?_text (t : RiskEventType) : ofText? t.text = some t := by
  cases t <;> rfl

theorem KillSwitchTrigger.ofText?_text (t : KillSwitchTrigger) : ofText? t.text = some t := by
  cases t <;> rfl

theorem ProposedOrder.ofJson?_toJson (o : ProposedOrder) : ofJson? o.toJson = some o := by
  obtain ⟨_, side, _, _, _, _, lineage⟩ := o
  cases lineage with
  | none => cases side <;> rfl
  | some l =>
      calc ofJson? (toJson _)
          = some ⟨_, side, _, _, _, _, ExecutionLineage.ofJson? l.toJson⟩ := by
            cases side <;> rfl
        _ = some _ := by rw [ExecutionLineage.ofJson?_toJson]

theorem RiskJournalRecord.ofJson?_toJson (r : RiskJournalRecord) : ofJson? r.toJson = some r := by
  have htype : ofJson? r.toJson = (RiskEventType.ofText? r.type.text).bind fun type =>
      some { r with
        type := type
        symbol := r.toJson.getStr? "symbol"
        capital := (r.toJson.get? "capital").bind CapitalSnapshot.ofJson?
        trigger := (r.toJson.getStr? "trigger").bind KillSwitchTrigger.ofText?
        order := (r.toJson.get? "order").bind ProposedOrder.ofJson? } := rfl
  have hsymbol : r.toJson.getStr? "symbol" = r.symbol := by
    obtain ⟨⟨_, _, _, symbol, _, _, _⟩, _⟩ := r
    cases symbol <;> rfl
  have hcapital : (r.toJson.get? "capital").bind CapitalSnapshot.ofJson? = r.capital := by
    obtain ⟨⟨_, _, _, _, capital, _, _⟩, _⟩ := r
    cases capital <;> rfl
  have htrigger : (r.toJson.getStr? "trigger").bind KillSwitchTrigger.ofText? = r.trigger := by
    obtain ⟨⟨_, _, _, _, _, trigger, _⟩, _⟩ := r
    cases trigger with
    | none => rfl
    | some t => exact t.ofText?_text
  have horder : (r.toJson.get? "order").bind ProposedOrder.ofJson? = r.order := by
    obtain ⟨⟨_, _, _, _, _, _, order⟩, _⟩ := r
    cases order with
    | none => rfl
    | some o => exact o.ofJson?_toJson
  rw [htype, RiskEventType.ofText?_text, hsymbol, hcapital, htrigger, horder]
  rfl

/-! ## Admission -/

def isString : Option Json → Bool
  | some (.str _) => true
  | _ => false

def isNull : Option Json → Bool
  | some .null => true
  | _ => false

/-- `CAPITAL_FIELDS`. -/
def capitalFields : List String :=
  ["accountEquity", "availableCash", "usedMargin", "availableMargin", "unrealizedPnl",
    "realizedPnl", "grossExposure", "netExposure"]

def capitalChecks (capital : Option Json) : List (Bool × String) :=
  if isNull capital then []
  else (isObjectField capital, "capital is not a JSON object or null") ::
    capitalFields.map fun field => decimalCheck "capital" (orNull capital) field notionalDp

def recordChecks (v : Json) : List (Bool × String) :=
  let type := v.get? "type"
  let trigger := v.get? "trigger"
  [(v.isPlainObject, "record is not a JSON object"),
    (seqIsNatural (v.get? "seq"), "seq is not a non-negative integer"),
    (isOneOf (riskEventTypes.map RiskEventType.text) type,
      "type \"" ++ textOf type ++ "\" is not a known risk event type"),
    (isString (v.get? "reason"), "reason is not a string"),
    (isString (v.get? "detail"), "detail is not a string"),
    (isNull (v.get? "symbol") || isString (v.get? "symbol"), "symbol is not a string or null")] ++
  capitalChecks (v.get? "capital") ++
  [(isNull trigger || isOneOf (killSwitchTriggers.map KillSwitchTrigger.text) trigger,
      "trigger \"" ++ textOf trigger ++ "\" is not a known kill-switch trigger or null"),
    (isNull (v.get? "order") || isObjectField (v.get? "order"),
      "order is not a JSON object or null")]

/-- `assertValidRiskJournalRecord`: the first check that fails, or nothing. -/
def assertValidRiskJournalRecord (v : Json) : Option String := firstFailed (recordChecks v)

theorem capitalChecks_toJson (capital : Option CapitalSnapshot) :
    (∀ c ∈ capitalChecks (some (orNull (capital.map CapitalSnapshot.toJson))), c.1 = true) ↔
      ∀ c ∈ capital, c.Canonical := by
  cases capital with
  | none => simp [capitalChecks, orNull, isNull]
  | some c =>
      have hcanonical : c.Canonical ↔
          isCanonicalDecimalString c.accountEquity notionalDp ∧
          isCanonicalDecimalString c.availableCash notionalDp ∧
          isCanonicalDecimalString c.usedMargin notionalDp ∧
          isCanonicalDecimalString c.availableMargin notionalDp ∧
          isCanonicalDecimalString c.unrealizedPnl notionalDp ∧
          isCanonicalDecimalString c.realizedPnl notionalDp ∧
          isCanonicalDecimalString c.grossExposure notionalDp ∧
          isCanonicalDecimalString c.netExposure notionalDp :=
        ⟨fun h => ⟨h.1, h.2, h.3, h.4, h.5, h.6, h.7, h.8⟩,
          fun h => ⟨h.1, h.2.1, h.2.2.1, h.2.2.2.1, h.2.2.2.2.1, h.2.2.2.2.2.1, h.2.2.2.2.2.2.1,
            h.2.2.2.2.2.2.2⟩⟩
      simp [hcanonical, capitalChecks, orNull, isNull, CapitalSnapshot.toJson, isObjectField,
        Json.isPlainObject, capitalFields, decimalCheck, Json.get?, List.lookup_cons, List.lookup_nil,
        isCanonicalField, isCanonicalDecimalString]

theorem recordChecks_toJson (r : RiskJournalRecord) : recordChecks r.toJson =
    [(true, "record is not a JSON object"),
      (seqIsNatural (some (.num r.seq)), "seq is not a non-negative integer"),
      (isOneOf (riskEventTypes.map RiskEventType.text) (some (.str r.type.text)),
        "type \"" ++ textOf (some (.str r.type.text)) ++ "\" is not a known risk event type"),
      (true, "reason is not a string"), (true, "detail is not a string"),
      (isNull (some (orNull (r.symbol.map .str))) || isString (some (orNull (r.symbol.map .str))),
        "symbol is not a string or null")] ++
    capitalChecks (some (orNull (r.capital.map CapitalSnapshot.toJson))) ++
    [(isNull (some (orNull (r.trigger.map fun t => .str t.text))) ||
        isOneOf (killSwitchTriggers.map KillSwitchTrigger.text)
          (some (orNull (r.trigger.map fun t => .str t.text))),
        "trigger \"" ++ textOf (some (orNull (r.trigger.map fun t => .str t.text))) ++
          "\" is not a known kill-switch trigger or null"),
      (isNull (some (orNull (r.order.map ProposedOrder.toJson))) ||
        isObjectField (some (orNull (r.order.map ProposedOrder.toJson))),
        "order is not a JSON object or null")] := rfl

/-- A record is admitted when it is read back exactly when its capital snapshot, if it has one, is
made of canonical texts. -/
theorem assertValid_toJson (r : RiskJournalRecord) :
    assertValidRiskJournalRecord r.toJson = none ↔ ∀ c ∈ r.capital, c.Canonical := by
  have htype : isOneOf (riskEventTypes.map RiskEventType.text) (some (.str r.type.text)) := by
    cases r.type <;> decide
  have hsymbol : (isNull (some (orNull (r.symbol.map .str))) ||
      isString (some (orNull (r.symbol.map .str)))) = true := by
    cases r.symbol <;> rfl
  have htrigger : (isNull (some (orNull (r.trigger.map fun t => .str t.text))) ||
      isOneOf (killSwitchTriggers.map KillSwitchTrigger.text)
        (some (orNull (r.trigger.map fun t => .str t.text)))) = true := by
    cases r.trigger with
    | none => rfl
    | some t => cases t <;> decide
  have horder : (isNull (some (orNull (r.order.map ProposedOrder.toJson))) ||
      isObjectField (some (orNull (r.order.map ProposedOrder.toJson)))) = true := by
    cases r.order <;> rfl
  rw [assertValidRiskJournalRecord, firstFailed_eq_none, recordChecks_toJson]
  simp only [List.forall_mem_append, List.forall_mem_cons, capitalChecks_toJson, htype, hsymbol,
    htrigger, horder, seqIsNatural]
  simp

/-- A value that is admitted can be read as a record. -/
theorem RiskJournalRecord.ofJson?_of_admitted {v : Json}
    (h : assertValidRiskJournalRecord v = none) : ∃ r, ofJson? v = some r := by
  rw [assertValidRiskJournalRecord, firstFailed_eq_none] at h
  simp only [recordChecks, List.forall_mem_append, List.forall_mem_cons] at h
  obtain ⟨⟨⟨-, hseq, htype, hreason, hdetail, -⟩, -⟩, -⟩ := h
  obtain ⟨n, hn⟩ : ∃ n, v.getNum? "seq" = some n := by
    unfold Json.getNum?
    revert hseq
    cases v.get? "seq" with
    | none => rintro ⟨⟩
    | some w => cases w <;> simp [seqIsNatural]
  have hstring : ∀ key, isString (v.get? key) = true → ∃ s, v.getStr? key = some s := by
    intro key hkey
    unfold Json.getStr?
    revert hkey
    cases v.get? key with
    | none => rintro ⟨⟩
    | some w => cases w <;> simp [isString]
  obtain ⟨reason, hreason⟩ := hstring _ hreason
  obtain ⟨detail, hdetail⟩ := hstring _ hdetail
  obtain ⟨s, hs, t, ht⟩ : ∃ s, v.getStr? "type" = some s ∧ ∃ t, RiskEventType.ofText? s = some t := by
    unfold Json.getStr?
    revert htype
    cases v.get? "type" with
    | none => rintro ⟨⟩
    | some w =>
        cases w with
        | str s =>
            intro hs
            obtain ⟨t, -, rfl⟩ := List.mem_map.mp (of_decide_eq_true hs)
            exact ⟨_, rfl, t, t.ofText?_text⟩
        | _ => rintro ⟨⟩
  simp only [ofJson?, hs, hreason, hdetail, hn, Option.bind_eq_bind, Option.bind_some, ht]
  exact ⟨_, rfl⟩

/-! ## The file store -/

/-- What `FileRiskEventStore` writes and admits. -/
def riskFormat : Format RiskJournalInput RiskJournalRecord where
  withSeq input seq := { input with seq }
  toJson := RiskJournalRecord.toJson
  check := assertValidRiskJournalRecord
  seqOf_withSeq _ _ := rfl
  check_withSeq _ _ _ h := (assertValid_toJson _).mpr ((assertValid_toJson _).mp h)

namespace FileRiskEventStore

/-- `JSON.stringify` and `JSON.parse` on risk records. -/
abbrev Texts := Codec riskFormat.toJson

/-- The texts of `Json.print` and `Json.parse`. -/
def jsonTexts : Texts := printCodec RiskJournalRecord.toJson fun _ => ⟨_, rfl⟩

variable (texts : Texts)

/-- `append` on an open store, with the way the write ends. -/
def append (store : Store) (input : RiskJournalInput) (write : Write) :
    Option RiskJournalRecord × Store :=
  Journal.append riskFormat texts store input write

/-- `readAll`, an error standing for `RiskJournalCorruptionError`. -/
def readAll (file : Bytes) : Except ReadError (List Json) :=
  Journal.readAll riskFormat texts file

end FileRiskEventStore

end NexusQuant.Risk
