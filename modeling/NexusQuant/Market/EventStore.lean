import NexusQuant.Lib.Journal
import NexusQuant.Lib.JsonChecks
import NexusQuant.Market.Order

/-!
# The market journal

`event-store.ts`: one record per committed execution, its JSON, the structural admission of a value
that is read back, and the file store of JSON lines.
-/

namespace NexusQuant.Market

open Execution Journal JsonChecks Run

/-- A record before the store numbers it. -/
structure MarketJournalInput where
  intentId : String
  symbol : String
  orderEvents : List OrderEvent
  result : ExecutionResult
  position : Position
  account : Account
deriving DecidableEq, Repr

structure MarketJournalRecord extends MarketJournalInput where
  seq : ℕ
deriving DecidableEq, Repr

/-! ## JSON -/

def OrderSide.ofText? (s : String) : Option OrderSide :=
  if s = "BUY" then some .buy else if s = "SELL" then some .sell else none

/-- The members of an order event besides its identity. -/
def OrderEventBody.members : OrderEventBody → List (String × Json)
  | .partiallyFilled fill | .filled fill =>
      [("fillQty", .str fill.fillQty), ("fillPrice", .str fill.fillPrice), ("cumQty", .str fill.cumQty)]
  | .cancelled reason | .rejected reason => [("reason", .str reason)]
  | _ => []

def OrderEventBody.ofJson? (v : Json) : Option OrderEventBody := do
  let kind ← v.getStr? "kind"
  let fill : Option OrderFillData := do
    return ⟨← v.getStr? "fillQty", ← v.getStr? "fillPrice", ← v.getStr? "cumQty"⟩
  let reason := v.getStr? "reason"
  if kind = "ORDER_REQUESTED" then return .requested
  else if kind = "ORDER_SUBMITTED" then return .submitted
  else if kind = "ORDER_ACCEPTED" then return .accepted
  else if kind = "ORDER_PARTIALLY_FILLED" then return .partiallyFilled (← fill)
  else if kind = "ORDER_FILLED" then return .filled (← fill)
  else if kind = "ORDER_CANCELLED" then return .cancelled (← reason)
  else if kind = "ORDER_REJECTED" then return .rejected (← reason)
  else none

def OrderEvent.toJson (e : OrderEvent) : Json :=
  .obj ([("kind", .str e.body.kind), ("seq", .num e.seq), ("orderId", .str e.orderId),
    ("intentId", .str e.intentId), ("symbol", .str e.symbol), ("side", .str e.side.text),
    ("brokerId", .str e.brokerId), ("lineage", e.lineage.toJson)] ++ e.body.members)

def OrderEvent.ofJson? (v : Json) : Option OrderEvent := do
  return {
    seq := ← v.getNum? "seq"
    orderId := ← v.getStr? "orderId"
    intentId := ← v.getStr? "intentId"
    symbol := ← v.getStr? "symbol"
    side := ← (← v.getStr? "side") |> OrderSide.ofText?
    brokerId := ← v.getStr? "brokerId"
    body := ← OrderEventBody.ofJson? v
    lineage := ← (← v.get? "lineage") |> ExecutionLineage.ofJson? }

def Position.toJson (p : Position) : Json :=
  .obj [("symbol", .str p.symbol), ("netQty", .str p.netQty),
    ("avgEntryPrice", .str p.avgEntryPrice), ("realizedPnl", .str p.realizedPnl),
    ("markPrice", .str p.markPrice)]

def Position.ofJson? (v : Json) : Option Position := do
  return {
    symbol := ← v.getStr? "symbol"
    netQty := ← v.getStr? "netQty"
    avgEntryPrice := ← v.getStr? "avgEntryPrice"
    realizedPnl := ← v.getStr? "realizedPnl"
    markPrice := ← v.getStr? "markPrice" }

def Account.toJson (a : Account) : Json :=
  .obj [("cashBalance", .str a.cashBalance), ("realizedPnl", .str a.realizedPnl)]

def Account.ofJson? (v : Json) : Option Account := do
  return { cashBalance := ← v.getStr? "cashBalance", realizedPnl := ← v.getStr? "realizedPnl" }

/-- `{ ...input, seq }`. -/
def MarketJournalRecord.toJson (r : MarketJournalRecord) : Json :=
  .obj [("intentId", .str r.intentId), ("symbol", .str r.symbol),
    ("orderEvents", .arr (r.orderEvents.map OrderEvent.toJson)), ("result", r.result.toJson),
    ("position", r.position.toJson), ("account", r.account.toJson), ("seq", .num r.seq)]

/-- The typed view of a value that passed admission. -/
def MarketJournalRecord.ofJson? (v : Json) : Option MarketJournalRecord := do
  return {
    seq := (← v.getNum? "seq").toNat
    intentId := ← v.getStr? "intentId"
    symbol := ← v.getStr? "symbol"
    position := ← (← v.get? "position") |> Position.ofJson?
    account := ← (← v.get? "account") |> Account.ofJson?
    orderEvents := ← (← v.getArr? "orderEvents").mapM OrderEvent.ofJson?
    result := ← (← v.get? "result") |> ExecutionResult.ofJson? }

theorem OrderSide.ofText?_text (side : OrderSide) : ofText? side.text = some side := by
  cases side <;> rfl

theorem OrderEventBody.ofJson?_toJson (e : OrderEvent) : ofJson? e.toJson = some e.body := by
  obtain ⟨_, _, _, _, _, _, _, body⟩ := e
  cases body <;> rfl

theorem OrderEvent.ofJson?_toJson (e : OrderEvent) : ofJson? e.toJson = some e := by
  calc ofJson? e.toJson
      = (OrderSide.ofText? e.side.text).bind fun side =>
          (OrderEventBody.ofJson? e.toJson).bind fun body =>
            (ExecutionLineage.ofJson? e.lineage.toJson).bind fun l =>
              some { e with side, body, lineage := l } := rfl
    _ = some e := by
        rw [OrderSide.ofText?_text, OrderEventBody.ofJson?_toJson, ExecutionLineage.ofJson?_toJson]
        rfl

theorem MarketJournalRecord.ofJson?_toJson (r : MarketJournalRecord) :
    ofJson? r.toJson = some r := by
  calc ofJson? r.toJson
      = ((r.orderEvents.map OrderEvent.toJson).mapM OrderEvent.ofJson?).bind fun es =>
          (ExecutionResult.ofJson? r.result.toJson).bind fun result =>
            some { r with orderEvents := es, result := result } := rfl
    _ = some r := by
        rw [Json.mapM_map OrderEvent.ofJson?_toJson, ExecutionResult.ofJson?_toJson]
        rfl

/-! ## Admission -/

/-- `ORDER_EVENT_KINDS`. -/
def orderEventKinds : List String :=
  ["ORDER_REQUESTED", "ORDER_SUBMITTED", "ORDER_ACCEPTED", "ORDER_PARTIALLY_FILLED", "ORDER_FILLED",
    "ORDER_CANCELLED", "ORDER_REJECTED"]

/-- The checks of one order event, each with what is said when it fails. -/
def eventChecks (j : ℕ) (e : Json) : List (Bool × String) :=
  let field := "orderEvents[" ++ toString j ++ "]"
  let kind := e.get? "kind"
  [(e.isPlainObject, field ++ " is not a JSON object"),
    (isOneOf orderEventKinds kind,
      field ++ ".kind \"" ++ textOf kind ++ "\" is not a known order event kind")] ++
  if isOneOf ["ORDER_PARTIALLY_FILLED", "ORDER_FILLED"] kind then
    [(isNonEmptyString (e.get? "orderId"), field ++ ".orderId missing or empty"),
      (isNonEmptyString (e.get? "intentId"), field ++ ".intentId missing or empty"),
      (isNonEmptyString (e.get? "symbol"), field ++ ".symbol missing or empty"),
      (isOneOf ["BUY", "SELL"] (e.get? "side"),
        field ++ ".side \"" ++ textOf (e.get? "side") ++ "\" is not BUY|SELL"),
      (isCanonicalField qtyDp (e.get? "fillQty"),
        field ++ ".fillQty is not a canonical " ++ toString qtyDp ++ "dp decimal string"),
      (isCanonicalField priceDp (e.get? "fillPrice"),
        field ++ ".fillPrice is not a canonical " ++ toString priceDp ++ "dp decimal string"),
      (isObjectField (e.get? "lineage"), field ++ ".lineage is not a JSON object")]
  else []

def resultChecks (result : Json) : List (Bool × String) :=
  let lineage := (result.get? "lineage").getD .null
  [(result.isPlainObject, "result is not a JSON object"),
    (isOneOf ["FILLED", "REJECTED"] (result.get? "status"),
      "result.status \"" ++ textOf (result.get? "status") ++ "\" is not FILLED|REJECTED"),
    (isNonEmptyString (result.get? "symbol"), "result.symbol missing or empty"),
    (isOneOf ["LONG", "SHORT"] (result.get? "side"),
      "result.side \"" ++ textOf (result.get? "side") ++ "\" is not LONG|SHORT"),
    (isCanonicalField notionalDp (result.get? "filledNotional"),
      "result.filledNotional is not a canonical " ++ toString notionalDp ++ "dp decimal string"),
    (lineage.isPlainObject, "result.lineage is not a JSON object"),
    (isNonEmptyString (lineage.get? "executionStrategyId"),
      "result.lineage.executionStrategyId missing or empty")]

def positionChecks (position : Json) : List (Bool × String) :=
  [(position.isPlainObject, "position is not a JSON object"),
    (isNonEmptyString (position.get? "symbol"), "position.symbol missing or empty"),
    decimalCheck "position" position "netQty" qtyDp,
    decimalCheck "position" position "avgEntryPrice" priceDp,
    decimalCheck "position" position "realizedPnl" notionalDp,
    decimalCheck "position" position "markPrice" priceDp]

def accountChecks (account : Json) : List (Bool × String) :=
  [(account.isPlainObject, "account is not a JSON object"),
    decimalCheck "account" account "cashBalance" notionalDp,
    decimalCheck "account" account "realizedPnl" notionalDp]

def recordChecks (v : Json) : List (Bool × String) :=
  [(v.isPlainObject, "record is not a JSON object"),
    (seqIsNatural (v.get? "seq"), "seq is not a non-negative integer"),
    (isNonEmptyString (v.get? "intentId"), "intentId missing or empty"),
    (isNonEmptyString (v.get? "symbol"), "symbol missing or empty"),
    ((v.getArr? "orderEvents").isSome, "orderEvents is not an array")] ++
  (((v.getArr? "orderEvents").getD []).mapIdx eventChecks).flatten ++
  resultChecks ((v.get? "result").getD .null) ++ positionChecks ((v.get? "position").getD .null) ++
  accountChecks ((v.get? "account").getD .null)

/-- `assertValidMarketJournalRecord`: the first check that fails, or nothing. -/
def assertValidMarketJournalRecord (v : Json) : Option String :=
  firstFailed (recordChecks v)

/-! ## What a record must satisfy to be admitted -/

/-- A fill event has its identity and canonical economics; nothing is asked of other events. -/
def OrderEvent.Admissible (e : OrderEvent) : Prop :=
  ∀ fill ∈ e.body.fill?, 0 < e.orderId.length ∧ 0 < e.intentId.length ∧ 0 < e.symbol.length ∧
    isCanonicalDecimalString fill.fillQty qtyDp ∧ isCanonicalDecimalString fill.fillPrice priceDp

structure MarketJournalInput.Admissible (i : MarketJournalInput) : Prop where
  intentId : 0 < i.intentId.length
  symbol : 0 < i.symbol.length
  events : ∀ e ∈ i.orderEvents, e.Admissible
  resultSymbol : 0 < i.result.symbol.length
  filledNotional : isCanonicalDecimalString i.result.filledNotional notionalDp
  strategy : 0 < i.result.lineage.executionStrategyId.length
  positionSymbol : 0 < i.position.symbol.length
  position : i.position.Canonical
  account : i.account.Canonical

theorem eventChecks_toJson (j : ℕ) (e : OrderEvent) :
    (∀ c ∈ eventChecks j e.toJson, c.1 = true) ↔ e.Admissible := by
  obtain ⟨_, orderId, intentId, symbol, side, _, _, body⟩ := e
  cases body
  case partiallyFilled fill | filled fill =>
    cases side <;>
      simp [eventChecks, OrderEvent.toJson, Json.get?, List.lookup_cons, isOneOf, orderEventKinds,
        OrderEvent.Admissible, OrderEventBody.fill?, Json.isPlainObject, OrderEventBody.kind,
        OrderEventBody.members, isNonEmptyString, isCanonicalField, isCanonicalDecimalString,
        isObjectField,
        ExecutionLineage.toJson, OrderSide.text]
  all_goals
    simp [eventChecks, OrderEvent.toJson, Json.get?, isOneOf, orderEventKinds,
      OrderEvent.Admissible, OrderEventBody.fill?, Json.isPlainObject, OrderEventBody.kind]

theorem resultChecks_toJson (r : ExecutionResult) :
    (∀ c ∈ resultChecks r.toJson, c.1 = true) ↔
      0 < r.symbol.length ∧ isCanonicalDecimalString r.filledNotional notionalDp ∧
        0 < r.lineage.executionStrategyId.length := by
  obtain ⟨_, symbol, side, status, _, filledNotional, _, lineage⟩ := r
  cases side <;> cases status <;>
    simp [resultChecks, ExecutionResult.toJson, Json.get?, List.lookup_cons, isOneOf, isNonEmptyString,
      isCanonicalField, isCanonicalDecimalString, Json.isPlainObject, ExecutionLineage.toJson,
      ExecutionSide.text,
      ExecutionStatus.text]

theorem positionChecks_toJson (p : Position) :
    (∀ c ∈ positionChecks p.toJson, c.1 = true) ↔ 0 < p.symbol.length ∧ p.Canonical := by
  have hcanonical : p.Canonical ↔ isCanonicalDecimalString p.netQty qtyDp ∧
      isCanonicalDecimalString p.avgEntryPrice priceDp ∧
      isCanonicalDecimalString p.realizedPnl notionalDp ∧
      isCanonicalDecimalString p.markPrice priceDp :=
    ⟨fun h => ⟨h.1, h.2, h.3, h.4⟩, fun h => ⟨h.1, h.2.1, h.2.2.1, h.2.2.2⟩⟩
  rw [hcanonical]
  simp [positionChecks, Position.toJson, Json.get?, List.lookup_cons, isNonEmptyString, decimalCheck,
    isCanonicalField, isCanonicalDecimalString, Json.isPlainObject]

theorem accountChecks_toJson (a : Account) :
    (∀ c ∈ accountChecks a.toJson, c.1 = true) ↔ a.Canonical := by
  have hcanonical : a.Canonical ↔ isCanonicalDecimalString a.cashBalance notionalDp ∧
      isCanonicalDecimalString a.realizedPnl notionalDp :=
    ⟨fun h => ⟨h.1, h.2⟩, fun h => ⟨h.1, h.2⟩⟩
  rw [hcanonical]
  simp [accountChecks, Account.toJson, Json.get?, List.lookup_cons, decimalCheck, isCanonicalField,
    isCanonicalDecimalString, Json.isPlainObject]

theorem recordChecks_toJson (r : MarketJournalRecord) : recordChecks r.toJson =
    [(true, "record is not a JSON object"),
      (seqIsNatural (some (.num r.seq)), "seq is not a non-negative integer"),
      (isNonEmptyString (some (.str r.intentId)), "intentId missing or empty"),
      (isNonEmptyString (some (.str r.symbol)), "symbol missing or empty"),
      (true, "orderEvents is not an array")] ++
    ((r.orderEvents.map OrderEvent.toJson).mapIdx eventChecks).flatten ++
    resultChecks r.result.toJson ++ positionChecks r.position.toJson ++
    accountChecks r.account.toJson := rfl

/-- A record is admitted when it is read back exactly when its fields are admissible. -/
theorem assertValid_toJson (r : MarketJournalRecord) :
    assertValidMarketJournalRecord r.toJson = none ↔ r.toMarketJournalInput.Admissible := by
  have hevents : (∀ c ∈ ((r.orderEvents.map OrderEvent.toJson).mapIdx eventChecks).flatten,
      c.1 = true) ↔ ∀ e ∈ r.orderEvents, e.Admissible := by
    constructor
    · intro h e he
      obtain ⟨j, hj, rfl⟩ := List.getElem_of_mem he
      refine (eventChecks_toJson j _).mp fun c hc => h c (List.mem_flatten.mpr ⟨_, ?_, hc⟩)
      exact List.mem_mapIdx.mpr ⟨j, by simpa using hj, by simp⟩
    · intro h c hc
      obtain ⟨cs, hcs, hc⟩ := List.mem_flatten.mp hc
      obtain ⟨j, hj, rfl⟩ := List.mem_mapIdx.mp hcs
      rw [List.getElem_map] at hc
      exact (eventChecks_toJson j _).mpr (h _ (List.getElem_mem _)) c hc
  rw [assertValidMarketJournalRecord, firstFailed_eq_none, recordChecks_toJson]
  simp only [List.forall_mem_append, hevents, resultChecks_toJson, positionChecks_toJson,
    accountChecks_toJson, List.forall_mem_cons, isNonEmptyString, seqIsNatural, decide_eq_true_eq,
    true_and, gt_iff_lt]
  constructor
  · rintro ⟨⟨⟨⟨⟨-, h₁, h₂, -⟩, h₃⟩, h₄, h₅, h₆⟩, h₇, h₈⟩, h₉⟩
    exact ⟨h₁, h₂, h₃, h₄, h₅, h₆, h₇, h₈, h₉⟩
  · intro h
    exact ⟨⟨⟨⟨⟨Int.natCast_nonneg _, h.intentId, h.symbol, by simp⟩, h.events⟩, h.resultSymbol,
      h.filledNotional, h.strategy⟩, h.positionSymbol, h.position⟩, h.account⟩

/-! ## The file store -/

/-- What `FileMarketEventStore` writes and admits. -/
def marketFormat : Format MarketJournalInput MarketJournalRecord where
  withSeq input seq := { input with seq }
  toJson := MarketJournalRecord.toJson
  check := assertValidMarketJournalRecord
  seqOf_withSeq _ _ := rfl
  check_withSeq _ _ _ h := (assertValid_toJson _).mpr ((assertValid_toJson _).mp h)

namespace FileMarketEventStore

/-- `JSON.stringify` and `JSON.parse` on market records. -/
abbrev Texts := Codec marketFormat.toJson

variable (texts : Texts)

/-- `append` on an open store, with the way the write ends. -/
def append (store : Store) (input : MarketJournalInput) (write : Write) :
    Option MarketJournalRecord × Store :=
  Journal.append marketFormat texts store input write

/-- `readAll`, an error standing for `JournalCorruptionError`. -/
def readAll (file : Bytes) : Except ReadError (List Json) :=
  Journal.readAll marketFormat texts file

/-- One append that completes or fails, or a restart, with the completed records remembered. -/
def step (h : History MarketJournalRecord) (c : Command MarketJournalInput) :
    History MarketJournalRecord :=
  Journal.step marketFormat texts h c

/-- The condition on a step: no append behind a torn line, no record that admission refuses, no
failed append that wrote its whole JSON text. -/
def CleanStep (h : History MarketJournalRecord) (c : Command MarketJournalInput) : Prop :=
  Journal.CleanStep marketFormat texts h c

instance (h : History MarketJournalRecord) (c : Command MarketJournalInput) :
    Decidable (CleanStep texts h c) := by
  dsimp only [CleanStep]; infer_instance

/-- Along every run of clean steps, at every point, the journal reads back as the completed records,
in order and numbered from zero. -/
theorem readAll_eq_completed_records (commands visited : List (Command MarketJournalInput))
    (h : RunMeets (step texts) (CleanStep texts) emptyHistory commands)
    (hvisited : visited <+: commands) :
    readAll texts (run (step texts) emptyHistory visited).store.file =
        .ok ((run (step texts) emptyHistory visited).completed.map MarketJournalRecord.toJson) ∧
      ∀ (k : ℕ) (r : MarketJournalRecord),
        (run (step texts) emptyHistory visited).completed[k]? = some r → r.seq = k := by
  obtain ⟨rest, rfl⟩ := hvisited
  have hsound := sound_run visited h.of_append
  refine ⟨readAll_eq_completed visited h.of_append, fun k r hk => ?_⟩
  have hseq : some (r.seq : ℤ) = some (k : ℤ) := hsound.seqs k r hk
  exact Int.ofNat.inj (Option.some.inj hseq)

/-- The texts of `Json.print` and `Json.parse`. -/
def jsonTexts : Texts := printCodec MarketJournalRecord.toJson fun _ => ⟨_, rfl⟩

/-- A long position of 1.5 opened at 100. -/
def sampleInput : MarketJournalInput :=
  let lineage : ExecutionLineage :=
    ⟨none, "sv-1", "fs-1", "dq-1", "dh-1", "fh-1", "momentum", 1, "i-1", "150.00", []⟩
  { intentId := "i-1"
    symbol := "BTC"
    orderEvents := [⟨3, "0123456789abcdef", "i-1", "BTC", .buy, "paper", lineage,
      .filled ⟨"1.50000000", "100.00000000", "1.50000000"⟩⟩]
    result := ⟨"i-1", "BTC", .long, .filled, "market:paper", "150.00", "FILLED via paper", lineage⟩
    position := ⟨"BTC", "1.50000000", "100.00000000", "0.00", "100.00000000"⟩
    account := ⟨"1000000.00", "0.00"⟩ }

/-- One record is written, a second one is torn after five bytes, and the process restarts. -/
def cleanRun : List (Command MarketJournalInput) :=
  [.append sampleInput .complete, .append sampleInput (.torn 5), .restart]

theorem readAll_eq_completed_records_cleanRun :
    RunMeets (step jsonTexts) (CleanStep jsonTexts) emptyHistory cleanRun ∧
      readAll jsonTexts (run (step jsonTexts) emptyHistory cleanRun).store.file =
        .ok ((run (step jsonTexts) emptyHistory cleanRun).completed.map
          MarketJournalRecord.toJson) := by
  have hclean : RunMeets (step jsonTexts) (CleanStep jsonTexts) emptyHistory cleanRun := by
    decide +kernel
  exact ⟨hclean, (readAll_eq_completed_records jsonTexts cleanRun cleanRun hclean
    (List.prefix_refl _)).1⟩

/-- After the restart a record is appended in full, onto the torn line. -/
def tornRun : List (Command MarketJournalInput) :=
  [.append sampleInput (.torn 1), .restart, .append sampleInput .complete]

/-- The record whose append completed behind the torn line is not read back, and one more append
makes the journal unreadable. -/
theorem append_behind_torn_line_loses_record :
    (run (step jsonTexts) emptyHistory tornRun).completed.length = 1 ∧
      readAll jsonTexts (run (step jsonTexts) emptyHistory tornRun).store.file ≠
        .ok ((run (step jsonTexts) emptyHistory tornRun).completed.map
          MarketJournalRecord.toJson) ∧
      (readAll jsonTexts (run (step jsonTexts) emptyHistory
        (tornRun ++ [.append sampleInput .complete])).store.file).toOption.isNone := by
  have hlength : (run (step jsonTexts) emptyHistory tornRun).completed.length = 1 := by
    decide +kernel
  have hread : (readAll jsonTexts (run (step jsonTexts) emptyHistory tornRun).store.file).toOption.map
      List.length = some 0 := by
    decide +kernel
  refine ⟨hlength, fun heq => ?_, by decide +kernel⟩
  rw [heq] at hread
  simp [Except.toOption, hlength] at hread

end FileMarketEventStore

end NexusQuant.Market
