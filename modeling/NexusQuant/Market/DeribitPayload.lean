import NexusQuant.Lib.JsValue
import NexusQuant.Market.Broker

/-!
# The payloads of the venue

`market/deribit-order-transport.ts`, the parts without a network: an instrument, an order outcome and
its trades are read from untrusted values, an order is rounded to the lots of its instrument, and the
outcome becomes a stream of order events.
-/

namespace NexusQuant.Market

open Execution Fallible Rounding

structure DeribitOrderError where
  message : String
  endpoint : String
  rpcCode : Option ℤ
deriving DecidableEq, Repr

/-- `QTY_EPS`. -/
def venueQtyEps [A : Arithmetic] : ℚ := A.rounded (1 / 1000000000)

structure VenueInstrument where
  instrumentName : String
  contractSize : ℚ
  minTradeAmount : ℚ
  settlementCurrency : String
deriving DecidableEq, Repr

structure VenueTrade where
  amount : ℚ
  price : ℚ
  seq : ℚ
deriving DecidableEq, Repr

structure VenueOrderOutcome where
  orderState : String
  venueOrderId : String
  trades : List VenueTrade
deriving DecidableEq, Repr

/-! ## Instruments and sizes -/

def parseInstrument (name : String) (raw : JsValue) : Except DeribitOrderError VenueInstrument :=
  let quote := (raw.field "quote_currency").stringOrEmpty
  let settlement := (raw.field "settlement_currency").stringOrEmpty
  let fail := fun message => .error ⟨message, "public/get_instrument", none⟩
  match (raw.field "contract_size").finitePositive, (raw.field "min_trade_amount").finitePositive with
  | some contractSize, some minTradeAmount =>
      if quote = "" ∨ settlement = "" then
        fail ("instrument " ++ name ++ ": malformed venue metadata (fail-closed)")
      else
        match raw.field "is_active" with
        | .bool true =>
            -- Only on a linear contract is the amount in the unit of an order's quantity.
            if settlement ≠ quote then
              fail ("instrument " ++ name ++ " is not a linear contract (settlement " ++ settlement ++
                " != quote " ++ quote ++ "); its amount unit would misstate base exposure — " ++
                "refusing to route (fail-closed)")
            else .ok ⟨name, contractSize, minTradeAmount, settlement⟩
        | _ => fail ("instrument " ++ name ++ " is not active on the venue (fail-closed)")
  | _, _ => fail ("instrument " ++ name ++ ": malformed venue metadata (fail-closed)")

/-- The lots of a contract size that an order has room for. -/
def lotsOf [A : Arithmetic] (order : Order) (step : ℚ) : ℤ :=
  ⌊A.rounded (A.rounded (parseDecimal order.qty + venueQtyEps) / step)⌋

/-- The amount of an order, rounded down to the lots of its instrument. -/
def sizeOrder [A : Arithmetic] (order : Order) (instrument : VenueInstrument) :
    Except DeribitOrderError ℚ :=
  let step := instrument.contractSize
  let lots := lotsOf order step
  let amount := A.rounded (roundTo 10 (A.rounded (lots * step)))
  if ¬ 0 < amount ∨ A.rounded (amount + venueQtyEps) < instrument.minTradeAmount then
    .error
      { message := "order qty " ++ order.qty ++ " rounds to " ++ DecimalText.numberText (.fin amount) ++
          " " ++ instrument.instrumentName ++ " (step " ++ DecimalText.numberText (.fin step) ++
          "), below venue minimum " ++ DecimalText.numberText (.fin instrument.minTradeAmount) ++
          " — refusing to route (fail-closed)"
        endpoint := "sizing"
        rpcCode := none }
  else .ok amount

/-! ## Outcomes -/

/-- `String(v)` of a value of JSON that is no array; the text only stands in messages. -/
def valueText : JsValue → String
  | .undefined => "undefined"
  | .null => "null"
  | .bool b => if b then "true" else "false"
  | .num x => DecimalText.numberText x
  | .str s => s
  | .arr _ => ""
  | .obj _ => "[object Object]"

/-- The trades from number `i` on. -/
def parseTradeItems (endpoint : String) : ℕ → List JsValue →
    Except DeribitOrderError (List VenueTrade)
  | _, [] => .ok []
  | i, raw :: rest =>
      match (raw.field "amount").finitePositive, (raw.field "price").finitePositive with
      | some amount, some price =>
          let seq : ℚ := match raw.field "trade_seq" with
            | .num (.fin q) => q
            | _ => i
          (parseTradeItems endpoint (i + 1) rest).map fun trades => ⟨amount, price, seq⟩ :: trades
      | _, _ =>
          .error ⟨"trade " ++ toString i ++ ": malformed venue fill (amount=" ++
            valueText (raw.field "amount") ++ ", price=" ++ valueText (raw.field "price") ++
            ") — fail-closed", endpoint, none⟩

def sortTrades (trades : List VenueTrade) : List VenueTrade :=
  trades.insertionSort fun a b => a.seq ≤ b.seq

def parseTrades (raw : JsValue) (endpoint : String) : Except DeribitOrderError (List VenueTrade) :=
  match raw with
  | .arr items => (parseTradeItems endpoint 0 items).map sortTrades
  | _ => .ok []

/-- The state and the id of an order record. -/
def readOrder (raw : JsValue) : Option (String × String) :=
  let orderState := (raw.field "order_state").stringOrEmpty
  let venueOrderId := (raw.field "order_id").stringOrEmpty
  if orderState = "" ∨ venueOrderId = "" then none else some (orderState, venueOrderId)

def parseOrderOutcome (raw : JsValue) (endpoint : String) :
    Except DeribitOrderError VenueOrderOutcome :=
  match readOrder (raw.field "order") with
  | none =>
      .error ⟨"malformed venue order payload from " ++ endpoint ++ " (fail-closed)", endpoint, none⟩
  | some (orderState, venueOrderId) =>
      (parseTrades (raw.field "trades") endpoint).map fun trades => ⟨orderState, venueOrderId, trades⟩

/-! ## The stream of an outcome -/

/-- The fills from event number `seq` on, `cum` being executed already, and what is executed after
them. -/
def tradeEvents [A : Arithmetic] (order : Order) : ℕ → ℚ → List VenueTrade →
    Except DeribitOrderError (List OrderEvent × ℚ)
  | _, cum, [] => .ok ([], cum)
  | seq, cum, t :: rest =>
      let orderedQty := parseDecimal order.qty
      let next := A.rounded (cum + t.amount)
      if next > A.rounded (orderedQty + venueQtyEps) then
        .error ⟨"venue overfill on order " ++ order.orderId ++ ": cumulative " ++
          DecimalText.numberText (.fin next) ++ " exceeds ordered " ++ order.qty ++
          " — manual reconciliation required", "fills", none⟩
      else
        let fill : OrderFillData := ⟨quantizeQty t.amount, quantizePrice t.price, quantizeQty next⟩
        let body : OrderEventBody :=
          if |A.rounded (next - orderedQty)| ≤ venueQtyEps ∧ rest = [] then .filled fill
          else .partiallyFilled fill
        (tradeEvents order (seq + 1) next rest).map fun r => (baseEvent order seq body :: r.1, r.2)

def buildEvents [A : Arithmetic] (order : Order) (outcome : VenueOrderOutcome) :
    Except DeribitOrderError (List OrderEvent) :=
  let requested := baseEvent order 0 .requested
  let submitted := baseEvent order 1 .submitted
  if outcome.orderState = "rejected" then
    .ok [requested, submitted,
      baseEvent order 2 (.rejected ("venue rejected order " ++ outcome.venueOrderId))]
  else
    (tradeEvents order 3 0 outcome.trades).map fun r =>
      let cancelled :=
        if |A.rounded (r.2 - parseDecimal order.qty)| ≤ venueQtyEps then []
        else
          -- The venue is done with the order, and the ordered quantity did not execute.
          [baseEvent order (3 + outcome.trades.length)
            (.cancelled ("venue " ++ outcome.orderState ++ ": executed " ++ quantizeQty r.2 ++
              " of ordered " ++ order.qty ++
              " (immediate-or-cancel remainder cancelled by venue; venue order " ++
              outcome.venueOrderId ++ ")"))]
      requested :: submitted :: baseEvent order 2 .accepted :: (r.1 ++ cancelled)

/-- What a fill says of its trade. -/
def tradeText [Arithmetic] (t : VenueTrade) : String × String :=
  (quantizeQty t.amount, quantizePrice t.price)

def fillTexts (events : List OrderEvent) : List (String × String) :=
  events.filterMap fun e => e.body.fill?.map fun f => (f.fillQty, f.fillPrice)

/-- One fill for each trade. -/
theorem fillTexts_tradeEvents [Arithmetic] {order : Order} {seq : ℕ} {cum : ℚ} {trades : List VenueTrade}
    {r : List OrderEvent × ℚ} (h : tradeEvents order seq cum trades = .ok r) :
    fillTexts r.1 = trades.map tradeText := by
  induction trades generalizing seq cum r with
  | nil =>
      cases h
      rfl
  | cons t rest ih =>
      unfold tradeEvents at h
      dsimp only at h
      split at h
      · cases h
      · obtain ⟨r', hrest, rfl⟩ := map_eq_ok.mp h
        have hfill : ∀ (p : Prop) [Decidable p] (fill : OrderFillData),
            (if p then OrderEventBody.filled fill else .partiallyFilled fill).fill? = some fill := by
          intro p _ fill
          split <;> rfl
        rw [List.map_cons, ← ih hrest]
        unfold fillTexts
        rw [List.filterMap_cons_some]
        show Option.map _ (OrderEventBody.fill? (if _ then _ else _)) = _
        rw [hfill]
        rfl

/-- The fills of a stream are the trades of its outcome; a rejected order has none. -/
theorem fillTexts_buildEvents [Arithmetic] {order : Order} {outcome : VenueOrderOutcome}
    {events : List OrderEvent}
    (h : buildEvents order outcome = .ok events) :
    fillTexts events =
      if outcome.orderState = "rejected" then [] else outcome.trades.map tradeText := by
  unfold buildEvents at h
  dsimp only at h
  split at h
  · rename_i hrejected
    cases h
    rw [if_pos hrejected]
    rfl
  · rename_i hrejected
    obtain ⟨r, hr, rfl⟩ := map_eq_ok.mp h
    have hcancelled : ∀ (p : Prop) [Decidable p] (reason : String),
        fillTexts (if p then [] else [baseEvent order (3 + outcome.trades.length)
          (.cancelled reason)]) = [] := by
      intro p _ reason
      split <;> rfl
    rw [if_neg hrejected, ← fillTexts_tradeEvents hr]
    show fillTexts (r.1 ++ _) = _
    unfold fillTexts at hcancelled ⊢
    rw [List.filterMap_append, hcancelled, List.append_nil]

/-! ## What the venue writes -/

def tradeJson (t : VenueTrade) : JsValue :=
  .obj [("amount", .num (.fin t.amount)), ("price", .num (.fin t.price)),
    ("trade_seq", .num (.fin t.seq))]

def orderJson (orderState venueOrderId : String) : JsValue :=
  .obj [("order_state", .str orderState), ("order_id", .str venueOrderId)]

theorem parseTradeItems_tradeJson {endpoint : String} {i : ℕ} {trades parsed : List VenueTrade}
    (h : parseTradeItems endpoint i (trades.map tradeJson) = .ok parsed) : parsed = trades := by
  induction trades generalizing i parsed with
  | nil =>
      cases h
      rfl
  | cons t rest ih =>
      have hamount : (tradeJson t).field "amount" = .num (.fin t.amount) := rfl
      have hprice : (tradeJson t).field "price" = .num (.fin t.price) := rfl
      have hseq : (tradeJson t).field "trade_seq" = .num (.fin t.seq) := rfl
      rw [List.map_cons, parseTradeItems, hamount, hprice, hseq] at h
      split at h
      · rename_i amount price ha hp
        obtain ⟨parsed', hrest, rfl⟩ := map_eq_ok.mp h
        unfold JsValue.finitePositive at ha hp
        dsimp only at ha hp
        split at ha
        · split at hp
          · cases ha
            cases hp
            rw [ih hrest]
          · cases hp
        · cases ha
      · cases h

/-- The trades that are read are those that were written, in the order of their numbers. -/
theorem parseTrades_tradeJson {endpoint : String} {trades parsed : List VenueTrade}
    (h : parseTrades (.arr (trades.map tradeJson)) endpoint = .ok parsed) :
    parsed = sortTrades trades := by
  obtain ⟨items, hitems, rfl⟩ := map_eq_ok.mp h
  rw [parseTradeItems_tradeJson hitems]

theorem readOrder_orderJson {orderState venueOrderId : String} {r : String × String}
    (h : readOrder (orderJson orderState venueOrderId) = some r) :
    r = (orderState, venueOrderId) := by
  have hstate : (orderJson orderState venueOrderId).field "order_state" = .str orderState := rfl
  have hid : (orderJson orderState venueOrderId).field "order_id" = .str venueOrderId := rfl
  unfold readOrder at h
  rw [hstate, hid] at h
  dsimp only [JsValue.stringOrEmpty] at h
  split at h
  · cases h
  · exact (Option.some.inj h).symm

/-! ## A payload that cannot be read is no error of the venue -/

theorem parseTrades_error {raw : JsValue} {endpoint : String} {e : DeribitOrderError}
    (h : parseTrades raw endpoint = .error e) : e.rpcCode = none := by
  have hitems : ∀ (items : List JsValue) (i : ℕ) (e : DeribitOrderError),
      parseTradeItems endpoint i items = .error e → e.rpcCode = none := by
    intro items
    induction items with
    | nil => exact fun i e h => nomatch h
    | cons raw rest ih =>
        intro i e h
        unfold parseTradeItems at h
        split at h
        · exact ih _ _ (map_eq_error.mp h)
        · cases h
          rfl
  unfold parseTrades at h
  split at h
  · exact hitems _ _ _ (map_eq_error.mp h)
  · cases h

theorem parseOrderOutcome_error {raw : JsValue} {endpoint : String} {e : DeribitOrderError}
    (h : parseOrderOutcome raw endpoint = .error e) : e.rpcCode = none := by
  unfold parseOrderOutcome at h
  split at h
  · cases h
    rfl
  · exact parseTrades_error (map_eq_error.mp h)

theorem tradeEvents_error [Arithmetic] {order : Order} {seq : ℕ} {cum : ℚ} {trades : List VenueTrade}
    {e : DeribitOrderError} (h : tradeEvents order seq cum trades = .error e) : e.rpcCode = none := by
  induction trades generalizing seq cum with
  | nil => cases h
  | cons t rest ih =>
      unfold tradeEvents at h
      dsimp only at h
      split at h
      · cases h
        rfl
      · exact ih (map_eq_error.mp h)

theorem buildEvents_error [Arithmetic] {order : Order} {outcome : VenueOrderOutcome} {e : DeribitOrderError}
    (h : buildEvents order outcome = .error e) : e.rpcCode = none := by
  unfold buildEvents at h
  dsimp only at h
  split at h
  · cases h
  · exact tradeEvents_error (map_eq_error.mp h)

end NexusQuant.Market
