import NexusQuant.Lib.Run
import NexusQuant.Market.DeribitPayload

/-!
# The order transport and the venue

`DeribitOrderTransport` of `market/deribit-order-transport.ts` against a venue.  Every remote call
has a fate: its request is lost, held up in the network or received, and the reply arrives or does
not.  The venue executes an order it receives, once, and keeps it under its label.  A request that is
held up arrives between two calls of `place`, or never; that it arrived earlier or later within one
call would show nowhere else.  The log lines are left out.
-/

namespace NexusQuant.Market

open Execution

/-! ## The venue -/

/-- An order at the venue, with the number of the `place` call its request came from. -/
structure VenueOrder where
  id : ℕ
  label : String
  call : ℕ
  state : String
  trades : List VenueTrade
deriving DecidableEq, Repr

/-- An order request that is held up. -/
structure OrderRequest where
  call : ℕ
  label : String
deriving DecidableEq, Repr

structure Venue where
  orders : List VenueOrder
  inFlight : List OrderRequest
deriving DecidableEq, Repr

inductive VenueRequest where
  | getInstrument (name : String)
  | auth
  | place (side : OrderSide) (instrument : String) (amount : ℚ) (label : String)
  | orderStateByLabel (currency label : String)
  | tradesByOrder (venueOrderId : String)
  | cancel (venueOrderId : String)
deriving DecidableEq, Repr

def VenueRequest.method : VenueRequest → String
  | .getInstrument _ => "public/get_instrument"
  | .auth => "public/auth"
  | .place .buy _ _ _ => "private/buy"
  | .place .sell _ _ _ => "private/sell"
  | .orderStateByLabel _ _ => "private/get_order_state_by_label"
  | .tradesByOrder _ => "private/get_user_trades_by_order"
  | .cancel _ => "private/cancel"

inductive Arrival where
  | lost | heldUp | received
deriving DecidableEq, Repr

/-- What becomes of one remote call. -/
structure Fate where
  arrival : Arrival
  /-- The venue refuses the request, with a code. -/
  refusal : Option (ℤ × String)
  /-- The failure that is met in place of a reply: a timeout, a fault of the network, a reply that is
  none of the protocol. -/
  failure : Option String
  /-- The answer of a public method. -/
  answer : JsValue
  /-- What executing an order comes to. -/
  orderState : String
  trades : List VenueTrade
  /-- What an open order trades before it is cancelled. -/
  meanwhile : List VenueTrade
  /-- The order in which the orders under a label are listed. -/
  listing : List VenueOrder → List VenueOrder
  listing_perm : ∀ orders, (listing orders).Perm orders

/-- The surroundings: the fate of the `n`-th remote call, the clock before and after it, and how the
venue names its orders. -/
structure VenueWorld where
  fate : ℕ → Fate
  clockBefore : ℕ → JsNumber
  clockAfter : ℕ → JsNumber
  idText : ℕ → String
  idText_injective : Function.Injective idText

/-- A rejected order has no trades. -/
def tradesOf (state : String) (trades : List VenueTrade) : List VenueTrade :=
  if state = "rejected" then [] else trades

def Venue.accept (v : Venue) (call : ℕ) (label state : String) (trades : List VenueTrade) : Venue :=
  { v with orders := v.orders ++ [⟨v.orders.length, label, call, state, tradesOf state trades⟩] }

/-- An open order trades on. -/
def VenueOrder.tradeOn (o : VenueOrder) (trades : List VenueTrade) : VenueOrder :=
  if o.state = "open" then { o with trades := o.trades ++ trades } else o

def VenueOrder.close (o : VenueOrder) : VenueOrder :=
  if o.state = "open" then { o with state := "cancelled" } else o

def Venue.update (v : Venue) (id : ℕ) (f : VenueOrder → VenueOrder) : Venue :=
  { v with orders := v.orders.map fun o => if o.id = id then f o else o }

/-- What a request that is held up leaves: an order request arrives later, or never. -/
def Venue.hold (v : Venue) (call : ℕ) : VenueRequest → Venue
  | .place _ _ _ label => { v with inFlight := v.inFlight ++ [⟨call, label⟩] }
  | _ => v

section Answers

variable (world : VenueWorld)

def Venue.find? (v : Venue) (venueOrderId : String) : Option VenueOrder :=
  v.orders.find? fun o => world.idText o.id = venueOrderId

/-- What the venue makes of a request it has received; an error is a refusal. -/
def Venue.receive (v : Venue) (call : ℕ) (fate : Fate) (request : VenueRequest) :
    Except (ℤ × String) JsValue × Venue :=
  match request with
  | .getInstrument _ | .auth =>
      match fate.refusal with
      | some refusal => (.error refusal, v)
      | none => (.ok fate.answer, v)
  | .place _ _ _ label =>
      match fate.refusal with
      | some refusal => (.error refusal, v)
      | none =>
          (.ok (.obj [("order", orderJson fate.orderState (world.idText v.orders.length)),
            ("trades", .arr ((tradesOf fate.orderState fate.trades).map tradeJson))]),
            v.accept call label fate.orderState fate.trades)
  | .orderStateByLabel _ label =>
      match fate.refusal with
      | some refusal => (.error refusal, v)
      | none =>
          (.ok (.arr ((fate.listing (v.orders.filter fun o => o.label = label)).map fun o =>
            orderJson o.state (world.idText o.id))), v)
  | .tradesByOrder venueOrderId =>
      match fate.refusal, v.find? world venueOrderId with
      | some refusal, _ => (.error refusal, v)
      | none, some o => (.ok (.arr (o.trades.map tradeJson)), v)
      | none, none => (.error (10004, "order_not_found"), v)
  | .cancel venueOrderId =>
      match v.find? world venueOrderId with
      | none => (.error (10004, "order_not_found"), v)
      | some o =>
          -- The order trades on until the cancellation reaches it, whether or not it is refused.
          let traded := v.update o.id fun o => o.tradeOn fate.meanwhile
          match fate.refusal with
          | some refusal => (.error refusal, traded)
          | none =>
              if o.state = "open" then
                (.ok (orderJson "cancelled" venueOrderId), traded.update o.id VenueOrder.close)
              else (.error (11044, "not_open_order"), traded)

end Answers

/-! ## The transport -/

/-- Where a `place` that throws was. -/
inductive PlaceSite where
  | routing | placement | emptyLookup | unknown | cancel | stream
deriving DecidableEq, Repr

inductive PlaceEnd where
  | stream (events : List OrderEvent)
  | threw (site : PlaceSite) (error : DeribitOrderError)
deriving DecidableEq, Repr

structure TransportConfig where
  instrumentMap : Dict String

/-- The transport, the venue, and how the calls so far have ended; the current call has the number
`history.length`. -/
structure TransportState where
  accessToken : Option String
  tokenExpiresAt : JsNumber
  rpcId : ℕ
  instrumentCache : Dict VenueInstrument
  venue : Venue
  history : List PlaceEnd

/-- A call that may throw, and the state it leaves. -/
abbrev Remote (α : Type) := Except DeribitOrderError α × TransportState

/-- `TOKEN_REFRESH_MARGIN_MS`. -/
def tokenRefreshMarginMs : ℚ := 60000

/-- `RPC_UNAUTHORIZED`. -/
def rpcUnauthorized : ℤ := 13009

section Transport

variable (cfg : TransportConfig) (world : VenueWorld)

def rpc (request : VenueRequest) (s : TransportState) : Remote JsValue :=
  let n := s.rpcId + 1
  let fate := world.fate n
  let failed := fun message : String =>
    Except.error (DeribitOrderError.mk message request.method none)
  let noReply := fate.failure.getD ("transport failure calling " ++ request.method)
  match fate.arrival with
  | .lost => (failed noReply, { s with rpcId := n })
  | .heldUp =>
      (failed noReply, { s with rpcId := n, venue := s.venue.hold s.history.length request })
  | .received =>
      let r := s.venue.receive world s.history.length fate request
      let s := { s with rpcId := n, venue := r.2 }
      match fate.failure with
      | some message => (failed message, s)
      | none =>
          match r.1 with
          | .ok v => (.ok v, s)
          | .error (code, message) =>
              (.error ⟨"venue error " ++ toString code ++ " on " ++ request.method ++ ": " ++ message,
                request.method, some code⟩, s)

/-- `token()`, without the value of the token, which only the venue reads. -/
def token (s : TransportState) : Remote Unit :=
  if s.accessToken.isSome ∧
      JsNumber.lt (world.clockBefore s.rpcId) (s.tokenExpiresAt - .fin tokenRefreshMarginMs) then
    (.ok (), s)
  else
    match rpc world .auth s with
    | (.error e, s) => (.error e, s)
    | (.ok result, s) =>
        let token := (result.field "access_token").stringOrEmpty
        match (result.field "expires_in").finitePositive with
        | some expiresIn =>
            if token = "" then
              (.error ⟨"auth succeeded but returned no usable token (fail-closed)", "public/auth",
                none⟩, s)
            else
              (.ok (), { s with
                accessToken := some token
                tokenExpiresAt := world.clockAfter s.rpcId + .fin (expiresIn * 1000) })
        | none =>
            (.error ⟨"auth succeeded but returned no usable token (fail-closed)", "public/auth",
              none⟩, s)

/-- A private call under the token. -/
def authorizedRpc (request : VenueRequest) (s : TransportState) : Remote JsValue :=
  match token world s with
  | (.error e, s) => (.error e, s)
  | (.ok _, s) => rpc world request s

/-- With one retry under a new token. -/
def privateRpc (request : VenueRequest) (s : TransportState) : Remote JsValue :=
  match authorizedRpc world request s with
  | (.error e, s) =>
      if e.rpcCode = some rpcUnauthorized then
        authorizedRpc world request { s with accessToken := none }
      else (.error e, s)
  | r => r

def mapSymbol (symbol : String) : Except DeribitOrderError String :=
  match cfg.instrumentMap.get? symbol with
  | some instrument =>
      if instrument = "" then .error (unmapped symbol) else .ok instrument
  | none => .error (unmapped symbol)
where
  unmapped (symbol : String) : DeribitOrderError :=
    ⟨"no Deribit instrument mapped for canonical symbol " ++ symbol ++
      " — refusing to route (fail-closed)", "instrument-map", none⟩

def instrument (name : String) (s : TransportState) : Remote VenueInstrument :=
  match s.instrumentCache.get? name with
  | some cached => (.ok cached, s)
  | none =>
      match rpc world (.getInstrument name) s with
      | (.error e, s) => (.error e, s)
      | (.ok raw, s) =>
          match parseInstrument name raw with
          | .error e => (.error e, s)
          | .ok resolved =>
              (.ok resolved, { s with instrumentCache := s.instrumentCache.set name resolved })

def venueLabel (orderId : String) : String := "nx-" ++ orderId

/-- The instrument and the amount of an order, before anything is asked of the order book. -/
def routeOrder (order : Order) (s : TransportState) : Remote (VenueInstrument × ℚ) :=
  match mapSymbol cfg order.symbol with
  | .error e => (.error e, s)
  | .ok name =>
      match instrument world name s with
      | (.error e, s) => (.error e, s)
      | (.ok instrument, s) => ((sizeOrder order instrument).map fun amount => (instrument, amount), s)

/-- The placement: the first `try` of `place`. -/
def submitOrder (order : Order) (instrument : VenueInstrument) (amount : ℚ) (s : TransportState) :
    Remote VenueOrderOutcome :=
  let request :=
    VenueRequest.place order.side instrument.instrumentName amount (venueLabel order.orderId)
  match privateRpc world request s with
  | (.error e, s) => (.error e, s)
  | (.ok result, s) => (parseOrderOutcome result request.method, s)

/-- The orders under the label of an order. -/
def lookUp (order : Order) (instrument : VenueInstrument) (s : TransportState) : Remote JsValue :=
  privateRpc world
    (.orderStateByLabel instrument.settlementCurrency (venueLabel order.orderId)) s

/-- The first order of a listing. -/
def firstListed (listing : JsValue) : Option JsValue :=
  match listing with
  | .arr (first :: _) => some first
  | _ => none

def recoverByLabel (order : Order) (instrument : VenueInstrument) (s : TransportState) :
    Remote (Option VenueOrderOutcome) :=
  match lookUp world order instrument s with
  | (.error e, s) => (.error e, s)
  | (.ok listing, s) =>
      match firstListed listing with
      | none => (.ok none, s)
      | some first =>
          match readOrder first with
          | none =>
              (.error ⟨"recovery lookup returned a malformed order payload (fail-closed)",
                "private/get_order_state_by_label", none⟩, s)
          | some (orderState, venueOrderId) =>
              match privateRpc world (.tradesByOrder venueOrderId) s with
              | (.error e, s) => (.error e, s)
              | (.ok raw, s) =>
                  ((parseTrades raw "private/get_user_trades_by_order").map fun trades =>
                    some ⟨orderState, venueOrderId, trades⟩, s)

/-- What `place` knows of the order before it builds the stream. -/
inductive Settled where
  | outcome (outcome : VenueOrderOutcome)
  | failed (site : PlaceSite) (error : DeribitOrderError)

def settleOrder (order : Order) (s : TransportState) : Settled × TransportState :=
  match routeOrder cfg world order s with
  | (.error e, s) => (.failed .routing e, s)
  | (.ok (instrument, amount), s) =>
      match submitOrder world order instrument amount s with
      | (.ok outcome, s) => (.outcome outcome, s)
      | (.error e, s) =>
          -- An error of the venue is a refusal; anything else leaves the placement in doubt.
          if e.rpcCode.isSome then (.failed .placement e, s)
          else
            match recoverByLabel world order instrument s with
            | (.error _, s) => (.failed .unknown e, s)
            | (.ok none, s) => (.failed .emptyLookup e, s)
            | (.ok (some outcome), s) => (.outcome outcome, s)

def streamOf (order : Order) (outcome : VenueOrderOutcome) : PlaceEnd :=
  match buildEvents order outcome with
  | .ok events => .stream events
  | .error e => .threw .stream e

/-- An order that is still open is cancelled first. -/
def finishOrder (order : Order) (outcome : VenueOrderOutcome) (s : TransportState) :
    PlaceEnd × TransportState :=
  if outcome.orderState = "open" then
    match privateRpc world (.cancel outcome.venueOrderId) s with
    | (.error e, s) => (.threw .cancel e, s)
    | (.ok _, s) => (streamOf order { outcome with orderState := "cancelled" }, s)
  else (streamOf order outcome, s)

def place (order : Order) (s : TransportState) : PlaceEnd × TransportState :=
  match settleOrder cfg world order s with
  | (.failed site e, s) => (.threw site e, s)
  | (.outcome outcome, s) => finishOrder world order outcome s

end Transport

/-! ## Runs -/

/-- Between two calls: a request that was held up arrives, or an open order trades on and may end. -/
inductive VenueMove where
  | arrive (request : ℕ) (state : String) (trades : List VenueTrade)
  | trade (id : ℕ) (state : String) (trades : List VenueTrade)

def Venue.move (v : Venue) : VenueMove → Venue
  | .arrive i state trades =>
      match v.inFlight[i]? with
      | some request =>
          { v with inFlight := v.inFlight.eraseIdx i }.accept request.call request.label state trades
      | none => v
  | .trade id state trades =>
      v.update id fun o =>
        -- What has been open is not rejected afterwards.
        if o.state = "open" ∧ state ≠ "rejected" then
          { o with state, trades := o.trades ++ trades }
        else o

inductive TransportEvent where
  | call (order : Order)
  | move (m : VenueMove)

def transportStep (cfg : TransportConfig) (world : VenueWorld) (s : TransportState) :
    TransportEvent → TransportState
  | .call order =>
      let r := place cfg world order s
      { r.2 with history := s.history ++ [r.1] }
  | .move m => { s with venue := s.venue.move m }

def newTransport : TransportState where
  accessToken := none
  tokenExpiresAt := .fin 0
  rpcId := 0
  instrumentCache := []
  venue := ⟨[], []⟩
  history := []

end NexusQuant.Market
