import NexusQuant.Ingestion.Candles
import NexusQuant.Lib.Json
import NexusQuant.Lib.JsValue
import NexusQuant.Lib.Run

/-!
# Live sockets

`streamLive` of the two connectors: a subscription that outlives its sockets.  A socket that closes is
replaced after a delay which doubles from one failure to the next, until the client closes the
subscription.  A socket reports that it is open at most once, then messages, and that it is closed last
of all; everything else is refused here as an event that no socket makes.
-/

namespace NexusQuant.Ingestion

/-- `WS_RECONNECT_MIN_MS`. -/
def wsReconnectMinMs : ℕ := 1000

/-- `WS_RECONNECT_MAX_MS`. -/
def wsReconnectMaxMs : ℕ := 60000

/-- `readyState`. -/
inductive SocketPhase where
  | connecting
  | open
  | closing
  | closed
deriving DecidableEq, Repr

structure Rpc where
  method : String
  params : Json

structure Frame where
  socket : ℕ
  id : ℕ
  rpc : Rpc

/-- What a message comes to. -/
inductive Reaction where
  | ignore
  | reply (rpc : Rpc)
  | data (channel : String) (data : JsValue)
  | rpcError (code message : JsValue)
  | error (message : String)

/-- A call of one of the handlers of the client. -/
inductive HandlerCall where
  | connected
  | disconnected (code : ℕ)
  | data (channel : String) (data : JsValue)
  | rpcError (code message : JsValue)
  | error (message : String)

/-- What the connectors do differently: what they send on a new socket, and how they read a message,
`none` being one that is no JSON. -/
structure StreamProtocol where
  onOpen : List Rpc
  handleMessage : Option JsValue → Reaction

structure StreamState where
  /-- The sockets in the order they were made in. -/
  sockets : List SocketPhase
  ws : Option ℕ
  closed : Bool
  reconnectDelayMs : ℕ
  /-- The delay of the timer that is armed. -/
  reconnectTimer : Option ℕ
  rpcId : ℕ
  /-- Whether the caller has its subscription yet. -/
  resolved : Bool
  /-- The sockets whose `close` listeners were removed. -/
  deaf : List ℕ
  sent : List Frame
  calls : List HandlerCall

inductive StreamEvent where
  | opened (socket : ℕ)
  | message (socket : ℕ) (text : Option JsValue)
  | errored (socket : ℕ) (message : String)
  | ended (socket : ℕ) (code : ℕ)
  | timer
  | close

namespace StreamState

variable (p : StreamProtocol) (s : StreamState)

/-- Nothing is sent but on the current socket, and when that is open. -/
def send (rpc : Rpc) : StreamState :=
  match s.ws with
  | none => s
  | some socket =>
      if s.sockets[socket]? = some .open then
        { s with sent := s.sent ++ [⟨socket, s.rpcId, rpc⟩], rpcId := s.rpcId + 1 }
      else s

def call (c : HandlerCall) : StreamState := { s with calls := s.calls ++ [c] }

def setPhase (socket : ℕ) (phase : SocketPhase) : StreamState :=
  { s with sockets := s.sockets.set socket phase }

def scheduleReconnect : StreamState :=
  if s.closed then s
  else
    { s with
      reconnectDelayMs := min (s.reconnectDelayMs * 2) wsReconnectMaxMs
      reconnectTimer := some s.reconnectDelayMs }

def connect : StreamState :=
  if s.closed then s
  else { s with sockets := s.sockets ++ [.connecting], ws := some s.sockets.length }

def onOpen : StreamState :=
  { (p.onOpen.foldl send { s with reconnectDelayMs := wsReconnectMinMs }).call .connected with
    resolved := true }

def onMessage (text : Option JsValue) : StreamState :=
  match p.handleMessage text with
  | .ignore => s
  | .reply rpc => s.send rpc
  | .data channel data => s.call (.data channel data)
  | .rpcError code message => s.call (.rpcError code message)
  | .error message => s.call (.error message)

/-- A socket that is still connecting is aborted, and one that is open closes after its peer has
answered. -/
def closeSocket (socket : ℕ) : StreamState :=
  if s.sockets[socket]? = some .closed then s else s.setPhase socket .closing

/-- `close` of the subscription. -/
def close : StreamState :=
  let s := { s with closed := true, reconnectTimer := none }
  match s.ws with
  | none => s
  | some socket => { ({ s with deaf := s.deaf ++ [socket] }.closeSocket socket) with ws := none }

end StreamState

open StreamState

/-- `streamLive`, up to the first socket. -/
def StreamState.initial : StreamState where
  sockets := [.connecting]
  ws := some 0
  closed := false
  reconnectDelayMs := wsReconnectMinMs
  reconnectTimer := none
  rpcId := 1
  resolved := false
  deaf := []
  sent := []
  calls := []

def streamStep (p : StreamProtocol) (s : StreamState) : StreamEvent → StreamState
  | .opened socket =>
      if s.sockets[socket]? = some .connecting then (s.setPhase socket .open).onOpen p else s
  | .message socket text =>
      if s.sockets[socket]? = some .open ∨ s.sockets[socket]? = some .closing then s.onMessage p text
      else s
  | .errored socket message =>
      if s.sockets[socket]? = none ∨ s.sockets[socket]? = some .closed then s
      else s.call (.error message)
  | .ended socket code =>
      if s.sockets[socket]? = none ∨ s.sockets[socket]? = some .closed then s
      else
        let s := s.setPhase socket .closed
        if socket ∈ s.deaf then s else (s.call (.disconnected code)).scheduleReconnect
  | .timer =>
      if s.reconnectTimer.isSome then { s with reconnectTimer := none }.connect else s
  | .close => if s.resolved then s.close else s

/-! ## The connectors -/

structure StreamSymbol where
  symbol : String
  assetType : AssetType
deriving DecidableEq, Repr

/-- The handlers the client has set that a venue is asked for more for. -/
structure StreamWants where
  onQuote : Bool
  onTrade : Bool
  onFunding : Bool
deriving DecidableEq, Repr

namespace Deribit

inductive ChannelKind where
  | candle | ticker | trades
deriving DecidableEq, Repr

structure ChannelInfo where
  symbol : String
  assetType : AssetType
  kind : ChannelKind
deriving DecidableEq, Repr

/-- `WS_HEARTBEAT_INTERVAL_S`. -/
def wsHeartbeatIntervalS : ℤ := 30

/-- The channels of a symbol, none for one that is not streamed. -/
def symbolChannels (timeframe : Timeframe) (wants : StreamWants) (s : StreamSymbol) :
    List (String × ChannelInfo) :=
  if s.assetType = .spot then []
  else
    match perpInstruments.get? s.symbol with
    | none => []
    | some instrument =>
        [("chart.trades." ++ instrument ++ "." ++ resolution timeframe,
            ⟨s.symbol, s.assetType, .candle⟩)] ++
          (if wants.onQuote ∨ wants.onFunding then
            [("ticker." ++ instrument ++ ".100ms", ⟨s.symbol, s.assetType, .ticker⟩)] else []) ++
          (if wants.onTrade then
            [("trades." ++ instrument ++ ".100ms", ⟨s.symbol, s.assetType, .trades⟩)] else [])

def channelMeta (timeframe : Timeframe) (wants : StreamWants) (symbols : List StreamSymbol) :
    Dict ChannelInfo :=
  (symbols.flatMap (symbolChannels timeframe wants)).foldl (fun d c => d.set c.1 c.2) []

def handleMessage (channels : Dict ChannelInfo) : Option JsValue → Reaction
  | none => .ignore
  | some msg =>
      match msg.member "method" with
      | .error e => .error e
      | .ok (.str "heartbeat") =>
          match (msg.field "params").field "type" with
          -- Without the answer the venue drops the connection.
          | .str "test_request" => .reply ⟨"public/test", .obj []⟩
          | _ => .ignore
      | .ok (.str "subscription") =>
          match (msg.field "params").field "channel", (msg.field "params").field "data" with
          | .str channel, data =>
              match data, channels.get? channel with
              | .undefined, _ => .ignore
              | _, none => .ignore
              | data, some _ => .data channel data
          | _, _ => .ignore
      | .ok _ =>
          match msg.field "error" with
          | .undefined => .ignore
          | .null => .error "Cannot read properties of null (reading 'code')"
          | error => .rpcError (error.field "code") (error.field "message")

def protocol (channels : Dict ChannelInfo) : StreamProtocol where
  onOpen :=
    [⟨"public/set_heartbeat", .obj [("interval", .num wsHeartbeatIntervalS)]⟩,
      ⟨"public/subscribe", .obj [("channels", .arr (channels.keys.map .str))]⟩]
  handleMessage := handleMessage channels

/-- The protocol of a request, which throws when nothing of it can be streamed. -/
def streamLive (timeframe : Timeframe) (wants : StreamWants) (symbols : List StreamSymbol) :
    Except ConnectorError StreamProtocol :=
  let channels := channelMeta timeframe wants symbols
  if channels.length = 0 then .error (.api "no streamable symbols for deribit live stream" "ws")
  else .ok (protocol channels)

end Deribit

namespace Binance

/-- The streams of a symbol. -/
def symbolStreams (timeframe : Timeframe) (wants : StreamWants) (s : StreamSymbol) : List String :=
  if s.assetType = .spot then []
  else
    match perpSymbols.get? s.symbol with
    | none => []
    | some native =>
        let lower := native.toLower
        [lower ++ "@kline_" ++ interval timeframe] ++
          (if wants.onTrade then [lower ++ "@aggTrade"] else []) ++
          (if wants.onQuote then [lower ++ "@bookTicker"] else []) ++
          (if wants.onQuote ∨ wants.onFunding then [lower ++ "@markPrice@1s"] else [])

/-- The envelope of a combined stream. -/
def handleMessage : Option JsValue → Reaction
  | none => .ignore
  | some msg =>
      match msg.member "data" with
      | .error e => .error e
      | .ok (.obj members) => .data "" (.obj members)
      | .ok (.arr items) => .data "" (.arr items)
      | .ok _ => .ignore

/-- The streams are named in the address, so that nothing is sent. -/
def protocol : StreamProtocol where
  onOpen := []
  handleMessage := handleMessage

def streamLive (timeframe : Timeframe) (wants : StreamWants) (symbols : List StreamSymbol) :
    Except ConnectorError (List String × StreamProtocol) :=
  let streams := symbols.flatMap (symbolStreams timeframe wants)
  if streams.length = 0 then .error (.api "no streamable symbols for binance live stream" "ws")
  else .ok (streams, protocol)

end Binance

end NexusQuant.Ingestion
