import NexusQuant.Ingestion.Types
import NexusQuant.Lib.LiveMap
import NexusQuant.Lib.Run
import NexusQuant.Lib.Slots

/-!
# The buffers of the live stream

`onTrade`, `onQuote`, `onFunding`, `flushTicks`, `flushQuotes` and `stop` of
`services/ingestion/src/pipeline/live.ts`.  A flush loops over a `Map` that the callbacks go on
writing to while it awaits the database, any number of flushes overlap, and `stop` runs one of each
kind after the stream is closed.  Persisting and publishing do not fail.

`received`, `handed` and `persisted` keep what came in, what was passed to an upsert and the rows of
the upserts that completed.
-/

namespace NexusQuant.Ingestion

open Run

/-- What the callbacks deliver of one kind, and how far it has come. -/
structure Deliveries (α : Type*) where
  received : List α
  handed : List α
  persisted : List α
deriving DecidableEq, Repr

namespace Deliveries

variable {α : Type*}

def receive (d : Deliveries α) (a : α) : Deliveries α := { d with received := d.received ++ [a] }

def hand (d : Deliveries α) (batch : List α) : Deliveries α := { d with handed := d.handed ++ batch }

def persist (d : Deliveries α) (batch : List α) : Deliveries α :=
  { d with persisted := d.persisted ++ batch }

end Deliveries

/-- A flush of the ticks that awaits the upsert of a batch, or its announcement.  `pos` is where its
loop over the buffers goes on; the last one is that of `stop`. -/
structure TickFlush where
  final : Bool
  pos : ℕ
  batch : List NormalizedTick
  upserted : Bool
deriving DecidableEq, Repr

inductive QuoteStage where
  | upserting (quote : NormalizedQuote)
  | publishing (quote : NormalizedQuote)
  | funding (rates : List NormalizedFundingRate)
deriving DecidableEq, Repr

structure QuoteFlush where
  final : Bool
  pos : ℕ
  stage : QuoteStage
deriving DecidableEq, Repr

/-- What `stop` awaits. -/
inductive StopStage where
  | running | closing | drainingTicks | ticksDrained | drainingQuotes | quotesDrained | resolved
deriving DecidableEq, Repr

structure LiveBuffers where
  tickBuffer : LiveMap String (List NormalizedTick)
  latestQuote : LiveMap String NormalizedQuote
  latestFunding : LiveMap String NormalizedFundingRate
  /-- Whether the stream is still delivering. -/
  «open» : Bool
  stop : StopStage
  tickFlushes : List TickFlush
  quoteFlushes : List QuoteFlush
  ticks : Deliveries NormalizedTick
  quotes : Deliveries NormalizedQuote
  funding : Deliveries NormalizedFundingRate
deriving DecidableEq, Repr

inductive BufferStep where
  | onTrade (tick : NormalizedTick)
  | onQuote (quote : NormalizedQuote)
  | onFunding (rate : NormalizedFundingRate)
  | tickTimer
  | quoteTimer
  /-- What a flush awaits happens. -/
  | tickFlush (i : ℕ)
  | quoteFlush (i : ℕ)
  /-- The timers are cleared and the stream is told to close; a second call returns at once. -/
  | stop
  /-- What `stop` itself awaits happens: the stream closes, a drain settles, the heartbeat is written. -/
  | stopping
deriving DecidableEq, Repr

namespace LiveBuffers

def initial : LiveBuffers :=
  ⟨.empty, .empty, .empty, true, .running, [], [], ⟨[], [], []⟩, ⟨[], [], []⟩, ⟨[], [], []⟩⟩

variable (s : LiveBuffers)

def onTrade (tick : NormalizedTick) : LiveBuffers :=
  { s with
    tickBuffer := s.tickBuffer.set tick.symbol ((s.tickBuffer.get? tick.symbol).getD [] ++ [tick])
    ticks := s.ticks.receive tick }

def onQuote (quote : NormalizedQuote) : LiveBuffers :=
  { s with
    latestQuote := s.latestQuote.set quote.symbol quote
    quotes := s.quotes.receive quote }

def onFunding (rate : NormalizedFundingRate) : LiveBuffers :=
  { s with
    latestFunding := s.latestFunding.set rate.symbol rate
    funding := s.funding.receive rate }

/-- The loop of `flushTicks` from `pos` to its next await.  Empty buffers are passed over. -/
def flushTicks (final : Bool) (pos : ℕ) : LiveBuffers :=
  match s.tickBuffer.nextWhere (fun buf => !buf.isEmpty) pos with
  | some c => { s with
      tickBuffer := s.tickBuffer.set c.key []
      tickFlushes := s.tickFlushes ++ [⟨final, c.index + 1, c.value, false⟩]
      ticks := s.ticks.hand c.value }
  | none => { s with stop := if final then .ticksDrained else s.stop }

/-- A flush of the quotes settles. -/
def quotesFlushed (final : Bool) : LiveBuffers :=
  { s with stop := if final then .quotesDrained else s.stop }

/-- What `flushQuotes` does after its loop. -/
def clearQuotes : LiveBuffers :=
  { s with latestQuote := s.latestQuote.clear, latestFunding := s.latestFunding.clear }

/-- The loop of `flushQuotes` from `pos` to its next await, and what follows the loop. -/
def flushQuotes (final : Bool) (pos : ℕ) : LiveBuffers :=
  match s.latestQuote.nextCell pos with
  | some c => { s with
      quoteFlushes := s.quoteFlushes ++ [⟨final, c.index + 1, .upserting c.value⟩]
      quotes := s.quotes.hand [c.value] }
  | none =>
      if s.latestFunding.values = [] then s.clearQuotes.quotesFlushed final
      else { s.clearQuotes with
        quoteFlushes := s.quoteFlushes ++ [⟨final, pos, .funding s.latestFunding.values⟩]
        funding := s.funding.hand s.latestFunding.values }

def stepTickFlush (i : ℕ) : LiveBuffers :=
  match s.tickFlushes[i]? with
  | none => s
  | some ⟨final, pos, batch, false⟩ => { s with
      tickFlushes := s.tickFlushes.set i ⟨final, pos, batch, true⟩
      ticks := s.ticks.persist batch }
  | some ⟨final, pos, _, true⟩ =>
      flushTicks { s with tickFlushes := s.tickFlushes.eraseIdx i } final pos

def stepQuoteFlush (i : ℕ) : LiveBuffers :=
  match s.quoteFlushes[i]? with
  | none => s
  | some ⟨final, pos, .upserting quote⟩ => { s with
      quoteFlushes := s.quoteFlushes.set i ⟨final, pos, .publishing quote⟩
      quotes := s.quotes.persist [quote] }
  | some ⟨final, pos, .publishing _⟩ =>
      flushQuotes { s with quoteFlushes := s.quoteFlushes.eraseIdx i } final pos
  | some ⟨final, _, .funding rates⟩ =>
      quotesFlushed { s with
        quoteFlushes := s.quoteFlushes.eraseIdx i
        funding := s.funding.persist rates } final

def stopping : LiveBuffers :=
  match s.stop with
  | .closing => flushTicks { s with «open» := false, stop := .drainingTicks } true 0
  | .ticksDrained => flushQuotes { s with stop := .drainingQuotes } true 0
  | .quotesDrained => { s with stop := .resolved }
  | _ => s

def step : BufferStep → LiveBuffers
  | .onTrade tick => if s.open then s.onTrade tick else s
  | .onQuote quote => if s.open then s.onQuote quote else s
  | .onFunding rate => if s.open then s.onFunding rate else s
  | .tickTimer => if s.stop = .running then s.flushTicks false 0 else s
  | .quoteTimer => if s.stop = .running then s.flushQuotes false 0 else s
  | .tickFlush i => s.stepTickFlush i
  | .quoteFlush i => s.stepQuoteFlush i
  | .stop => if s.stop = .running then { s with stop := .closing } else s
  | .stopping => s.stopping

end LiveBuffers

end NexusQuant.Ingestion
