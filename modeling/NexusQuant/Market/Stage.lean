import NexusQuant.Market.Broker
import NexusQuant.Market.EventStore
import NexusQuant.Market.Reconcile

/-!
# The market execution adapter

`MarketExecutionAdapter.execute` of `stage.ts`, for an adapter with an event store.  What happens
outside the adapter during one call is a `World`: the quote provider, the broker, the journal write
and the bus subscribers, each of which may fail.

`attempt` is the part of the call that changes nothing; `execute` journals and commits what it
prepared.  The market bus is the one thing that can still fail after the commit.
-/

namespace NexusQuant.Market

open Execution Fallible

structure AdapterConfig where
  brokerId : String
  providerMode : ProviderMode
  accountConfig : AccountConfig
  tolerance : ℚ
  digest : Digest

/-- The state of an adapter and of its event store. -/
structure AdapterState where
  marketState : MarketState
  portfolioMirror : PortfolioState
  journal : List MarketJournalRecord
deriving DecidableEq, Repr

/-- The world during one call.  An error is the message of what was thrown; a subscriber sees what
was published before in this call. -/
structure World where
  quote : String → Except String (Option Quote)
  place : Order → Except String (List OrderEvent)
  append : MarketJournalInput → Option String
  subscriber : List MarketStageEvent → MarketStageEvent → Option String

def initialAdapterState (cfg : AdapterConfig) : AdapterState :=
  ⟨emptyMarketState cfg.accountConfig, emptyPortfolioState, []⟩

def AdapterConfig.id (cfg : AdapterConfig) : String := "market:" ++ cfg.brokerId

/-- A call that ends early: with a REJECTED result, or with a throw. -/
inductive Exit where
  | rejected (detail : String)
  | threw (message : String)
deriving DecidableEq, Repr

/-- What an execution has prepared when it reaches its commit. -/
structure Commit where
  events : List OrderEvent
  result : ExecutionResult
  position : Position
  candidate : MarketState
  mirror : PortfolioState
  published : List MarketStageEvent
deriving DecidableEq, Repr

inductive Attempt where
  | noOp (result : ExecutionResult)
  | commit (c : Commit)
deriving DecidableEq, Repr

section Execute

variable [A : Arithmetic] (cfg : AdapterConfig) (w : World) (s : AdapterState) (intent : ExecutionIntent)

def reject (detail : String) : ExecutionResult :=
  ⟨intent.intentId, intent.symbol, intent.side, .rejected, cfg.id, "0.00", detail, intent.lineage⟩

/-- The reference quote: a missing or invalid price, and anything thrown on the way, rejects. -/
def referenceQuote : Except Exit Quote :=
  match w.quote intent.symbol with
  | .error e => .error (.rejected ("market data error: " ++ e))
  | .ok none => .error (.rejected "no market data — no price, no execution")
  | .ok (some quote) =>
      if ¬parseDecimal quote.price > 0 then
        .error (.rejected ("invalid reference price " ++ quote.price))
      -- The quote is published inside the same `try`: a subscriber that throws here only rejects.
      else match w.subscriber [] (.marketData quote cfg.providerMode) with
        | some e => .error (.rejected ("market data error: " ++ e))
        | none => .ok quote

/-- The signed quantity that moves the symbol from its net to the target. -/
def deltaSignedQty (price : ℚ) : ℚ :=
  let target := parseDecimal intent.targetNotional
  let sign : ℚ := match intent.side with
    | .long => 1
    | .short => -1
  A.rounded (sign * A.rounded (target / price) -
    parseDecimal (s.marketState.position intent.symbol).netQty)

/-- Already at the target, up to quantization. -/
def isNoOp (price : ℚ) : Prop :=
  quantizeQty (abs (deltaSignedQty s intent price)) = quantizeQty 0

instance (price : ℚ) : Decidable (isNoOp s intent price) := by
  dsimp only [isNoOp]; infer_instance

/-- The FILLED result that reports the net `p` of the symbol. -/
def filledResult (p : Position) (detail : String) : ExecutionResult :=
  { intentId := intent.intentId
    symbol := intent.symbol
    -- A flat position has no side, so the intent's stands in.
    side := match positionSide p with
      | .flat => intent.side
      | .short => .short
      | .long => .long
    status := .filled
    adapterId := cfg.id
    filledNotional := positionNotionalString p
    detail
    lineage := intent.lineage }

def noOpResult (quote : Quote) : ExecutionResult :=
  filledResult cfg intent (s.marketState.position intent.symbol)
    ("already at target net (no-op) at " ++ quote.ts)

def orderFor (price : ℚ) : Order :=
  -- Only the difference to the held quantity is ordered.
  let delta := deltaSignedQty s intent price
  deriveOrder cfg.digest
    { intentId := intent.intentId
      symbol := intent.symbol
      side := if delta ≥ 0 then .buy else .sell
      qty := abs delta
      price
      brokerId := cfg.brokerId
      lineage := intent.lineage }

/-- Publish events one after the other; the first subscriber that throws ends it. -/
def publishAll (published : List MarketStageEvent) :
    List MarketStageEvent → Except String (List MarketStageEvent)
  | [] => .ok published
  | e :: es =>
      match w.subscriber published e with
      | some err => .error err
      | none => publishAll (published ++ [e]) es

/-- Fold the fills into a candidate state and reconcile it with the candidate mirror. -/
def settle (events : List OrderEvent) (snapshot : OrderSnapshot)
    (published : List MarketStageEvent) : Except Exit Commit :=
  if snapshot.fills = [] then
    .error (.rejected ("order " ++ snapshot.state.text.toLower ++ " with no fills via " ++
      cfg.brokerId))
  else
    let candidate := applyFills s.marketState snapshot.fills
    -- The fallback is for fills of other symbols only.
    let position := (candidate.positions.get? intent.symbol).getD
      (s.marketState.position intent.symbol)
    let result := filledResult cfg intent position
      (snapshot.state.text ++ " via " ++ cfg.brokerId ++ " (" ++ toString snapshot.fills.length ++
        " fill(s), avg " ++ snapshot.avgFillPrice ++ ")")
    let mirror := applyResult s.portfolioMirror result
    match reconcile candidate mirror cfg.tolerance with
    | .ok _ => .ok ⟨events, result, position, candidate, mirror, published⟩
    | .failed checked mismatches detail =>
        match w.subscriber published (.reconciliationFailed (.failed checked mismatches detail)) with
        | some e => .error (.threw e)
        | none => .error (.rejected ("reconciliation failed: " ++ detail))

/-- The broker's lifecycle, up to the commit. -/
def trade (quote : Quote) : Except Exit Commit :=
  let order := orderFor cfg s intent (parseDecimal quote.price)
  match w.place order with
  | .error e => .error (.rejected ("broker error: " ++ e))
  | .ok events =>
      match reduceOrder order events with
      | .error e => .error (.rejected ("order lifecycle error: " ++ e))
      | .ok snapshot =>
          -- Every event of an accepted stream is published before anything is reconciled or stored.
          match publishAll w [.marketData quote cfg.providerMode] (events.map .order) with
          | .error e => .error (.threw e)
          | .ok published => settle cfg w s intent events snapshot published

/-- The part of `execute` before anything is changed. -/
def attempt : Except Exit Attempt :=
  (referenceQuote cfg w intent).bind fun quote =>
    if isNoOp s intent (parseDecimal quote.price) then
      .ok (.noOp (noOpResult cfg s intent quote))
    else (trade cfg w s intent quote).map .commit

/-- The record of a commit. -/
def Commit.input (c : Commit) : MarketJournalInput :=
  ⟨intent.intentId, intent.symbol, c.events, c.result, c.position, c.candidate.account⟩

/-- The state once the record is journaled and the candidates are committed. -/
def Commit.state (c : Commit) : AdapterState :=
  ⟨c.candidate, c.mirror, s.journal ++ [{ c.input intent with seq := s.journal.length }]⟩

def Commit.positionUpdated (c : Commit) : MarketStageEvent :=
  .positionUpdated c.position intent.lineage

def Commit.accountUpdated (c : Commit) : MarketStageEvent :=
  .accountUpdated (valuateAccount c.candidate.account c.candidate.positions cfg.accountConfig)

inductive Outcome where
  | returned (result : ExecutionResult)
  | threw (message : String)
deriving DecidableEq, Repr

/-- `execute`: the outcome of the call and the state after it. -/
def execute : Outcome × AdapterState :=
  match attempt cfg w s intent with
  | .error (.rejected detail) => (.returned (reject cfg intent detail), s)
  | .error (.threw message) => (.threw message, s)
  | .ok (.noOp result) =>
      -- Nothing is journaled for a target that is reached already.
      (.returned result, { s with portfolioMirror := applyResult s.portfolioMirror result })
  | .ok (.commit c) =>
      match w.append (c.input intent) with
      | some e => (.returned (reject cfg intent ("durable journal write failed: " ++ e)), s)
      | none =>
          let committed := c.state s intent
          -- The journal has the record by now: a subscriber that throws here throws after the
          -- commit.
          match publishAll w c.published [c.positionUpdated intent, c.accountUpdated cfg] with
          | .error e => (.threw e, committed)
          | .ok _ => (.returned c.result, committed)

end Execute

/-! ## What the results look like -/

theorem publishAll_pair {w : World} {published : List MarketStageEvent} {e₁ e₂ : MarketStageEvent} :
    (publishAll w published [e₁, e₂]).isOk ↔
      w.subscriber published e₁ = none ∧ w.subscriber (published ++ [e₁]) e₂ = none := by
  simp only [publishAll]
  cases h₁ : w.subscriber published e₁ with
  | some e => simp [Except.isOk, Except.toBool]
  | none =>
      cases h₂ : w.subscriber (published ++ [e₁]) e₂ with
      | some e => simp [Except.isOk, Except.toBool]
      | none => simp [Except.isOk, Except.toBool]

section Results

variable [Arithmetic] {cfg : AdapterConfig} {w : World} {s : AdapterState} {intent : ExecutionIntent}

theorem settle_ok {events : List OrderEvent} {snapshot : OrderSnapshot}
    {published : List MarketStageEvent} {c : Commit}
    (h : settle cfg w s intent events snapshot published = .ok c) :
    snapshot.fills ≠ [] ∧ c.events = events ∧
      c.candidate = applyFills s.marketState snapshot.fills ∧
      c.position = (c.candidate.positions.get? intent.symbol).getD
        (s.marketState.position intent.symbol) ∧
      (∃ detail, c.result = filledResult cfg intent c.position detail) ∧
      c.mirror = applyResult s.portfolioMirror c.result ∧
      (reconcile c.candidate c.mirror cfg.tolerance).isOk := by
  unfold settle at h
  split at h
  · cases h
  · rename_i hfills
    dsimp only at h
    split at h
    · rename_i hok
      cases h
      exact ⟨hfills, rfl, rfl, rfl, ⟨_, rfl⟩, rfl, by dsimp only; rw [hok]; rfl⟩
    · split at h <;> cases h

theorem trade_ok {quote : Quote} {c : Commit} (h : trade cfg w s intent quote = .ok c) :
    ∃ events snapshot published,
      w.place (orderFor cfg s intent (parseDecimal quote.price)) = .ok events ∧
      reduceOrder (orderFor cfg s intent (parseDecimal quote.price)) events = .ok snapshot ∧
      settle cfg w s intent events snapshot published = .ok c := by
  unfold trade at h
  dsimp only at h
  split at h
  · cases h
  · rename_i events hplace
    split at h
    · cases h
    · rename_i snapshot hreduce
      split at h
      · cases h
      · rename_i published _
        exact ⟨events, snapshot, published, hplace, hreduce, h⟩

/-- The two ways an attempt can succeed. -/
theorem attempt_ok {a : Attempt} (h : attempt cfg w s intent = .ok a) :
    ∃ quote, referenceQuote cfg w intent = .ok quote ∧
      ((isNoOp s intent (parseDecimal quote.price) ∧ a = .noOp (noOpResult cfg s intent quote)) ∨
        (¬isNoOp s intent (parseDecimal quote.price) ∧
          ∃ c, trade cfg w s intent quote = .ok c ∧ a = .commit c)) := by
  obtain ⟨quote, hquote, hrest⟩ := bind_eq_ok.mp h
  refine ⟨quote, hquote, ?_⟩
  split at hrest
  · rename_i hnoop
    cases hrest
    exact .inl ⟨hnoop, rfl⟩
  · rename_i hnoop
    obtain ⟨c, hc, rfl⟩ := map_eq_ok.mp hrest
    exact .inr ⟨hnoop, c, hc, rfl⟩

theorem attempt_noOp_status {result : ExecutionResult}
    (h : attempt cfg w s intent = .ok (.noOp result)) : result.status = .filled := by
  obtain ⟨quote, -, ⟨-, heq⟩ | ⟨-, c, -, heq⟩⟩ := attempt_ok h
  · cases heq
    rfl
  · cases heq

theorem attempt_commit_status {c : Commit} (h : attempt cfg w s intent = .ok (.commit c)) :
    c.result.status = .filled := by
  obtain ⟨quote, -, ⟨-, heq⟩ | ⟨-, c', htrade, heq⟩⟩ := attempt_ok h
  · cases heq
  · cases heq
    obtain ⟨events, snapshot, published, -, -, hsettle⟩ := trade_ok htrade
    obtain ⟨-, -, -, -, ⟨detail, hresult⟩, -⟩ := settle_ok hsettle
    rw [hresult]
    rfl

end Results

/-! ## Failure atomicity -/

/-- The call ended with a REJECTED result or with a throw. -/
def Outcome.Failed : Outcome → Prop
  | .returned result => result.status = .rejected
  | .threw _ => True

instance (o : Outcome) : Decidable o.Failed := by
  cases o <;> dsimp only [Outcome.Failed] <;> infer_instance

/-- A call that fails leaves the market state, the mirror and the journal as they were. -/
def FailureAtomic [Arithmetic] (cfg : AdapterConfig) (w : World) (s : AdapterState)
    (intent : ExecutionIntent) : Prop :=
  (execute cfg w s intent).1.Failed → (execute cfg w s intent).2 = s

theorem Commit.state_ne (c : Commit) (s : AdapterState) (intent : ExecutionIntent) :
    c.state s intent ≠ s := by
  intro h
  have hlen := congrArg (fun t : AdapterState => t.journal.length) h
  simp [Commit.state] at hlen

/-- A failed call changes nothing exactly when no subscriber throws on the two updates that are
published after the commit. -/
theorem failureAtomic_iff [Arithmetic] (cfg : AdapterConfig) (w : World) (s : AdapterState)
    (intent : ExecutionIntent) :
    FailureAtomic cfg w s intent ↔
      ∀ c, attempt cfg w s intent = .ok (.commit c) → w.append (c.input intent) = none →
        w.subscriber c.published (c.positionUpdated intent) = none ∧
          w.subscriber (c.published ++ [c.positionUpdated intent]) (c.accountUpdated cfg) = none := by
  unfold FailureAtomic execute
  -- Every exit before the commit returns the state it was given.
  cases hattempt : attempt cfg w s intent with
  | error exit =>
      cases exit with
      | rejected detail => exact ⟨fun _ c hc => (by cases hc), fun _ _ => rfl⟩
      | threw message => exact ⟨fun _ c hc => (by cases hc), fun _ _ => rfl⟩
  | ok a =>
      cases a with
      | noOp result =>
          refine ⟨fun _ c hc => (by cases hc), fun _ hfailed => ?_⟩
          change result.status = .rejected at hfailed
          rw [attempt_noOp_status hattempt] at hfailed
          cases hfailed
      | commit c =>
          dsimp only
          cases happend : w.append (c.input intent) with
          | some e =>
              refine ⟨fun _ c' hc happend' => ?_, fun _ _ => rfl⟩
              cases hc
              rw [happend] at happend'
              cases happend'
          | none =>
              dsimp only
              -- The commit is made; what can still fail is publishing it.
              have hpair := @publishAll_pair w c.published (c.positionUpdated intent)
                (c.accountUpdated cfg)
              cases hpublish : publishAll w c.published
                  [c.positionUpdated intent, c.accountUpdated cfg] with
              | error e =>
                  rw [hpublish] at hpair
                  constructor
                  · intro hatomic
                    exact absurd (hatomic trivial) (c.state_ne s intent)
                  · intro hquiet
                    cases hpair.mpr (hquiet c rfl happend)
              | ok published =>
                  rw [hpublish] at hpair
                  constructor
                  · intro _ c' hc _
                    cases hc
                    exact hpair.mp rfl
                  · intro _ hfailed
                    change c.result.status = .rejected at hfailed
                    rw [attempt_commit_status hattempt] at hfailed
                    cases hfailed

/-! ## A sample call -/

def sampleLineage : ExecutionLineage :=
  ⟨none, "sv-1", "fs-1", "dq-1", "dh-1", "fh-1", "momentum", 1, "i-1", "150.00", []⟩

def sampleConfig : AdapterConfig where
  brokerId := PaperBroker.id
  providerMode := .historical
  accountConfig := defaultAccountConfig
  tolerance := defaultReconciliationTolerance
  digest _ := ⟨"0123456789abcdef", by decide⟩

/-- The tolerance as a double. -/
def doublesConfig : AdapterConfig :=
  { sampleConfig with tolerance := defaultReconciliationTolerance (A := .doubles) }

/-- A target of 150.00 long in BTC. -/
def sampleIntent : ExecutionIntent :=
  ⟨"i-1", "BTC", .long, "150.00", "market:paper", sampleLineage, "test"⟩

/-- A quote of 100 for every symbol, the paper broker, a sound journal and silent subscribers. -/
def sampleWorld : World where
  quote symbol := .ok (some ⟨symbol, "2026-01-01T00:00:00.000Z", "100.00000000"⟩)
  place order := .ok (PaperBroker.place order)
  append _ := none
  subscriber _ _ := none

end NexusQuant.Market
