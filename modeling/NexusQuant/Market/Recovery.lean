import NexusQuant.Market.Stage

/-!
# Restart recovery

`recoverMarketState` of `recovery.ts` rebuilds the broker side from the fills of the journal and the
portfolio side from its results, checks the first against the journaled snapshots and reconciles
the two.  `Replayed` is what a run of the adapter keeps between its live state and its journal; it
makes the recovery succeed and return the live market state.

Two things keep the restart from being exact.  A call that finds the symbol already at its target
advances the mirror and journals nothing (`NoOpOwned` says when that changes nothing), and a stream
that passes the order state machine may carry texts that the admission of the journal refuses
(`Journalable` says when it does not).
-/

namespace NexusQuant.Market

open Execution Journal Run

/-! ## Recovery -/

inductive RecoveryError where
  | journal (error : ReadError)
  | account (recomputed recorded : Account)
  | position (symbol : String) (recomputed recorded : Option Position)
  | reconciliation (detail : String)
deriving DecidableEq, Repr

structure RecoveredMarketState where
  marketState : MarketState
  portfolioState : PortfolioState
  recordsReplayed : ℕ
  fillsReplayed : ℕ
deriving DecidableEq, Repr

def fillsFrom (events : List OrderEvent) : List Fill := events.filterMap OrderEvent.fill?

/-- The last journaled position of each symbol. -/
def lastPositionBySymbol (records : List MarketJournalRecord) : Dict Position :=
  records.foldl (fun d r => d.set r.symbol r.position) []

/-- The recomputed state must be the one the journal recorded. -/
def verifyAgainstSnapshots (records : List MarketJournalRecord) (recomputed : MarketState) :
    Except RecoveryError Unit :=
  match records.getLast? with
  | none => .ok ()
  | some last =>
      if recomputed.account ≠ last.account then .error (.account recomputed.account last.account)
      else
        let recorded := lastPositionBySymbol records
        match recorded.keys.find? fun symbol =>
            recomputed.positions.get? symbol ≠ recorded.get? symbol with
        | some symbol =>
            .error (.position symbol (recomputed.positions.get? symbol) (recorded.get? symbol))
        | none => .ok ()

/-- All fills of a journal, in order. -/
def journalFills (records : List MarketJournalRecord) : List Fill :=
  records.flatMap fun r => fillsFrom r.orderEvents

section Recover

variable [A : Arithmetic]

/-- `recoverMarketState` on the records a store returns. -/
def recoverMarketState (config : AccountConfig) (tolerance : ℚ)
    (records : List MarketJournalRecord) : Except RecoveryError RecoveredMarketState :=
  let fills := journalFills records
  let marketState := reconstructMarketState fills config
  let portfolioState := reconstructPortfolioState (records.map fun r => r.result)
  (verifyAgainstSnapshots records marketState).bind fun _ =>
    match reconcile marketState portfolioState tolerance with
    | .ok _ => .ok ⟨marketState, portfolioState, records.length, fills.length⟩
    | .failed _ _ detail => .error (.reconciliation detail)

/-- The bytes a file store holds once these records have been appended. -/
def journalFile (texts : FileMarketEventStore.Texts) (records : List MarketJournalRecord) : Bytes :=
  records.flatMap (line marketFormat texts)

/-- `recoverMarketState` on a file store: read, parse and admit every line, then replay.  A value
that passes admission without a field of the record type is written by no store; it counts as
malformed here. -/
def recoverFromFile (texts : FileMarketEventStore.Texts) (config : AccountConfig) (tolerance : ℚ)
    (file : Bytes) : Except RecoveryError RecoveredMarketState :=
  match FileMarketEventStore.readAll texts file with
  | .error e => .error (.journal e)
  | .ok values =>
      match values.mapM MarketJournalRecord.ofJson? with
      | none => .error (.journal (.malformed 0 "record type"))
      | some records => recoverMarketState config tolerance records

end Recover

/-! ## What one call does to the state -/

/-- One call of `execute`. -/
abbrev Call := World × ExecutionIntent

section Call

variable [A : Arithmetic]

def stepCall (cfg : AdapterConfig) (s : AdapterState) (call : Call) : AdapterState :=
  (execute cfg call.1 s call.2).2

/-- A call leaves the state alone, advances the mirror by a no-op result, or commits. -/
theorem stepCall_cases (cfg : AdapterConfig) (s : AdapterState) (call : Call) :
    stepCall cfg s call = s ∨
      (∃ result, attempt cfg call.1 s call.2 = .ok (.noOp result) ∧
        stepCall cfg s call =
          { s with portfolioMirror := applyResult s.portfolioMirror result }) ∨
      (∃ c, attempt cfg call.1 s call.2 = .ok (.commit c) ∧
        stepCall cfg s call = c.state s call.2) := by
  obtain ⟨w, intent⟩ := call
  unfold stepCall execute
  dsimp only
  -- Along the exits of the call; a durable append is what tells a commit from a refusal.
  split
  · exact .inl rfl
  · exact .inl rfl
  · rename_i result hattempt
    exact .inr (.inl ⟨result, hattempt, rfl⟩)
  · rename_i c hattempt
    split
    · exact .inl rfl
    · refine .inr (.inr ⟨c, hattempt, ?_⟩)
      split <;> rfl

/-- Every fill a broker reports carries the symbol of the order. -/
def FillsOwnSymbol (w : World) : Prop :=
  ∀ order events, w.place order = .ok events →
    ∀ e ∈ events, ∀ f ∈ e.fill?, f.symbol = order.symbol

theorem fillsOwnSymbol_of_broker {w : World} {broker : Broker}
    (h : ∀ order, w.place order = .ok (broker.place order)) : FillsOwnSymbol w := by
  intro order events hplace e he f hf
  rw [h order] at hplace
  cases hplace
  obtain ⟨fill, -, rfl⟩ := Option.map_eq_some_iff.mp hf
  exact broker.place_symbol order e he

/-- The fills of an accepted stream are those of its events. -/
theorem fills_symbol {cfg : AdapterConfig} {w : World} {s : AdapterState}
    {intent : ExecutionIntent} (hown : FillsOwnSymbol w) {price : ℚ} {events : List OrderEvent}
    {snapshot : OrderSnapshot} (hplace : w.place (orderFor cfg s intent price) = .ok events)
    (hreduce : reduceOrder (orderFor cfg s intent price) events = .ok snapshot) :
    ∀ f ∈ snapshot.fills, f.symbol = intent.symbol := by
  intro f hf
  rw [(reduceOrder_ok hreduce).2] at hf
  obtain ⟨e, he, hfe⟩ := List.mem_filterMap.mp hf
  exact hown _ _ hplace e he f hfe

/-- Everything about a commit that the invariant needs. -/
structure Commits (cfg : AdapterConfig) (s : AdapterState) (intent : ExecutionIntent) (c : Commit) :
    Prop where
  fills_ne : fillsFrom c.events ≠ []
  own : ∀ f ∈ fillsFrom c.events, f.symbol = intent.symbol
  candidate : c.candidate = applyFills s.marketState (fillsFrom c.events)
  position : c.candidate.positions.get? intent.symbol = some c.position
  result : ∃ detail, c.result = filledResult cfg intent c.position detail
  mirror : c.mirror = applyResult s.portfolioMirror c.result
  reconciled : (reconcile c.candidate c.mirror cfg.tolerance).isOk

theorem commits_of_attempt {cfg : AdapterConfig} {w : World} {s : AdapterState}
    {intent : ExecutionIntent} {c : Commit} (hown : FillsOwnSymbol w)
    (h : attempt cfg w s intent = .ok (.commit c)) : Commits cfg s intent c := by
  obtain ⟨quote, -, ⟨-, heq⟩ | ⟨-, c', htrade, heq⟩⟩ := attempt_ok h
  · cases heq
  cases heq
  obtain ⟨events, snapshot, published, hplace, hreduce, hsettle⟩ := trade_ok htrade
  obtain ⟨-, hfills⟩ := reduceOrder_ok hreduce
  have hsymbol := fills_symbol hown hplace hreduce
  obtain ⟨hne, rfl, hcandidate, hposition, hresult, hmirror, hok⟩ := settle_ok hsettle
  change snapshot.fills = fillsFrom c.events at hfills
  rw [hfills] at hne hcandidate hsymbol
  -- A fill of the own symbol leaves an entry for it, so the fallback of the position is not used.
  obtain ⟨p, hp⟩ := applyFills_get?_self hne hsymbol s.marketState
  rw [← hcandidate] at hp
  refine ⟨hne, hsymbol, hcandidate, ?_, hresult, hmirror, hok⟩
  rw [hposition, hp]
  rfl

end Call

/-! ## The invariant between the live state and the journal -/

section Invariant

variable [A : Arithmetic]

/-- The portfolio side of the journal. -/
def journalPortfolio (records : List MarketJournalRecord) : PortfolioState :=
  reconstructPortfolioState (records.map fun r => r.result)

/-- The position the mirror keeps for a broker position: its notional, and its side unless it is
flat. -/
structure Mirrors (symbol : String) (p : Position) (q : PortfolioPosition) : Prop where
  symbol : q.symbol = symbol
  notional : q.notional = positionNotionalString p
  long : positionSide p = .long → q.side = .long
  short : positionSide p = .short → q.side = .short

structure Replayed (cfg : AdapterConfig) (s : AdapterState) : Prop where
  /-- The fold of the journaled fills is the live market state. -/
  market : s.marketState = reconstructMarketState (journalFills s.journal) cfg.accountConfig
  wellFormed : s.marketState.WellFormed
  /-- The snapshots of the journal are those of the live state. -/
  account : ∀ r, s.journal.getLast? = some r → r.account = s.marketState.account
  positions : ∀ symbol, (lastPositionBySymbol s.journal).get? symbol =
    s.marketState.positions.get? symbol
  /-- Both sides know the same symbols, and agree on them. -/
  mirrored : ∀ symbol q, (journalPortfolio s.journal).positions.get? symbol = some q →
    ∃ p, s.marketState.positions.get? symbol = some p ∧ Mirrors symbol p q
  agree : ∀ symbol, symbol ∈ s.marketState.positions.keys ∨
      symbol ∈ (journalPortfolio s.journal).positions.keys →
    reconcileSymbol cfg.tolerance symbol (s.marketState.positions.get? symbol)
      ((journalPortfolio s.journal).positions.get? symbol) = none
  seqs : ∀ (k : ℕ) (r : MarketJournalRecord), s.journal[k]? = some r → r.seq = k

theorem replayed_initial (cfg : AdapterConfig) : Replayed cfg (initialAdapterState cfg) where
  market := rfl
  wellFormed := wellFormed_emptyMarketState _
  account := by rintro r ⟨⟩
  positions symbol := rfl
  mirrored := by rintro symbol q ⟨⟩
  agree := by
    intro symbol h
    simp [initialAdapterState, emptyMarketState, journalPortfolio, reconstructPortfolioState,
      emptyPortfolioState, Dict.keys] at h
  seqs := by
    intro k r h
    cases h

theorem filledResult_mirrors (cfg : AdapterConfig) (intent : ExecutionIntent) (p : Position)
    (detail : String) : Mirrors intent.symbol p (filledResult cfg intent p detail).position where
  symbol := rfl
  notional := rfl
  long h := by simp [ExecutionResult.position, filledResult, h]
  short h := by simp [ExecutionResult.position, filledResult, h]

section Commit

variable {cfg : AdapterConfig} {s : AdapterState} {intent : ExecutionIntent} {c : Commit}

omit A in
theorem journalFills_state :
    journalFills (c.state s intent).journal = journalFills s.journal ++ fillsFrom c.events := by
  simp [journalFills, Commit.state, Commit.input]

omit A in
theorem lastPositionBySymbol_state :
    lastPositionBySymbol (c.state s intent).journal =
      (lastPositionBySymbol s.journal).set intent.symbol c.position := by
  simp [lastPositionBySymbol, Commit.state, Commit.input]

theorem journalPortfolio_state :
    journalPortfolio (c.state s intent).journal =
      applyResult (journalPortfolio s.journal) c.result := by
  rw [journalPortfolio, Commit.state, List.map_append, List.map_singleton,
    reconstructPortfolioState_append]
  rfl

/-- The symbol of the intent is overwritten by the result, every other symbol is kept. -/
theorem journalPortfolio_state_get? (h : Commits cfg s intent c) (symbol : String) :
    (journalPortfolio (c.state s intent).journal).positions.get? symbol =
      if symbol = intent.symbol then some c.result.position
      else (journalPortfolio s.journal).positions.get? symbol := by
  obtain ⟨detail, hresult⟩ := h.result
  have hfilled : c.result.status = .filled := by rw [hresult]; rfl
  have hsymbol : c.result.symbol = intent.symbol := by rw [hresult]; rfl
  rw [journalPortfolio_state, applyResult_positions hfilled, hsymbol]
  split
  · rename_i heq
    rw [heq, Dict.get?_set_self]
  · rename_i hne
    exact Dict.get?_set_of_ne hne

theorem candidate_get?_of_ne (h : Commits cfg s intent c) {symbol : String}
    (hne : symbol ≠ intent.symbol) :
    c.candidate.positions.get? symbol = s.marketState.positions.get? symbol := by
  rw [h.candidate]
  exact applyFills_get?_of_ne hne h.own s.marketState

theorem Replayed.commit (h : Replayed cfg s) (hc : Commits cfg s intent c) :
    Replayed cfg (c.state s intent) where
  market := by
    rw [journalFills_state, reconstructMarketState_append, ← h.market]
    exact hc.candidate
  wellFormed := by
    change c.candidate.WellFormed
    rw [hc.candidate]
    exact h.wellFormed.applyFills _
  account := by
    intro r hr
    simp only [Commit.state, List.getLast?_append, List.getLast?_singleton, Option.some_or,
      Option.some.injEq] at hr
    rw [← hr]
    rfl
  positions symbol := by
    rw [lastPositionBySymbol_state]
    -- The symbol of the intent has its new position last in the journal; the others are as before.
    by_cases heq : symbol = intent.symbol
    · rw [heq, Dict.get?_set_self]
      exact hc.position.symm
    · rw [Dict.get?_set_of_ne heq, h.positions symbol]
      exact (candidate_get?_of_ne hc heq).symm
  mirrored := by
    intro symbol q hq
    -- The replayed portfolio changes at the symbol of the intent only.
    rw [journalPortfolio_state_get? hc] at hq
    split at hq
    · rename_i heq
      obtain ⟨detail, hresult⟩ := hc.result
      cases hq
      refine ⟨c.position, by rw [heq]; exact hc.position, ?_⟩
      rw [hresult, heq]
      exact filledResult_mirrors cfg intent c.position detail
    · rename_i hne
      obtain ⟨p, hp, hmirrors⟩ := h.mirrored symbol q hq
      exact ⟨p, (candidate_get?_of_ne hc hne).trans hp, hmirrors⟩
  agree := by
    intro symbol hkeys
    rw [Dict.mem_keys, Dict.mem_keys] at hkeys
    rw [journalPortfolio_state_get? hc] at hkeys ⊢
    change reconcileSymbol cfg.tolerance symbol (c.candidate.positions.get? symbol) _ = none
    change (∃ v, c.candidate.positions.get? symbol = some v) ∨ _ at hkeys
    by_cases heq : symbol = intent.symbol
    · -- The adapter has reconciled the very two positions that are journaled.
      rw [if_pos heq, heq]
      have hok := isOk_reconcile.mp hc.reconciled intent.symbol
        (.inl (Dict.mem_keys.mpr ⟨_, hc.position⟩))
      obtain ⟨detail, hresult⟩ := hc.result
      have hfilled : c.result.status = .filled := by rw [hresult]; rfl
      have hsymbol : c.result.symbol = intent.symbol := by rw [hresult]; rfl
      rw [hc.mirror, applyResult_positions hfilled, hsymbol, Dict.get?_set_self] at hok
      exact hok
    · rw [if_neg heq] at hkeys ⊢
      rw [candidate_get?_of_ne hc heq] at hkeys ⊢
      exact h.agree symbol (by rwa [Dict.mem_keys, Dict.mem_keys])
  seqs := Run.forall_getElem?_concat (P := fun k (r : MarketJournalRecord) _ => r.seq = k) h.seqs rfl

end Commit

/-- The invariant only looks at the market state and the journal. -/
theorem Replayed.of_mirror {cfg : AdapterConfig} {s : AdapterState} (h : Replayed cfg s)
    (mirror : PortfolioState) : Replayed cfg { s with portfolioMirror := mirror } :=
  ⟨h.market, h.wellFormed, h.account, h.positions, h.mirrored, h.agree, h.seqs⟩

theorem Replayed.step {cfg : AdapterConfig} {s : AdapterState} (h : Replayed cfg s) {call : Call}
    (hown : FillsOwnSymbol call.1) : Replayed cfg (stepCall cfg s call) := by
  rcases stepCall_cases cfg s call with heq | ⟨result, -, heq⟩ | ⟨c, hattempt, heq⟩
  · rwa [heq]
  · rw [heq]
    exact h.of_mirror _
  · rw [heq]
    exact h.commit (commits_of_attempt hown hattempt)

/-- Under the invariant the recovery succeeds: the snapshots match and the two sides reconcile. -/
theorem Replayed.recoverMarketState_eq {cfg : AdapterConfig} {s : AdapterState}
    (h : Replayed cfg s) :
    recoverMarketState cfg.accountConfig cfg.tolerance s.journal =
      .ok ⟨s.marketState, journalPortfolio s.journal, s.journal.length,
        (journalFills s.journal).length⟩ := by
  -- The snapshots in the journal were taken from the state it replays to.
  have hverify : verifyAgainstSnapshots s.journal s.marketState = .ok () := by
    unfold verifyAgainstSnapshots
    split
    · rfl
    · rename_i last hlast
      have hnone : (lastPositionBySymbol s.journal).keys.find? (fun symbol =>
          s.marketState.positions.get? symbol ≠ (lastPositionBySymbol s.journal).get? symbol) =
            none := by
        rw [List.find?_eq_none]
        intro symbol _
        simp [h.positions symbol]
      rw [if_neg (not_not.mpr (h.account last hlast).symm)]
      dsimp only
      rw [hnone]
  -- The invariant agrees symbol by symbol, on all that either side knows.
  have hok := isOk_reconcile.mpr h.agree
  rw [recoverMarketState, ← h.market, hverify]
  change (match reconcile s.marketState (journalPortfolio s.journal) cfg.tolerance with
    | .ok _ => _
    | .failed _ _ detail => _) = _
  cases hrec : reconcile s.marketState (journalPortfolio s.journal) cfg.tolerance with
  | ok checked => rfl
  | failed checked mismatches detail =>
      rw [hrec] at hok
      cases hok

end Invariant

end NexusQuant.Market
