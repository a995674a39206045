import NexusQuant.Market.Recovery

/-!
# Restarts reproduce the live state

The two results about whole runs of a journaling adapter: the recovered portfolio is the live mirror
as long as a no-op never rewrites an entry of the mirror, and the recovered broker state is the live
one as long as everything that is journaled is admitted when it is read back.
-/

namespace NexusQuant.Market

open Execution Journal Run

/-! ## The portfolio -/

section Portfolio

variable [A : Arithmetic]

/-- If the call finds the symbol already at its target, the mirror holds the symbol for the
strategy of the intent, on the side of the intent when the position is flat. -/
def NoOpOwned (cfg : AdapterConfig) (s : AdapterState) (call : Call) : Prop :=
  ∀ quote ∈ (referenceQuote cfg call.1 call.2).toOption,
    isNoOp s call.2 (parseDecimal quote.price) →
      ∃ q ∈ s.portfolioMirror.positions.get? call.2.symbol,
        q.strategyId = call.2.lineage.executionStrategyId ∧
          (positionSide (s.marketState.position call.2.symbol) = .flat → q.side = call.2.side)

instance (cfg : AdapterConfig) (s : AdapterState) (call : Call) :
    Decidable (NoOpOwned cfg s call) := by
  dsimp only [NoOpOwned]; infer_instance

/-- The mirror is the portfolio of the journal. -/
structure MirrorJournaled (cfg : AdapterConfig) (s : AdapterState) : Prop extends Replayed cfg s where
  mirror : s.portfolioMirror = journalPortfolio s.journal

theorem referenceQuote_mem {cfg : AdapterConfig} {w : World} {intent : ExecutionIntent}
    {quote : Quote} (h : referenceQuote cfg w intent = .ok quote) :
    quote ∈ (referenceQuote cfg w intent).toOption := by
  rw [h]
  rfl

/-- What a no-op reports is what an owned entry of the mirror says already. -/
theorem noOpResult_position {cfg : AdapterConfig} {s : AdapterState} {intent : ExecutionIntent}
    {quote : Quote} {p : Position} {q : PortfolioPosition}
    (hp : s.marketState.positions.get? intent.symbol = some p)
    (hmirrors : Mirrors intent.symbol p q)
    (hstrategy : q.strategyId = intent.lineage.executionStrategyId)
    (hside : positionSide (s.marketState.position intent.symbol) = .flat → q.side = intent.side) :
    q = (noOpResult cfg s intent quote).position := by
  have hprior : s.marketState.position intent.symbol = p := by
    rw [MarketState.position, hp]
    rfl
  rw [hprior] at hside
  rw [noOpResult, hprior]
  obtain ⟨symbol, side, notional, strategyId⟩ := q
  obtain ⟨hsymbol, hnotional, hlong, hshort⟩ := hmirrors
  dsimp only at hsymbol hnotional hlong hshort hstrategy hside
  rw [hsymbol, hnotional, hstrategy, ExecutionResult.position, filledResult]
  dsimp only
  congr 1
  -- The side that is reported: the intent's own for a flat position, else that of the position.
  split
  · rename_i h
    exact hside h
  · rename_i h
    exact hshort h
  · rename_i h
    exact hlong h

theorem MirrorJournaled.step {cfg : AdapterConfig} {s : AdapterState} (h : MirrorJournaled cfg s)
    {call : Call} (hcall : FillsOwnSymbol call.1 ∧ NoOpOwned cfg s call) :
    MirrorJournaled cfg (stepCall cfg s call) := by
  obtain ⟨hown, howned⟩ := hcall
  refine ⟨h.toReplayed.step hown, ?_⟩
  rcases stepCall_cases cfg s call with heq | ⟨result, hattempt, heq⟩ | ⟨c, hattempt, heq⟩
  · rw [heq]
    exact h.mirror
  · rw [heq]
    change applyResult s.portfolioMirror result = journalPortfolio s.journal
    obtain ⟨quote, hquote, ⟨hnoop, hresult⟩ | ⟨-, c, -, hresult⟩⟩ := attempt_ok hattempt
    -- A no-op writes nothing to the journal, so the mirror may only record what it has already.
    · cases hresult
      obtain ⟨q, hq, hstrategy, hside⟩ := howned quote (referenceQuote_mem hquote) hnoop
      rw [h.mirror] at hq ⊢
      obtain ⟨p, hp, hmirrors⟩ := h.mirrored _ q hq
      apply applyResult_eq_self (derived_reconstructPortfolioState _)
      exact hq.trans (congrArg some (noOpResult_position hp hmirrors hstrategy hside))
    · cases hresult
  · have hc := commits_of_attempt hown hattempt
    rw [heq, journalPortfolio_state, ← h.mirror]
    exact hc.mirror

theorem mirrorJournaled_initial (cfg : AdapterConfig) :
    MirrorJournaled cfg (initialAdapterState cfg) :=
  ⟨replayed_initial cfg, rfl⟩

/-- In every run whose no-ops are all owned, at every point, the recovery succeeds and returns the
live mirror. -/
theorem recovered_portfolio_eq_mirror (cfg : AdapterConfig) (broker : Broker)
    (calls visited : List Call)
    (hbroker : ∀ call ∈ calls, ∀ order, call.1.place order = .ok (broker.place order))
    (h : RunMeets (stepCall cfg) (NoOpOwned cfg) (initialAdapterState cfg) calls)
    (hvisited : visited <+: calls) :
    ∃ recovered,
      recoverMarketState cfg.accountConfig cfg.tolerance
          (run (stepCall cfg) (initialAdapterState cfg) visited).journal = .ok recovered ∧
        recovered.portfolioState =
          (run (stepCall cfg) (initialAdapterState cfg) visited).portfolioMirror := by
  obtain ⟨rest, rfl⟩ := hvisited
  have hown : RunMeets (stepCall cfg) (fun _ call => FillsOwnSymbol call.1)
      (initialAdapterState cfg) visited :=
    runMeets_of_forall fun call hcall _ =>
      fillsOwnSymbol_of_broker (hbroker call (List.mem_append_left _ hcall))
  -- The invariant carries the fold of the journal along; ownership is only asked of the visited
  -- calls.
  have hinv : MirrorJournaled cfg (run (stepCall cfg) (initialAdapterState cfg) visited) :=
    run_invariant (fun s call hs hcall => hs.step hcall) (mirrorJournaled_initial cfg)
      (hown.and h.of_append)
  exact ⟨_, hinv.toReplayed.recoverMarketState_eq, hinv.mirror.symm⟩

end Portfolio

/-- The same target asked for by another strategy. -/
def secondIntent (strategy : String) : ExecutionIntent :=
  { sampleIntent with
    intentId := "i-2"
    lineage := { sampleLineage with executionStrategyId := strategy } }

theorem recovered_portfolio_eq_mirror_sample :
    RunMeets (stepCall sampleConfig) (NoOpOwned sampleConfig) (initialAdapterState sampleConfig)
        [(sampleWorld, sampleIntent), (sampleWorld, secondIntent "momentum")] ∧
      ∃ recovered,
        recoverMarketState sampleConfig.accountConfig sampleConfig.tolerance
            (run (stepCall sampleConfig) (initialAdapterState sampleConfig)
              [(sampleWorld, sampleIntent), (sampleWorld, secondIntent "momentum")]).journal =
          .ok recovered ∧
        recovered.portfolioState =
          (run (stepCall sampleConfig) (initialAdapterState sampleConfig)
            [(sampleWorld, sampleIntent), (sampleWorld, secondIntent "momentum")]).portfolioMirror := by
  have howned : RunMeets (stepCall sampleConfig) (NoOpOwned sampleConfig)
      (initialAdapterState sampleConfig)
      [(sampleWorld, sampleIntent), (sampleWorld, secondIntent "momentum")] := by decide +kernel
  refine ⟨howned, recovered_portfolio_eq_mirror sampleConfig .paper _ _ ?_ howned
    (List.prefix_refl _)⟩
  intro call hcall order
  simp only [List.mem_cons, List.not_mem_nil, or_false] at hcall
  rcases hcall with rfl | rfl <;> rfl

/-- A second strategy asks for the target that is held already: the mirror moves to that strategy,
the journal does not. -/
theorem noOp_ownership_not_recovered :
    ((recoverMarketState sampleConfig.accountConfig sampleConfig.tolerance
        (run (stepCall sampleConfig) (initialAdapterState sampleConfig)
          [(sampleWorld, sampleIntent), (sampleWorld, secondIntent "carry")]).journal).toOption.map
      fun r => r.portfolioState.byStrategy) = some [("momentum", "150.00")] ∧
    (run (stepCall sampleConfig) (initialAdapterState sampleConfig)
      [(sampleWorld, sampleIntent), (sampleWorld, secondIntent "carry")]).portfolioMirror.byStrategy =
        [("carry", "150.00")] := by
  decide +kernel

/-! ## The broker state -/

section Broker

variable [A : Arithmetic]

/-- If the broker's stream is accepted with a fill, the ids of the intent and of the fills are not
empty, the symbol is not one that an empty `positions` answers from its prototype, and the quantities
and prices of the fills are canonical texts. -/
def Journalable (cfg : AdapterConfig) (s : AdapterState) (call : Call) : Prop :=
  ∀ quote ∈ (referenceQuote cfg call.1 call.2).toOption,
    ¬isNoOp s call.2 (parseDecimal quote.price) →
      ∀ events ∈ (call.1.place (orderFor cfg s call.2 (parseDecimal quote.price))).toOption,
        ∀ snapshot ∈ (reduceOrder (orderFor cfg s call.2 (parseDecimal quote.price)) events).toOption,
          snapshot.fills ≠ [] →
            (0 < call.2.intentId.length ∧ 0 < call.2.symbol.length ∧
              0 < call.2.lineage.executionStrategyId.length) ∧
            call.2.symbol ∉ Dict.inherited ∧
            ∀ e ∈ events, ∀ fill ∈ e.body.fill?, 0 < e.intentId.length ∧
              isCanonicalDecimalString fill.fillQty qtyDp ∧
              isCanonicalDecimalString fill.fillPrice priceDp

instance (cfg : AdapterConfig) (s : AdapterState) (call : Call) :
    Decidable (Journalable cfg s call) := by
  dsimp only [Journalable]; infer_instance

/-- Everything journaled so far is admitted when it is read back. -/
structure JournalAdmitted (cfg : AdapterConfig) (s : AdapterState) : Prop extends Replayed cfg s where
  admitted : ∀ r ∈ s.journal, r.toMarketJournalInput.Admissible

theorem admissible_of_commit {cfg : AdapterConfig} {s : AdapterState} (h : Replayed cfg s)
    {call : Call} (hown : FillsOwnSymbol call.1) (hjournalable : Journalable cfg s call) {c : Commit}
    (hattempt : attempt cfg call.1 s call.2 = .ok (.commit c)) : (c.input call.2).Admissible := by
  have hc := commits_of_attempt hown hattempt
  obtain ⟨quote, hquote, ⟨-, heq⟩ | ⟨hnoop, c', htrade, heq⟩⟩ := attempt_ok hattempt
  · cases heq
  cases heq
  obtain ⟨events, snapshot, published, hplace, hreduce, hsettle⟩ := trade_ok htrade
  obtain ⟨hne, rfl, -⟩ := settle_ok hsettle
  obtain ⟨⟨hintent, hsymbol, hstrategy⟩, -, hfills⟩ := hjournalable quote (referenceQuote_mem hquote)
    hnoop c.events (by rw [hplace]; rfl) snapshot (by rw [hreduce]; rfl) hne
  obtain ⟨detail, hresult⟩ := hc.result
  have hposition := (h.wellFormed.applyFills (fillsFrom c.events)).positions call.2.symbol c.position
    (by rw [← hc.candidate]; exact hc.position)
  -- The broker's texts are admissible by the condition, the adapter's own by construction.
  refine ⟨hintent, hsymbol, ?_, ?_, ?_, ?_, ?_, hposition.1, ?_⟩
  · intro e he fill hfill
    obtain ⟨hid, hqty, hprice⟩ := hfills e he fill hfill
    have horder : e.orderId.length = 16 := by
      rw [(reduceOrder_ok hreduce).1 e he]
      exact (cfg.digest _).2
    have hown' : e.symbol = call.2.symbol :=
      hown _ _ hplace e he _ (by rw [OrderEvent.fill?, hfill]; rfl)
    exact ⟨by omega, hid, by rw [hown']; exact hsymbol, hqty, hprice⟩
  · change 0 < c.result.symbol.length
    rw [hresult]
    exact hsymbol
  · change isCanonicalDecimalString c.result.filledNotional notionalDp
    rw [hresult]
    exact isCanonical_quantizeNotional _
  · change 0 < c.result.lineage.executionStrategyId.length
    rw [hresult]
    exact hstrategy
  · change 0 < c.position.symbol.length
    rw [hposition.2]
    exact hsymbol
  · change c.candidate.account.Canonical
    rw [hc.candidate]
    exact (h.wellFormed.applyFills _).account

theorem JournalAdmitted.step {cfg : AdapterConfig} {s : AdapterState} (h : JournalAdmitted cfg s)
    {call : Call} (hcall : FillsOwnSymbol call.1 ∧ Journalable cfg s call) :
    JournalAdmitted cfg (stepCall cfg s call) := by
  obtain ⟨hown, hjournalable⟩ := hcall
  refine ⟨h.toReplayed.step hown, ?_⟩
  rcases stepCall_cases cfg s call with heq | ⟨result, -, heq⟩ | ⟨c, hattempt, heq⟩
  · rw [heq]
    exact h.admitted
  · rw [heq]
    exact h.admitted
  · rw [heq]
    intro r hr
    rcases List.mem_append.mp hr with hr | hr
    · exact h.admitted r hr
    · rw [List.mem_singleton.mp hr]
      exact admissible_of_commit h.toReplayed hown hjournalable hattempt

theorem journalAdmitted_initial (cfg : AdapterConfig) :
    JournalAdmitted cfg (initialAdapterState cfg) :=
  ⟨replayed_initial cfg, by rintro r ⟨⟩⟩

/-- The file of a journal that is admitted throughout is sound. -/
theorem JournalAdmitted.sound {cfg : AdapterConfig} {s : AdapterState} (h : JournalAdmitted cfg s)
    (texts : FileMarketEventStore.Texts) :
    Sound marketFormat texts ⟨journalFile texts s.journal, none⟩ s.journal where
  laid := ⟨[], (List.append_nil _).symm, .inl (.inl rfl)⟩
  seqs k r hk := by
    change some (r.seq : ℤ) = some (k : ℤ)
    rw [h.seqs k r hk]
  admitted r hr := (assertValid_toJson r).mpr (h.admitted r hr)
  nextSeq := by rintro n ⟨⟩

/-- In every run whose executions are all journalable, at every point, the recovery from the bytes
of the journal succeeds and returns the live market state. -/
theorem recovered_market_eq_live (cfg : AdapterConfig) (texts : FileMarketEventStore.Texts)
    (calls visited : List Call) (hown : ∀ call ∈ calls, FillsOwnSymbol call.1)
    (h : RunMeets (stepCall cfg) (Journalable cfg) (initialAdapterState cfg) calls)
    (hvisited : visited <+: calls) :
    ∃ recovered,
      recoverFromFile texts cfg.accountConfig cfg.tolerance (journalFile texts
          (run (stepCall cfg) (initialAdapterState cfg) visited).journal) = .ok recovered ∧
        recovered.marketState =
          (run (stepCall cfg) (initialAdapterState cfg) visited).marketState := by
  obtain ⟨rest, rfl⟩ := hvisited
  have howns : RunMeets (stepCall cfg) (fun _ call => FillsOwnSymbol call.1)
      (initialAdapterState cfg) visited :=
    runMeets_of_forall fun call hcall _ => hown call (List.mem_append_left _ hcall)
  have hinv : JournalAdmitted cfg (run (stepCall cfg) (initialAdapterState cfg) visited) :=
    run_invariant (fun s call hs hcall => hs.step hcall) (journalAdmitted_initial cfg)
      (howns.and h.of_append)
  -- First the bytes give back the lines, then the lines their records, then the records the state.
  have hread := (hinv.sound texts).readAll_eq
  have htyped : (List.map marketFormat.toJson
      (run (stepCall cfg) (initialAdapterState cfg) visited).journal).mapM
        MarketJournalRecord.ofJson? =
      some (run (stepCall cfg) (initialAdapterState cfg) visited).journal :=
    Json.mapM_map MarketJournalRecord.ofJson?_toJson _
  rw [recoverFromFile, FileMarketEventStore.readAll, hread]
  dsimp only
  rw [htyped]
  exact ⟨_, hinv.toReplayed.recoverMarketState_eq, rfl⟩

end Broker

theorem recovered_market_eq_live_sample :
    FillsOwnSymbol sampleWorld ∧
      RunMeets (stepCall sampleConfig) (Journalable sampleConfig) (initialAdapterState sampleConfig)
        [(sampleWorld, sampleIntent)] ∧
      ∃ recovered,
        recoverFromFile FileMarketEventStore.jsonTexts sampleConfig.accountConfig
            sampleConfig.tolerance (journalFile FileMarketEventStore.jsonTexts
              (run (stepCall sampleConfig) (initialAdapterState sampleConfig)
                [(sampleWorld, sampleIntent)]).journal) = .ok recovered ∧
          recovered.marketState = (run (stepCall sampleConfig) (initialAdapterState sampleConfig)
            [(sampleWorld, sampleIntent)]).marketState := by
  have hown : FillsOwnSymbol sampleWorld :=
    @fillsOwnSymbol_of_broker _ sampleWorld .paper fun _ => rfl
  have hjournalable : RunMeets (stepCall sampleConfig) (Journalable sampleConfig)
      (initialAdapterState sampleConfig) [(sampleWorld, sampleIntent)] := by decide +kernel
  refine ⟨hown, hjournalable, recovered_market_eq_live sampleConfig
    FileMarketEventStore.jsonTexts _ _ ?_ hjournalable (List.prefix_refl _)⟩
  intro call hcall
  rw [List.mem_singleton.mp hcall]
  exact hown

/-- A venue that reports the full fill in short texts: `1.5` for `1.50000000`. -/
def shortTextWorld : World :=
  { sampleWorld with
    place := fun order => .ok [baseEvent order 0 .requested, baseEvent order 1 .submitted,
      baseEvent order 2 .accepted, baseEvent order 3 (.filled ⟨"1.5", "100", "1.5"⟩)] }

theorem fillsOwnSymbol_shortTextWorld : FillsOwnSymbol shortTextWorld := by
  intro order events hplace e he f hf
  cases hplace
  simp only [List.mem_cons, List.not_mem_nil, or_false] at he
  rcases he with rfl | rfl | rfl | rfl <;> cases hf
  rfl

/-- The fill is accepted, committed and journaled, and the restart refuses the journal. -/
theorem short_texts_halt_recovery :
    FillsOwnSymbol shortTextWorld ∧
      (run (stepCall sampleConfig) (initialAdapterState sampleConfig)
        [(shortTextWorld, sampleIntent)]).journal.length = 1 ∧
      (recoverFromFile FileMarketEventStore.jsonTexts sampleConfig.accountConfig
        sampleConfig.tolerance (journalFile FileMarketEventStore.jsonTexts
          (run (stepCall sampleConfig) (initialAdapterState sampleConfig)
            [(shortTextWorld, sampleIntent)]).journal)).toOption.isNone := by
  refine ⟨fillsOwnSymbol_shortTextWorld, ?_, ?_⟩
  · decide +kernel
  · decide +kernel

end NexusQuant.Market
