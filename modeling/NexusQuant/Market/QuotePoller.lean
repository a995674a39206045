import NexusQuant.Lib.Run
import NexusQuant.Market.QuoteTransport
import NexusQuant.Market.Stage

/-!
# The poller of the marks

`DbQuoteTransport` as the timer runs it: any number of refreshes may be under way, each between two of
its reads, and any read may fail, which ends its refresh.  `latest` reads the cache that all of them
write.  A refresh that finds no fresh row clears the entry of the symbol; what can undo or prevent
that is a failed read, a refresh that is older, and a row that arrives while the refresh is running.
-/

namespace NexusQuant.Market

open Run

structure DbQuoteTransport where
  symbols : List String
  maxAgeMs : JsNumber

/-- Where a refresh stands with the first of its remaining symbols: it waits for a source, with the
clock of this `markFor`, or has the result and is about to write the cache. -/
inductive RefreshPhase where
  | reading (source : MarkSource) (now : JsNumber)
  | marked (quote : Option Quote)
  | ended
deriving DecidableEq, Repr

/-- A refresh, with the clock and the tables it was started at. -/
structure Refresh where
  startedAt : JsNumber
  startedOn : MarketTables
  remaining : List String
  phase : RefreshPhase
deriving DecidableEq, Repr

/-- The transport and its surroundings.  Refreshes are numbered in the order of their starts;
`freshReads` holds the number and the symbol of every read that met a fresh row. -/
structure PollerState where
  tables : MarketTables
  now : JsNumber
  cache : String → Option Quote
  refreshes : List Refresh
  freshReads : List (ℕ × String)

inductive PollerEvent where
  | clock (now : JsNumber)
  | write (tables : MarketTables)
  | start
  | answer (refresh : ℕ) (failed : Bool)
  | store (refresh : ℕ)

def PollerState.latest (s : PollerState) (symbol : String) : Option Quote := s.cache symbol

/-- `markFor` up to its first read, or the end of the loop. -/
def enterSymbol (remaining : List String) (now : JsNumber) : RefreshPhase :=
  if remaining = [] then .ended else .reading .book now

section Step

variable (cfg : DbQuoteTransport)

/-- What a read of `markFor` goes on with. -/
def afterRead (symbol : String) (now : JsNumber) (source : MarkSource) (c : Option Candidate) :
    RefreshPhase :=
  match c.bind (admitCandidate cfg.maxAgeMs symbol now) with
  | some quote => .marked (some quote)
  | none =>
      match source with
      | .book => .reading .tick now
      | .tick => .reading .candle now
      | .candle => .marked none

def isFreshRow (now : JsNumber) (c : Option Candidate) : Bool :=
  match c with
  | some c => fresh c.ts now cfg.maxAgeMs
  | none => false

def answerRead (s : PollerState) (i : ℕ) (failed : Bool) : PollerState :=
  match s.refreshes[i]? with
  | some ⟨startedAt, startedOn, symbol :: rest, .reading source now⟩ =>
      if failed then
        -- The rejection leaves the loop, and the timer swallows it.
        { s with refreshes := s.refreshes.set i ⟨startedAt, startedOn, symbol :: rest, .ended⟩ }
      else
        let c := s.tables.candidate symbol source
        { s with
          refreshes := s.refreshes.set i
            ⟨startedAt, startedOn, symbol :: rest, afterRead cfg symbol now source c⟩
          freshReads :=
            if isFreshRow cfg now c then (i, symbol) :: s.freshReads else s.freshReads }
  | _ => s

def storeMark (s : PollerState) (i : ℕ) : PollerState :=
  match s.refreshes[i]? with
  | some ⟨startedAt, startedOn, symbol :: rest, .marked quote⟩ =>
      { s with
        -- `cache.set`, or `cache.delete` where there is no mark.
        cache := Function.update s.cache symbol quote
        refreshes := s.refreshes.set i ⟨startedAt, startedOn, rest, enterSymbol rest s.now⟩ }
  | _ => s

def pollerStep (s : PollerState) : PollerEvent → PollerState
  | .clock now => { s with now }
  | .write tables => { s with tables }
  | .start =>
      { s with
        refreshes := s.refreshes ++ [⟨s.now, s.tables, cfg.symbols, enterSymbol cfg.symbols s.now⟩] }
  | .answer i failed => answerRead cfg s i failed
  | .store i => storeMark s i

end Step

def bootPoller (tables : MarketTables) (now : JsNumber) : PollerState :=
  ⟨tables, now, fun _ => none, [], []⟩

/-- An undisturbed refresh has the mark of `markFor` after at most three reads. -/
theorem afterRead_markFor (cfg : DbQuoteTransport) (tables : MarketTables) (symbol : String)
    (now : JsNumber) :
    let read := fun source => afterRead cfg symbol now source (tables.candidate symbol source)
    let mark := RefreshPhase.marked (markFor cfg.maxAgeMs symbol now tables)
    read .book = mark ∨ read .book = .reading .tick now ∧
      (read .tick = mark ∨ read .tick = .reading .candle now ∧ read .candle = mark) := by
  dsimp only
  unfold markFor afterRead
  rw [List.findSome?_cons, List.findSome?_cons, List.findSome?_cons, List.findSome?_nil]
  cases (tables.candidate symbol .book).bind (admitCandidate cfg.maxAgeMs symbol now) with
  | some quote => exact .inl rfl
  | none =>
      apply Or.inr
      cases (tables.candidate symbol .tick).bind (admitCandidate cfg.maxAgeMs symbol now) with
      | some quote => exact ⟨rfl, .inl rfl⟩
      | none =>
          refine ⟨rfl, .inr ⟨rfl, ?_⟩⟩
          cases (tables.candidate symbol .candle).bind (admitCandidate cfg.maxAgeMs symbol now) <;> rfl

/-! ## A dead feed -/

/-- No row of the symbol was fresh when the refresh started. -/
def Refresh.dead (cfg : DbQuoteTransport) (q : Refresh) (symbol : String) : Prop :=
  let isFresh := fun (rowSymbol exchange : String) (ts : Instant) =>
    rowSymbol = symbol ∧ exchange ≠ "DEMO" ∧ fresh ts q.startedAt cfg.maxAgeMs
  (∀ r ∈ q.startedOn.orderbookSnapshots, ¬ isFresh r.symbol r.exchange r.ts) ∧
    (∀ r ∈ q.startedOn.marketTicks, ¬ isFresh r.symbol r.exchange r.ts) ∧
    ∀ r ∈ q.startedOn.marketCandles, ¬ isFresh r.symbol r.exchange r.ts

instance (cfg : DbQuoteTransport) (q : Refresh) (symbol : String) :
    Decidable (q.dead cfg symbol) := by
  unfold Refresh.dead; infer_instance

/-- A refresh that started after the `i`-th has read a fresh row. -/
def PollerState.ReadLater (s : PollerState) (i : ℕ) (symbol : String) : Prop :=
  ∃ r ∈ s.freshReads, i < r.1 ∧ r.2 = symbol

instance (s : PollerState) (i : ℕ) (symbol : String) : Decidable (s.ReadLater i symbol) := by
  unfold PollerState.ReadLater; infer_instance

/-- A dead feed is not served: once the refresh that met it has ended, the symbol has no mark until a
later refresh has read a fresh row. -/
def DeadFeedNull (cfg : DbQuoteTransport) (s : PollerState) : Prop :=
  ∀ i q, s.refreshes[i]? = some q → q.phase = .ended → ∀ symbol, q.dead cfg symbol →
    ¬ s.ReadLater i symbol → s.latest symbol = none

/-- The refresh is through with the symbol, or at its end. -/
def Refresh.Done (q : Refresh) (symbol : String) : Prop := q.phase = .ended ∨ symbol ∉ q.remaining

instance (q : Refresh) (symbol : String) : Decidable (q.Done symbol) := by
  unfold Refresh.Done; infer_instance

/-- A failed read leaves no mark of a feed that was dead at the start of its refresh. -/
def FailureLeavesNoMark (cfg : DbQuoteTransport) (s : PollerState) (i : ℕ) : Prop :=
  ∀ q ∈ s.refreshes[i]?, ∀ symbol ∈ q.remaining, q.dead cfg symbol →
    s.latest symbol = none ∨ s.ReadLater i symbol

/-- The symbol whose mark a refresh is about to store, and those after it. -/
def Refresh.storing? (q : Refresh) : Option (String × List String) :=
  match q.remaining, q.phase with
  | symbol :: rest, .marked (some _) => some (symbol, rest)
  | _, _ => none

/-- A mark is stored only for a feed that was alive when its refresh started, and not past a later
refresh that met the feed dead and is through with it. -/
def StoreIsTimely (cfg : DbQuoteTransport) (s : PollerState) (i : ℕ) : Prop :=
  ∀ q ∈ s.refreshes[i]?, ∀ p ∈ q.storing?,
    (p.1 ∉ p.2 → q.dead cfg p.1 → s.ReadLater i p.1) ∧
      ∀ r ∈ s.refreshes.zipIdx, i < r.2 → r.1.Done p.1 → r.1.dead cfg p.1 → s.ReadLater r.2 p.1

def Orderly (cfg : DbQuoteTransport) (s : PollerState) : PollerEvent → Prop
  | .answer i true => FailureLeavesNoMark cfg s i
  | .store i => StoreIsTimely cfg s i
  | _ => True

instance (cfg : DbQuoteTransport) (s : PollerState) (e : PollerEvent) :
    Decidable (Orderly cfg s e) := by
  unfold Orderly FailureLeavesNoMark StoreIsTimely
  split <;> infer_instance

/-! ### What every orderly step keeps -/

/-- The invariant behind `DeadFeedNull`: a refresh has its effect on a symbol when it is through with
it. -/
structure PollerOk (cfg : DbQuoteTransport) (s : PollerState) : Prop where
  done : ∀ i q, s.refreshes[i]? = some q → ∀ symbol, q.Done symbol → q.dead cfg symbol →
    s.latest symbol = none ∨ s.ReadLater i symbol
  untracked : ∀ symbol ∉ cfg.symbols, s.latest symbol = none
  tracked : ∀ q ∈ s.refreshes, ∀ symbol ∈ q.remaining, symbol ∈ cfg.symbols
  /-- A refresh that is about to store a mark has read a fresh row. -/
  read : ∀ i q, s.refreshes[i]? = some q → ∀ p ∈ q.storing?, (i, p.1) ∈ s.freshReads

theorem PollerState.ReadLater.mono {s s' : PollerState} (h : s.freshReads ⊆ s'.freshReads) {i : ℕ}
    {symbol : String} (hread : s.ReadLater i symbol) : s'.ReadLater i symbol := by
  obtain ⟨r, hr, hlater⟩ := hread
  exact ⟨r, h hr, hlater⟩

/-- Replacing one refresh. -/
theorem getElem?_set_cases {α : Type*} {l : List α} {i k : ℕ} {a b : α}
    (h : (l.set i a)[k]? = some b) : (k = i ∧ b = a) ∨ (k ≠ i ∧ l[k]? = some b) := by
  rw [List.getElem?_set] at h
  split at h
  · rename_i heq
    split at h
    · exact .inl ⟨heq.symm, (Option.some.inj h).symm⟩
    · cases h
  · rename_i hne
    exact .inr ⟨fun heq => hne heq.symm, h⟩

section Steps

variable {cfg : DbQuoteTransport} {s s' : PollerState} {i : ℕ}

/-- One refresh moves on: what is left to show of the new state. -/
theorem pollerOk_set (hok : PollerOk cfg s) {q' : Refresh}
    (hrefreshes : s'.refreshes = s.refreshes.set i q') (hreads : s.freshReads ⊆ s'.freshReads)
    (hothers : ∀ k q, k ≠ i → s.refreshes[k]? = some q → ∀ symbol, q.Done symbol →
      q.dead cfg symbol → s'.latest symbol = none ∨ s'.ReadLater k symbol)
    (hdone : ∀ symbol, q'.Done symbol → q'.dead cfg symbol →
      s'.latest symbol = none ∨ s'.ReadLater i symbol)
    (huntracked : ∀ symbol ∉ cfg.symbols, s'.latest symbol = none)
    (htracked : ∀ symbol ∈ q'.remaining, symbol ∈ cfg.symbols)
    (hread : ∀ p ∈ q'.storing?, (i, p.1) ∈ s'.freshReads) : PollerOk cfg s' := by
  constructor
  · intro k q hk
    rw [hrefreshes] at hk
    rcases getElem?_set_cases hk with ⟨rfl, rfl⟩ | ⟨hne, hk⟩
    · exact hdone
    · exact hothers k q hne hk
  · exact huntracked
  · intro q hq
    rw [hrefreshes] at hq
    rcases List.mem_or_eq_of_mem_set hq with hq | rfl
    · exact hok.tracked q hq
    · exact htracked
  · intro k q hk
    rw [hrefreshes] at hk
    rcases getElem?_set_cases hk with ⟨rfl, rfl⟩ | ⟨hne, hk⟩
    · exact hread
    · exact fun p hp => hreads (hok.read k q hk p hp)

theorem afterRead_ne_ended (symbol : String) (now : JsNumber) (source : MarkSource)
    (c : Option Candidate) : afterRead cfg symbol now source c ≠ .ended := by
  unfold afterRead
  split
  · exact RefreshPhase.noConfusion
  · cases source <;> exact RefreshPhase.noConfusion

/-- A mark comes from a fresh row. -/
theorem isFreshRow_of_marked {symbol : String} {now : JsNumber} {source : MarkSource}
    {c : Option Candidate} {quote : Quote}
    (h : afterRead cfg symbol now source c = .marked (some quote)) : isFreshRow cfg now c := by
  unfold afterRead at h
  split at h
  · rename_i admitted hadmit
    obtain ⟨row, rfl, hrow⟩ := Option.bind_eq_some_iff.mp hadmit
    unfold admitCandidate at hrow
    split at hrow
    · rename_i hfresh
      exact hfresh
    · cases hrow
  · cases source <;> cases h

theorem storing?_enterSymbol (startedAt : JsNumber) (startedOn : MarketTables)
    (remaining : List String) (now : JsNumber) :
    (Refresh.mk startedAt startedOn remaining (enterSymbol remaining now)).storing? = none := by
  unfold Refresh.storing? enterSymbol
  cases remaining with
  | nil => rfl
  | cons symbol rest => rfl

theorem pollerOk_answer (hok : PollerOk cfg s) (failed : Bool)
    (horderly : Orderly cfg s (.answer i failed)) : PollerOk cfg (answerRead cfg s i failed) := by
  unfold answerRead
  split
  · rename_i startedAt startedOn symbol rest source now hget
    have htracked : ∀ y ∈ symbol :: rest, y ∈ cfg.symbols :=
      hok.tracked _ (List.mem_of_getElem? hget)
    cases failed with
    | true =>
        rw [if_pos rfl]
        refine pollerOk_set hok rfl ?_ ?_ ?_ ?_ ?_ ?_
        · exact fun _ h => h
        · intro k q _ hk
          exact hok.done k q hk
        · intro y _ hdead
          by_cases hy : y ∈ symbol :: rest
          · exact horderly _ hget y hy hdead
          · exact hok.done i _ hget y (.inr hy) hdead
        · exact hok.untracked
        · exact htracked
        · intro p hp
          cases hp
    | false =>
        rw [if_neg Bool.false_ne_true]
        dsimp only
        have hreads : s.freshReads ⊆ if isFreshRow cfg now (s.tables.candidate symbol source) then
            (i, symbol) :: s.freshReads else s.freshReads := by
          split
          · exact List.subset_cons_self _ _
          · exact fun _ h => h
        apply pollerOk_set hok rfl hreads
        · intro k q _ hk y hdone hdead
          exact (hok.done k q hk y hdone hdead).imp_right fun h => h.mono hreads
        · intro y hdone hdead
          rcases hdone with hended | hnotin
          · exact absurd hended (afterRead_ne_ended _ _ _ _)
          · exact (hok.done i _ hget y (.inr hnotin) hdead).imp_right fun h => h.mono hreads
        · exact hok.untracked
        · exact htracked
        · intro p hp
          unfold Refresh.storing? at hp
          dsimp only at hp
          split at hp
          · rename_i quote hlist hphase
            cases hlist
            cases hp
            rw [if_pos (isFreshRow_of_marked hphase)]
            exact List.mem_cons_self
          · cases hp
  · exact hok

theorem pollerOk_store (hok : PollerOk cfg s) (htimely : StoreIsTimely cfg s i) :
    PollerOk cfg (storeMark s i) := by
  unfold storeMark
  split
  · rename_i startedAt startedOn symbol rest quote hget
    have hmem := List.mem_of_getElem? hget
    have htracked := hok.tracked _ hmem
    -- Only the entry of the symbol changes.
    have hlatest : ∀ y, y ≠ symbol → Function.update s.cache symbol quote y = s.latest y :=
      fun y hy => Function.update_of_ne hy _ _
    have hself : Function.update s.cache symbol quote symbol = quote := Function.update_self ..
    refine pollerOk_set hok rfl ?_ ?_ ?_ ?_ ?_ ?_
    · exact fun _ h => h
    · intro k q hne hk y hdone hdead
      show Function.update s.cache symbol quote y = none ∨ s.ReadLater k y
      by_cases hy : y = symbol
      · subst hy
        rw [hself]
        cases quote with
        | none => exact .inl rfl
        | some quote =>
            apply Or.inr
            by_cases hlt : k < i
            · exact ⟨(i, y), hok.read i _ hget (y, rest) rfl, hlt, rfl⟩
            · exact (htimely _ hget (y, rest) rfl).2 (q, k)
                (List.mk_mem_zipIdx_iff_getElem?.mpr hk) (by show i < k; omega) hdone hdead
      · rw [hlatest y hy]
        exact hok.done k q hk y hdone hdead
    · intro y hdone hdead
      show Function.update s.cache symbol quote y = none ∨ s.ReadLater i y
      have hrest : y ∉ rest := by
        rcases hdone with hended | hnotin
        · change enterSymbol rest s.now = .ended at hended
          unfold enterSymbol at hended
          split at hended
          · rename_i hnil
            rw [hnil]
            exact List.not_mem_nil
          · cases hended
        · exact hnotin
      by_cases hy : y = symbol
      · subst hy
        rw [hself]
        cases quote with
        | none => exact .inl rfl
        | some quote => exact .inr ((htimely _ hget (y, rest) rfl).1 hrest hdead)
      · rw [hlatest y hy]
        exact hok.done i _ hget y (.inr (by simp [hy, hrest])) hdead
    · intro y hy
      show Function.update s.cache symbol quote y = none
      rw [hlatest y (fun heq => hy (heq ▸ htracked symbol List.mem_cons_self))]
      exact hok.untracked y hy
    · exact fun y hy => htracked y (List.mem_cons_of_mem _ hy)
    · intro p hp
      rw [storing?_enterSymbol] at hp
      cases hp
  · exact hok

theorem pollerOk_start (hok : PollerOk cfg s) : PollerOk cfg (pollerStep cfg s .start) := by
  have hnew : ∀ (k : ℕ) (q : Refresh), (pollerStep cfg s .start).refreshes[k]? = some q →
      s.refreshes[k]? = some q ∨
        q = Refresh.mk s.now s.tables cfg.symbols (enterSymbol cfg.symbols s.now) := by
    intro k q hk
    change (s.refreshes ++ [_])[k]? = some q at hk
    by_cases hlt : k < s.refreshes.length
    · rw [List.getElem?_append_left hlt] at hk
      exact .inl hk
    · rw [List.getElem?_append_right (by omega)] at hk
      exact .inr (List.mem_singleton.mp (List.mem_of_getElem? hk))
  constructor
  · intro k q hk y hdone hdead
    rcases hnew k q hk with hk | rfl
    · exact hok.done k q hk y hdone hdead
    · -- It is through only with the symbols it does not have.
      have hnotin : y ∉ cfg.symbols := by
        rcases hdone with hended | hnotin
        · change enterSymbol cfg.symbols s.now = .ended at hended
          unfold enterSymbol at hended
          split at hended
          · rename_i hnil
            rw [hnil]
            exact List.not_mem_nil
          · cases hended
        · exact hnotin
      exact .inl (hok.untracked y hnotin)
  · exact hok.untracked
  · intro q hq
    rcases List.mem_append.mp hq with hq | hq
    · exact hok.tracked q hq
    · rw [List.mem_singleton.mp hq]
      exact fun _ h => h
  · intro k q hk p hp
    rcases hnew k q hk with hk | rfl
    · exact hok.read k q hk p hp
    · rw [storing?_enterSymbol] at hp
      cases hp

theorem pollerOk_step (hok : PollerOk cfg s) (e : PollerEvent) (horderly : Orderly cfg s e) :
    PollerOk cfg (pollerStep cfg s e) := by
  cases e with
  | clock now => exact ⟨hok.done, hok.untracked, hok.tracked, hok.read⟩
  | write tables => exact ⟨hok.done, hok.untracked, hok.tracked, hok.read⟩
  | start => exact pollerOk_start hok
  | answer i failed => exact pollerOk_answer hok failed horderly
  | store i => exact pollerOk_store hok horderly

theorem pollerOk_boot (tables : MarketTables) (now : JsNumber) :
    PollerOk cfg (bootPoller tables now) := by
  constructor
  · intro i q h
    cases h
  · exact fun _ _ => rfl
  · exact fun q hq => absurd hq List.not_mem_nil
  · intro i q h
    cases h

theorem deadFeedNull_of_ok (hok : PollerOk cfg s) : DeadFeedNull cfg s := by
  intro i q hget hended symbol hdead hread
  exact (hok.done i q hget symbol (.inl hended) hdead).resolve_right hread

end Steps

/-- A read that fails against the condition: the dead feed is served. -/
theorem served_of_failure {cfg : DbQuoteTransport} {s : PollerState} {i : ℕ} {q : Refresh}
    {source : MarkSource} {now : JsNumber} {symbol : String} (hget : s.refreshes[i]? = some q)
    (hphase : q.phase = .reading source now) (hsymbol : symbol ∈ q.remaining)
    (hdead : q.dead cfg symbol) (hmark : s.latest symbol ≠ none) (hread : ¬ s.ReadLater i symbol) :
    ¬ DeadFeedNull cfg (answerRead cfg s i true) := by
  intro hnull
  obtain ⟨startedAt, startedOn, remaining, phase⟩ := q
  change phase = .reading source now at hphase
  subst hphase
  cases remaining with
  | nil => exact absurd hsymbol List.not_mem_nil
  | cons first rest =>
      unfold answerRead at hnull
      rw [hget] at hnull
      dsimp only at hnull
      rw [if_pos rfl] at hnull
      have hended : (s.refreshes.set i ⟨startedAt, startedOn, first :: rest, .ended⟩)[i]? =
          some ⟨startedAt, startedOn, first :: rest, .ended⟩ :=
        List.getElem?_set_self (List.getElem?_eq_some_iff.mp hget).1
      exact hmark (hnull i _ hended rfl symbol hdead hread)

/-- Over every run whose failed reads leave no mark of a dead feed and whose marks are stored in time, a
dead feed is not served. -/
theorem dead_feed_null {cfg : DbQuoteTransport} {tables : MarketTables} {now : JsNumber}
    {events : List PollerEvent}
    (h : RunMeets (pollerStep cfg) (Orderly cfg) (bootPoller tables now) events) :
    DeadFeedNull cfg (run (pollerStep cfg) (bootPoller tables now) events) := by
  have hstep : ∀ s e, PollerOk cfg s → Orderly cfg s e → PollerOk cfg (pollerStep cfg s e) :=
    fun _ e hok => pollerOk_step hok e
  exact deadFeedNull_of_ok (run_invariant hstep (pollerOk_boot tables now) h)

section Sample

def samplePoller : DbQuoteTransport := ⟨["BTC-PERP"], .fin 60000⟩

def sampleTables : MarketTables where
  orderbookSnapshots :=
    [⟨"DERIBIT", "BTC-PERP", ⟨"2026-01-01T00:00:00.000Z", .fin 1767225600000⟩,
      { bestBid := .fin 29999
        bestAsk := .fin 30001
        bestBidSize := .fin 1
        bestAskSize := .fin 1
        markPrice := some (.fin 30000)
        spreadBps := none }⟩]
  marketTicks := []
  marketCandles := []
  liquiditySnapshots := []

/-- The feed stops, and the next refresh finds nothing fresh in any source. -/
theorem dead_feed_null_stopped :
    DeadFeedNull samplePoller (run (pollerStep samplePoller)
      (bootPoller sampleTables (.fin 1767225610000))
      [.start, .answer 0 false, .store 0, .clock (.fin 1767226200000), .start, .answer 1 false,
        .answer 1 false, .answer 1 false, .store 1]) :=
  dead_feed_null (by decide +kernel)

/-- The same, but the read of the next refresh fails: it has ended, and the mark is still served. -/
theorem failed_read_keeps_mark :
    ¬ DeadFeedNull samplePoller (run (pollerStep samplePoller)
      (bootPoller sampleTables (.fin 1767225610000))
      [.start, .answer 0 false, .store 0, .clock (.fin 1767226200000), .start, .answer 1 true]) := by
  intro hnull
  have hnone := hnull 1 ⟨.fin 1767226200000, sampleTables, ["BTC-PERP"], .ended⟩ (by decide +kernel)
    rfl "BTC-PERP" (by decide +kernel) (by decide +kernel)
  exact absurd hnone (by decide +kernel)

end Sample

/-! ## What a missing mark means for an order -/

def normalize (q : Quote) : Quote := ⟨q.symbol, q.ts, quantizePrice (Execution.parseDecimal q.price)⟩

/-- `RealtimeProvider.quote` over a wired transport. -/
def realtimeQuote (s : PollerState) (symbol : String) : Except String (Option Quote) :=
  .ok ((s.latest symbol).map normalize)

/-- No mark, no order. -/
theorem referenceQuote_of_no_mark {cfg : AdapterConfig} {w : World} {s : PollerState}
    {intent : Execution.ExecutionIntent} (hquote : w.quote = realtimeQuote s)
    (hmark : s.latest intent.symbol = none) :
    referenceQuote cfg w intent =
      .error (.rejected "no market data — no price, no execution") := by
  have hnone : w.quote intent.symbol = .ok none := by
    rw [hquote, realtimeQuote, hmark]
    rfl
  unfold referenceQuote
  rw [hnone]

end NexusQuant.Market
