import NexusQuant.Ingestion.LiveFeatures

/-!
# No recompute is lost

What the last recompute of a symbol read, once nothing is in flight for it.  `Seen` says that a request
is dropped only while the running recompute has not begun its candle read, or began it after the
candle of the request was stored; `features_fresh` that after a run of such steps the features of a
quiet symbol are those of all its candles.
-/

namespace NexusQuant.Ingestion

open Run

variable {V : Type*}

/-! ## What a step does -/

/-- The candle read a recompute has begun. -/
def RecomputeStage.candleRead? : RecomputeStage → Option CandleRead
  | .counting _ => none
  | .counted _ _ => none
  | .fetching _ => none
  | .warming _ _ _ => none
  | .recounting => none
  | .reading startedAt => some ⟨startedAt, none⟩
  | .read startedAt found => some ⟨startedAt, some found⟩
  | .validating startedAt found => some ⟨startedAt, some found⟩
  | .computing startedAt found => some ⟨startedAt, some found⟩
  | .announcing startedAt found => some ⟨startedAt, some found⟩

def HandlerStage.upsertedAt? : HandlerStage → Option ℕ
  | .upserting _ => none
  | .publishing upsertedAt => some upsertedAt

/-- Whether the snapshot of the recompute is still to come. -/
def RecomputeStage.undecided : RecomputeStage → Bool
  | .announcing _ _ => false
  | _ => true

/-- The candles are enough and pass validation. -/
def LiveIngestion.Admissible (live : LiveIngestion V) (found : List NormalizedCandle) : Prop :=
  minFeatureCandles ≤ found.length ∧ live.passed found = true

namespace LiveState

/-- The kinds of steps, each with what it found and what it changed. -/
inductive Move (live : LiveIngestion V) (s : LiveState V) : LiveStep → LiveState V → Prop
  | idle (a : LiveStep) : Move live s a s
  | arrive (candle : NormalizedCandle) :
      Move live s (.onCandle candle) { s with handlers := s.handlers ++ [⟨candle, .upserting 0⟩] }
  | write {i : ℕ} {candle : NormalizedCandle} {done : ℕ} {batch : List NormalizedCandle}
      (hget : s.handlers[i]? = some ⟨candle, .upserting done⟩) (hown : ∀ c ∈ batch, c = candle) :
      Move live s (.handler i)
        { s.persist batch with handlers := s.handlers.set i ⟨candle, .upserting (done + 1)⟩ }
  | complete {i : ℕ} {candle : NormalizedCandle} {done : ℕ}
      (hget : s.handlers[i]? = some ⟨candle, .upserting done⟩) :
      Move live s (.handler i)
        { s.completeUpsert candle.symbol with
          handlers := s.handlers.set i ⟨candle, .publishing s.now⟩ }
  | drop {i : ℕ} {candle : NormalizedCandle} {upsertedAt : ℕ}
      (hget : s.handlers[i]? = some ⟨candle, .publishing upsertedAt⟩)
      (hbusy : live.quantBaseUrl = none ∨ candle.symbol ∈ s.recomputing) :
      Move live s (.handler i) { s with handlers := s.handlers.eraseIdx i }
  | start {i : ℕ} {candle : NormalizedCandle} {upsertedAt : ℕ} {new : RecomputeStage}
      (hget : s.handlers[i]? = some ⟨candle, .publishing upsertedAt⟩)
      (hfree : candle.symbol ∉ s.recomputing) (hnew : new.candleRead? = none) :
      Move live s (.handler i)
        (LiveState.begin { s with handlers := s.handlers.eraseIdx i } candle.symbol new)
  | startRead {i : ℕ} {candle : NormalizedCandle} {upsertedAt : ℕ}
      (hget : s.handlers[i]? = some ⟨candle, .publishing upsertedAt⟩)
      (hfree : candle.symbol ∉ s.recomputing) :
      Move live s (.handler i)
        ((LiveState.sendRead { s with handlers := s.handlers.eraseIdx i } candle.symbol).begin
          candle.symbol (.reading s.now))
  | prepare {a : LiveStep} {i : ℕ} {symbol : String} {old new : RecomputeStage}
      (hget : s.recomputes[i]? = some ⟨symbol, old⟩) (hold : old.candleRead? = none)
      (hnew : new.candleRead? = none) : Move live s a (s.enter i symbol new)
  | warm {i : ℕ} {symbol : String} {old new : RecomputeStage} {batch : List NormalizedCandle}
      (hget : s.recomputes[i]? = some ⟨symbol, old⟩) (hold : old.candleRead? = none)
      (hnew : new.candleRead? = none) (hown : ∀ c ∈ batch, c.symbol = symbol) :
      Move live s (.recompute i) ((s.persist batch).enter i symbol new)
  | warmed {i : ℕ} {symbol : String} {old new : RecomputeStage}
      (hget : s.recomputes[i]? = some ⟨symbol, old⟩) (hold : old.candleRead? = none)
      (hnew : new.candleRead? = none) :
      Move live s (.recompute i) ((s.completeUpsert symbol).enter i symbol new)
  | send {i : ℕ} {symbol : String} {old : RecomputeStage}
      (hget : s.recomputes[i]? = some ⟨symbol, old⟩) (hold : old.candleRead? = none) :
      Move live s (.recompute i) ((s.sendRead symbol).enter i symbol (.reading s.now))
  | read {i : ℕ} {symbol : String} {startedAt : ℕ}
      (hget : s.recomputes[i]? = some ⟨symbol, .reading startedAt⟩) :
      Move live s (.recompute i) (LiveState.enter
        { s with
          lastRead := s.lastRead.set symbol ⟨startedAt, some (live.window s.candles symbol)⟩ }
        i symbol (.read startedAt (live.window s.candles symbol)))
  | proceed {i : ℕ} {symbol : String} {old new : RecomputeStage} {startedAt : ℕ}
      {found : List NormalizedCandle} (hget : s.recomputes[i]? = some ⟨symbol, old⟩)
      (hold : old.candleRead? = some ⟨startedAt, some found⟩)
      (hnew : new.candleRead? = some ⟨startedAt, some found⟩) (hundecided : new.undecided = true) :
      Move live s (.recompute i) (s.enter i symbol new)
  | store {i : ℕ} {symbol : String} {startedAt : ℕ} {found : List NormalizedCandle}
      {last : NormalizedCandle} (hget : s.recomputes[i]? = some ⟨symbol, .computing startedAt found⟩)
      (hlast : found.getLast? = some last) :
      Move live s (.recompute i) (LiveState.enter
        { s with snapshots := s.snapshots.set (symbol, last.ts) (live.computeFeatures found) }
        i symbol (.announcing startedAt found))
  | finish {i : ℕ} {symbol : String} {old : RecomputeStage} {startedAt : ℕ}
      {found : List NormalizedCandle} (hget : s.recomputes[i]? = some ⟨symbol, old⟩)
      (hold : old.candleRead? = some ⟨startedAt, some found⟩)
      (hdecided : old.undecided = true → ¬live.Admissible found) :
      Move live s (.recompute i) (s.finish i symbol)

theorem mem_of_mem_chunk {α : Type*} {items batch : List α} {size i : ℕ}
    (h : (chunk items size)[i]? = some batch) : ∀ a ∈ batch, a ∈ items := by
  intro a ha
  obtain ⟨k, -, rfl⟩ := List.mem_map.mp (List.mem_of_getElem? h)
  exact List.mem_of_mem_drop (List.mem_of_mem_take ha)

variable {live : LiveIngestion V} {s : LiveState V}

theorem move_handler (i : ℕ) : Move live s (.handler i) (s.stepHandler live i) := by
  unfold stepHandler
  split
  · exact .idle _
  · rename_i candle done hget
    split
    · rename_i batch hbatch
      refine .write hget fun c hc => ?_
      exact List.mem_singleton.mp (mem_of_mem_chunk hbatch c hc)
    · exact .complete hget
  · rename_i candle upsertedAt hget
    unfold recomputeFeatures
    split
    · rename_i hbusy
      exact .drop hget hbusy
    · rename_i hfree
      split
      · exact .start hget (fun h => hfree (.inr h)) rfl
      · exact .startRead hget fun h => hfree (.inr h)

theorem move_recompute (i : ℕ) : Move live s (.recompute i) (s.stepRecompute live i) := by
  unfold stepRecompute
  split
  · exact .idle _
  · rename_i symbol assetType hget
    exact .prepare hget rfl rfl
  · rename_i symbol assetType count hget
    split
    · exact .send hget rfl
    · exact .prepare hget rfl rfl
  · exact .idle _
  · rename_i symbol assetType bars done hget
    split
    · rename_i batch hbatch
      refine .warm hget rfl rfl fun c hc => ?_
      obtain ⟨bar, -, rfl⟩ := List.mem_map.mp (mem_of_mem_chunk hbatch c hc)
      rfl
    · exact .warmed hget rfl rfl
  · rename_i symbol hget
    exact .send hget rfl
  · rename_i symbol startedAt hget
    exact .read hget
  · rename_i symbol startedAt found hget
    split
    · rename_i hshort
      refine .finish hget rfl fun _ h => ?_
      have hmin : minFeatureCandles ≤ found.length := h.1
      have hpos : 0 < minFeatureCandles := by decide
      omega
    · exact .proceed hget rfl rfl rfl
  · rename_i symbol startedAt found hget
    split
    · exact .proceed hget rfl rfl rfl
    · rename_i hfailed
      exact .finish hget rfl fun _ h => hfailed h.2
  · rename_i symbol startedAt found hget
    split
    · rename_i hnone
      refine .finish hget rfl fun _ h => ?_
      have hmin : minFeatureCandles ≤ found.length := h.1
      rw [List.getLast?_eq_none_iff.mp hnone] at hmin
      exact absurd hmin (by decide)
    · rename_i last hlast
      exact .store hget hlast
  · rename_i symbol startedAt found hget
    exact .finish hget rfl nofun

theorem move_act (a : LiveStep) : Move live s a (s.act live a) := by
  cases a with
  | onCandle candle => exact .arrive candle
  | handler i => exact move_handler i
  | recompute i => exact move_recompute i
  | fetched i bars =>
      show Move live s _ (s.act live (.fetched i bars))
      unfold act
      dsimp only
      split
      · rename_i symbol assetType hget
        exact .prepare hget rfl rfl
      · exact .idle _

/-! ## The candle store -/

theorem get?_upsertBatch {table : CandleTable} {key : CandleScope × ℤ} (batch : List NormalizedCandle)
    (h : ∃ row, table.get? key = some row) : ∃ row, (upsertBatch table batch).get? key = some row := by
  induction batch generalizing table with
  | nil => exact h
  | cons c batch ih =>
      apply ih
      rw [LiveMap.get?_set]
      by_cases hkey : key = (c.scope, c.ts)
      · exact ⟨c.row, if_pos hkey⟩
      · rw [if_neg hkey]
        exact h

theorem window_upsertBatch {sym symbol : String} (hne : symbol ≠ sym) (table : CandleTable)
    {batch : List NormalizedCandle} (hown : ∀ c ∈ batch, c.symbol = symbol) :
    live.window (upsertBatch table batch) sym = live.window table sym := by
  have hnewest : ∀ n, (upsertBatch table batch).newest (live.scope sym) n =
      table.newest (live.scope sym) n := by
    intro n
    induction batch generalizing table with
    | nil => rfl
    | cons c batch ih =>
        have hc : c.scope ≠ live.scope sym := by
          intro heq
          apply hne
          rw [← hown c List.mem_cons_self]
          exact congrArg CandleScope.symbol heq
        show (upsertBatch (table.set (c.scope, c.ts) c.row) batch).newest _ _ = _
        rw [ih _ fun d hd => hown d (List.mem_cons_of_mem c hd), LiveMap.newest_set_of_ne hc]
  unfold LiveIngestion.window findCandles
  rw [hnewest]

theorem get?_of_mem_window {table : CandleTable} {sym : String} {x : NormalizedCandle}
    (h : x ∈ live.window table sym) : ∃ row, table.get? (live.scope sym, x.ts) = some row := by
  obtain ⟨c, hc, rfl⟩ := List.mem_map.mp h
  obtain ⟨hmem, hscope⟩ := LiveMap.mem_of_mem_newest (List.mem_reverse.mp hc)
  exact ⟨c.value, LiveMap.get?_eq_some.mpr ⟨c, hmem, Prod.ext hscope rfl, rfl⟩⟩

/-- No candle of the symbol is later than the last one of a read. -/
theorem le_of_getLast_window {table : CandleTable} {sym : String} {last : NormalizedCandle}
    (h : (live.window table sym).getLast? = some last) {ts : ℤ}
    (hts : ∃ row, table.get? (live.scope sym, ts) = some row) : ts ≤ last.ts := by
  unfold LiveIngestion.window findCandles at h
  rw [List.getLast?_map, List.getLast?_reverse, Option.map_eq_some_iff] at h
  obtain ⟨c, hc, rfl⟩ := h
  obtain ⟨row, hrow⟩ := hts
  obtain ⟨d, hd, hkey, -⟩ := LiveMap.get?_eq_some.mp hrow
  have hle := LiveMap.le_of_head_newest hc hd (by rw [hkey])
  rw [hkey] at hle
  exact hle

/-! ## The busy flags -/

/-- The busy flags are those of the recomputes, of which a symbol has at most one. -/
structure Flagged (s : LiveState V) : Prop where
  busy : s.recomputing = s.recomputes.map Recompute.symbol
  nodup : (s.recomputes.map Recompute.symbol).Nodup

theorem Flagged.enter {t : LiveState V} (h : Flagged s) {i : ℕ} {symbol : String}
    {old new : RecomputeStage} (hget : s.recomputes[i]? = some ⟨symbol, old⟩)
    (hflags : t.recomputing = s.recomputing) (hruns : t.recomputes = s.recomputes) :
    Flagged (t.enter i symbol new) := by
  have hmap : (s.recomputes.set i ⟨symbol, new⟩).map Recompute.symbol =
      s.recomputes.map Recompute.symbol := Slots.map_set hget rfl
  constructor
  · show t.recomputing = (t.recomputes.set i ⟨symbol, new⟩).map Recompute.symbol
    rw [hflags, hruns, hmap, h.busy]
  · show ((t.recomputes.set i ⟨symbol, new⟩).map Recompute.symbol).Nodup
    rw [hruns, hmap]
    exact h.nodup

theorem Flagged.begin {t : LiveState V} (h : Flagged s) {symbol : String} {new : RecomputeStage}
    (hfree : symbol ∉ s.recomputing) (hflags : t.recomputing = s.recomputing)
    (hruns : t.recomputes = s.recomputes) : Flagged (t.begin symbol new) := by
  constructor
  · show t.recomputing ++ [symbol] = (t.recomputes ++ [_]).map Recompute.symbol
    rw [hflags, hruns, List.map_append, h.busy]
    rfl
  · show ((t.recomputes ++ [_]).map Recompute.symbol).Nodup
    rw [hruns, List.map_append, ← h.busy]
    rw [h.busy] at hfree ⊢
    exact List.Nodup.append h.nodup (List.nodup_singleton _)
      (List.disjoint_singleton.mpr hfree)

theorem Flagged.move {a : LiveStep} {t : LiveState V} (h : Flagged s) (m : Move live s a t) :
    Flagged t := by
  cases m with
  | idle => exact h
  | arrive => exact ⟨h.busy, h.nodup⟩
  | write => exact ⟨h.busy, h.nodup⟩
  | complete => exact ⟨h.busy, h.nodup⟩
  | drop => exact ⟨h.busy, h.nodup⟩
  | start _ hfree => exact h.begin hfree rfl rfl
  | startRead _ hfree => exact h.begin hfree rfl rfl
  | prepare hget => exact h.enter hget rfl rfl
  | warm hget => exact h.enter hget rfl rfl
  | warmed hget => exact h.enter hget rfl rfl
  | send hget => exact h.enter hget rfl rfl
  | read hget => exact h.enter hget rfl rfl
  | proceed hget => exact h.enter hget rfl rfl
  | store hget => exact h.enter hget rfl rfl
  | finish hget =>
      have hmap := Slots.map_eraseIdx hget h.nodup
      constructor
      · show s.recomputing.filter _ = (s.recomputes.eraseIdx _).map Recompute.symbol
        rw [hmap, h.busy]
      · show ((s.recomputes.eraseIdx _).map Recompute.symbol).Nodup
        rw [hmap]
        exact h.nodup.filter _

/-! ## What the last read covers -/

/-- A request of the symbol finds no recompute that began its candle read before the candle of the
request was stored. -/
def Seen (sym : String) (s : LiveState V) : LiveStep → Prop
  | .handler i => ∀ h ∈ s.handlers[i]?, h.candle.symbol = sym → ∀ u ∈ h.stage.upsertedAt?,
      ∀ r ∈ s.recomputes, r.symbol = sym → ∀ c ∈ r.stage.candleRead?, u < c.startedAt
  | _ => True

instance (sym : String) (s : LiveState V) : DecidablePred (Seen sym s)
  | .handler i => inferInstanceAs (Decidable (∀ h ∈ s.handlers[i]?, h.candle.symbol = sym →
      ∀ u ∈ h.stage.upsertedAt?, ∀ r ∈ s.recomputes, r.symbol = sym →
      ∀ c ∈ r.stage.candleRead?, u < c.startedAt))
  | .onCandle _ => .isTrue trivial
  | .recompute _ => .isTrue trivial
  | .fetched _ _ => .isTrue trivial

/-- A recompute of the symbol is on its way to its candle read. -/
def Warming (s : LiveState V) (sym : String) : Prop :=
  ∃ r ∈ s.recomputes, r.symbol = sym ∧ r.stage.candleRead? = none

/-- A candle of the symbol that was stored at `u` is being announced. -/
def Publishing (s : LiveState V) (sym : String) (u : ℕ) : Prop :=
  ∃ h ∈ s.handlers, h.candle.symbol = sym ∧ h.stage = .publishing u

/-- What was stored at `u` is read, will be read, or its request is to come. -/
def Covers (s : LiveState V) (sym : String) (u : ℕ) : Prop :=
  (∃ c, s.lastRead.get? sym = some c ∧ u < c.startedAt) ∨ s.Warming sym ∨ s.Publishing sym u

structure Tracked (s : LiveState V) (sym : String) : Prop where
  upsertPast : ∀ u, s.lastUpsert.get? sym = some u → u < s.now
  readPast : ∀ c, s.lastRead.get? sym = some c → c.startedAt < s.now
  /-- A recompute past its read has made the last one. -/
  link : ∀ r ∈ s.recomputes, r.symbol = sym → ∀ c, r.stage.candleRead? = some c →
    s.lastRead.get? sym = some c

variable {sym : String} {t : LiveState V} {u : ℕ}

theorem warming_set {i : ℕ} {symbol : String} {old new : RecomputeStage}
    (hget : s.recomputes[i]? = some ⟨symbol, old⟩)
    (ht : t.recomputes = s.recomputes.set i ⟨symbol, new⟩)
    (hkeep : symbol = sym → old.candleRead? = none → new.candleRead? = none)
    (h : s.Warming sym) : t.Warming sym := by
  obtain ⟨r, hr, hsym, hnone⟩ := h
  unfold Warming
  rw [ht]
  rcases Slots.eq_or_mem_set hget hr with rfl | hmem
  · exact ⟨⟨symbol, new⟩, Slots.mem_set_self hget, hsym, hkeep hsym hnone⟩
  · exact ⟨r, hmem, hsym, hnone⟩

theorem warming_enter {i : ℕ} {old new : RecomputeStage}
    (hget : s.recomputes[i]? = some ⟨sym, old⟩) (hnew : new.candleRead? = none)
    (ht : t.recomputes = s.recomputes.set i ⟨sym, new⟩) : t.Warming sym := by
  refine ⟨⟨sym, new⟩, ?_, rfl, hnew⟩
  rw [ht]
  exact Slots.mem_set_self hget

theorem warming_append {r : Recompute} (ht : t.recomputes = s.recomputes ++ [r])
    (h : s.Warming sym) : t.Warming sym := by
  obtain ⟨q, hq, hsym, hnone⟩ := h
  refine ⟨q, ?_, hsym, hnone⟩
  rw [ht]
  exact List.mem_append_left _ hq

/-- A recompute that leaves is past its read. -/
theorem warming_eraseIdx {i : ℕ} {r : Recompute} {c : CandleRead} (hget : s.recomputes[i]? = some r)
    (ht : t.recomputes = s.recomputes.eraseIdx i) (hpast : r.stage.candleRead? = some c)
    (h : s.Warming sym) : t.Warming sym := by
  obtain ⟨q, hq, hsym, hnone⟩ := h
  refine ⟨q, ?_, hsym, hnone⟩
  rw [ht]
  rcases Slots.eq_or_mem_eraseIdx hget hq with rfl | hmem
  · rw [hpast] at hnone
    cases hnone
  · exact hmem

/-- The handler of another candle leaves, or moves on before it announces. -/
theorem publishing_of_ne {h : CandleHandler} {rest : List CandleHandler}
    (hkeep : ∀ g ∈ s.handlers, g = h ∨ g ∈ rest) (ht : t.handlers = rest)
    (hne : h.candle.symbol = sym → h.stage ≠ .publishing u) (hp : s.Publishing sym u) :
    t.Publishing sym u := by
  obtain ⟨g, hg, hsym, hstage⟩ := hp
  refine ⟨g, ?_, hsym, hstage⟩
  rw [ht]
  rcases hkeep g hg with rfl | hmem
  · exact absurd hstage (hne hsym)
  · exact hmem

theorem Tracked.link_move {a : LiveStep} (h : Tracked s sym) (hflagged : Flagged s)
    (m : Move live s a t) : ∀ r ∈ t.recomputes, r.symbol = sym → ∀ c, r.stage.candleRead? = some c →
      t.lastRead.get? sym = some c := by
  have hset : ∀ {i : ℕ} {symbol : String} {old new : RecomputeStage},
      s.recomputes[i]? = some ⟨symbol, old⟩ →
      (symbol = sym → ∀ c, new.candleRead? = some c → s.lastRead.get? sym = some c) →
      ∀ r ∈ s.recomputes.set i ⟨symbol, new⟩, r.symbol = sym → ∀ c, r.stage.candleRead? = some c →
        s.lastRead.get? sym = some c := by
    intro i symbol old new hget hnew r hr hsym
    rcases List.mem_or_eq_of_mem_set hr with hold | rfl
    · exact h.link r hold hsym
    · exact hnew hsym
  -- Whoever begins or answers a read is the only recompute of its symbol.
  have hown : ∀ {i : ℕ} {symbol : String} {old new : RecomputeStage} {c : CandleRead},
      s.recomputes[i]? = some ⟨symbol, old⟩ → new.candleRead? = some c →
      ∀ r ∈ s.recomputes.set i ⟨symbol, new⟩, r.symbol = sym → ∀ d, r.stage.candleRead? = some d →
        (s.lastRead.set symbol c).get? sym = some d := by
    intro i symbol old new c hget hnew r hr hsym d hd
    rw [LiveMap.get?_set]
    by_cases hsame : sym = symbol
    · rw [if_pos hsame]
      have heq := Slots.eq_of_mem_set (b := ⟨symbol, new⟩) hget rfl hflagged.nodup hr
        (hsym.trans hsame)
      rw [heq] at hd
      rw [← hd, hnew]
    · rw [if_neg hsame]
      rcases List.mem_or_eq_of_mem_set hr with hold | rfl
      · exact h.link r hold hsym d hd
      · exact absurd hsym.symm hsame
  cases m with
  | idle => exact h.link
  | arrive => exact h.link
  | write => exact h.link
  | complete => exact h.link
  | drop => exact h.link
  | start _ _ hnew =>
      intro r hr hsym c hc
      rcases List.mem_append.mp hr with hold | hone
      · exact h.link r hold hsym c hc
      · rw [List.mem_singleton.mp hone, hnew] at hc
        cases hc
  | @startRead i candle upsertedAt hget hfree =>
      intro r hr hsym c hc
      show (s.lastRead.set candle.symbol ⟨s.now, none⟩).get? sym = some c
      rw [LiveMap.get?_set]
      rcases List.mem_append.mp hr with hold | hone
      · rw [if_neg]
        · exact h.link r hold hsym c hc
        · rintro rfl
          rw [hflagged.busy, ← hsym] at hfree
          exact hfree (List.mem_map_of_mem hold)
      · rw [List.mem_singleton.mp hone] at hsym hc
        rw [if_pos hsym.symm]
        exact hc
  | prepare hget _ hnew =>
      apply hset hget
      intro _ c hc
      rw [hnew] at hc
      cases hc
  | warm hget _ hnew =>
      apply hset hget
      intro _ c hc
      rw [hnew] at hc
      cases hc
  | warmed hget _ hnew =>
      apply hset hget
      intro _ c hc
      rw [hnew] at hc
      cases hc
  | send hget => exact hown hget rfl
  | read hget => exact hown hget rfl
  | proceed hget hold hnew =>
      apply hset hget
      intro hsym c hc
      exact h.link _ (List.mem_of_getElem? hget) hsym c (by rw [hold, ← hnew, hc])
  | store hget =>
      apply hset hget
      intro hsym c hc
      exact h.link _ (List.mem_of_getElem? hget) hsym c hc
  | finish => exact fun r hr => h.link r (List.mem_of_mem_eraseIdx hr)

theorem upsertPast_move {a : LiveStep} (h : Tracked s sym) (m : Move live s a t) :
    ∀ u, t.lastUpsert.get? sym = some u → u < s.now + 1 := by
  have hold : ∀ u, s.lastUpsert.get? sym = some u → u < s.now + 1 := fun u hu =>
    Nat.lt_succ_of_lt (h.upsertPast u hu)
  have hset : ∀ (symbol : String) (u : ℕ), (s.lastUpsert.set symbol s.now).get? sym = some u →
      u < s.now + 1 := by
    intro symbol u hu
    rcases LiveMap.get?_set_eq_some.mp hu with ⟨-, rfl⟩ | ⟨-, hu⟩
    · exact Nat.lt_succ_self _
    · exact hold u hu
  cases m with
  | complete => exact hset _
  | warmed => exact hset _
  | idle => exact hold
  | arrive => exact hold
  | write => exact hold
  | drop => exact hold
  | start => exact hold
  | startRead => exact hold
  | prepare => exact hold
  | warm => exact hold
  | send => exact hold
  | read => exact hold
  | proceed => exact hold
  | store => exact hold
  | finish => exact hold

theorem readPast_move {a : LiveStep} (h : Tracked s sym) (m : Move live s a t) :
    ∀ c, t.lastRead.get? sym = some c → c.startedAt < s.now + 1 := by
  have hold : ∀ c, s.lastRead.get? sym = some c → c.startedAt < s.now + 1 := fun c hc =>
    Nat.lt_succ_of_lt (h.readPast c hc)
  have hset : ∀ (symbol : String) (new c : CandleRead),
      (symbol = sym → new.startedAt < s.now + 1) →
      (s.lastRead.set symbol new).get? sym = some c → c.startedAt < s.now + 1 := by
    intro symbol new c hnew hc
    rcases LiveMap.get?_set_eq_some.mp hc with ⟨hsame, rfl⟩ | ⟨-, hc⟩
    · exact hnew hsame.symm
    · exact hold c hc
  cases m with
  | startRead => exact fun c => hset _ _ c fun _ => Nat.lt_succ_self _
  | send => exact fun c => hset _ _ c fun _ => Nat.lt_succ_self _
  | @read i symbol startedAt hget =>
      intro c
      apply hset
      intro hsym
      show startedAt < s.now + 1
      exact hold ⟨startedAt, none⟩ (h.link _ (List.mem_of_getElem? hget) hsym _ rfl)
  | idle => exact hold
  | arrive => exact hold
  | write => exact hold
  | complete => exact hold
  | drop => exact hold
  | start => exact hold
  | prepare => exact hold
  | warm => exact hold
  | warmed => exact hold
  | proceed => exact hold
  | store => exact hold
  | finish => exact hold

/-- A symbol other than the one a read is sent for keeps its last read. -/
theorem Covers.sent {symbol : String} {c : CandleRead} (hc : symbol = sym → u < c.startedAt)
    (hread : t.lastRead = s.lastRead.set symbol c)
    (hrest : symbol ≠ sym → s.Warming sym ∨ s.Publishing sym u → t.Warming sym ∨ t.Publishing sym u)
    (h : s.Covers sym u) : t.Covers sym u := by
  by_cases hsame : symbol = sym
  · refine .inl ⟨c, ?_, hc hsame⟩
    rw [hread, LiveMap.get?_set, if_pos hsame.symm]
  · rcases h with ⟨d, hd, hlt⟩ | h
    · refine .inl ⟨d, ?_, hlt⟩
      rw [hread, LiveMap.get?_set, if_neg (Ne.symm hsame)]
      exact hd
    · exact .inr (hrest hsame h)

/-- Where the last read stays, and what is yet to be read is still to be. -/
theorem Covers.imp (h : s.Covers sym u) (hread : t.lastRead = s.lastRead)
    (hwarming : s.Warming sym → t.Warming sym)
    (hpublishing : s.Publishing sym u → t.Publishing sym u) : t.Covers sym u := by
  rcases h with ⟨c, hc, hlt⟩ | h | h
  · exact .inl ⟨c, hread ▸ hc, hlt⟩
  · exact .inr (.inl (hwarming h))
  · exact .inr (.inr (hpublishing h))

/-- What was stored stays covered. -/
theorem covers_move {a : LiveStep} (hquant : live.quantBaseUrl ≠ none) (h : Tracked s sym)
    (hflagged : Flagged s) (hseen : Seen sym s a) (m : Move live s a t) (hu : u < s.now)
    (hcovers : s.Covers sym u) : t.Covers sym u := by
  cases m with
  | idle => exact hcovers
  | arrive candle =>
      refine hcovers.imp rfl id ?_
      intro ⟨g, hg, hpublishing⟩
      exact ⟨g, List.mem_append_left _ hg, hpublishing⟩
  | write hget =>
      refine hcovers.imp rfl id ?_
      exact publishing_of_ne (fun g => Slots.eq_or_mem_set hget) rfl fun _ => HandlerStage.noConfusion
  | complete hget =>
      refine hcovers.imp rfl id ?_
      exact publishing_of_ne (fun g => Slots.eq_or_mem_set hget) rfl fun _ => HandlerStage.noConfusion
  | @drop i candle upsertedAt hget hbusy =>
      rcases hcovers with hread | hwarming | ⟨g, hg, hsym, hstage⟩
      · exact .inl hread
      · exact .inr (.inl hwarming)
      · rcases Slots.eq_or_mem_eraseIdx hget hg with rfl | hmem
        · -- The request is dropped for the recompute that runs.
          have hmem := hbusy.resolve_left hquant
          rw [hflagged.busy] at hmem
          obtain ⟨r, hr, hrsym⟩ := List.mem_map.mp hmem
          cases hstage
          cases hread : r.stage.candleRead? with
          | none => exact .inr (.inl ⟨r, hr, hrsym.trans hsym, hread⟩)
          | some c =>
              refine .inl ⟨c, h.link r hr (hrsym.trans hsym) c hread, ?_⟩
              exact hseen _ hget hsym _ rfl r hr (hrsym.trans hsym) c hread
        · exact .inr (.inr ⟨g, hmem, hsym, hstage⟩)
  | start hget _ hnew =>
      rcases hcovers with hread | hwarming | ⟨g, hg, hsym, hstage⟩
      · exact .inl hread
      · exact .inr (.inl (warming_append rfl hwarming))
      · rcases Slots.eq_or_mem_eraseIdx hget hg with rfl | hmem
        · exact .inr (.inl ⟨_, List.mem_append_right _ List.mem_cons_self, hsym, hnew⟩)
        · exact .inr (.inr ⟨g, hmem, hsym, hstage⟩)
  | startRead hget _ =>
      apply Covers.sent (fun _ => hu) rfl _ hcovers
      rintro hne (hwarming | hpublishing)
      · exact .inl (warming_append rfl hwarming)
      · refine .inr (publishing_of_ne (fun g => Slots.eq_or_mem_eraseIdx hget) rfl ?_ hpublishing)
        exact fun hsym => absurd hsym hne
  | prepare hget _ hnew => exact hcovers.imp rfl (warming_set hget rfl fun _ _ => hnew) id
  | warm hget _ hnew => exact hcovers.imp rfl (warming_set hget rfl fun _ _ => hnew) id
  | warmed hget _ hnew => exact hcovers.imp rfl (warming_set hget rfl fun _ _ => hnew) id
  | send hget _ =>
      apply Covers.sent (fun _ => hu) rfl _ hcovers
      rintro hne (hwarming | hpublishing)
      · exact .inl (warming_set hget rfl (fun hsym => absurd hsym hne) hwarming)
      · exact .inr hpublishing
  | @read i symbol startedAt hget =>
      rcases hcovers with ⟨c, hc, hlt⟩ | hrest
      · by_cases hsame : symbol = sym
        · -- The read that is answered is the last one.
          have hlink := h.link _ (List.mem_of_getElem? hget) hsame _ rfl
          rw [hc] at hlink
          cases hlink
          refine .inl ⟨⟨startedAt, some (live.window s.candles symbol)⟩, ?_, hlt⟩
          show (s.lastRead.set symbol _).get? sym = _
          rw [LiveMap.get?_set, if_pos hsame.symm]
        · refine .inl ⟨c, ?_, hlt⟩
          show (s.lastRead.set symbol _).get? sym = _
          rw [LiveMap.get?_set, if_neg (Ne.symm hsame)]
          exact hc
      · rcases hrest with hwarming | hpublishing
        · exact .inr (.inl (warming_set hget rfl (fun _ => nofun) hwarming))
        · exact .inr (.inr hpublishing)
  | proceed hget hold =>
      refine hcovers.imp rfl (warming_set hget rfl ?_) id
      intro _ hnone
      rw [hold] at hnone
      cases hnone
  | store hget => exact hcovers.imp rfl (warming_set hget rfl fun _ => nofun) id
  | finish hget hold => exact hcovers.imp rfl (warming_eraseIdx hget rfl hold) id

/-- What a move newly stores is covered as well. -/
theorem covers_new {a : LiveStep} (m : Move live s a t) (hu : t.lastUpsert.get? sym = some u) :
    s.lastUpsert.get? sym = some u ∨ t.Covers sym u := by
  cases m with
  | @complete i candle done hget =>
      rcases LiveMap.get?_set_eq_some.mp hu with ⟨hsame, rfl⟩ | ⟨-, hu⟩
      · exact .inr (.inr (.inr ⟨_, Slots.mem_set_self hget, hsame.symm, rfl⟩))
      · exact .inl hu
  | @warmed i symbol old new hget _ hnew =>
      rcases LiveMap.get?_set_eq_some.mp hu with ⟨rfl, -⟩ | ⟨-, hu⟩
      · exact .inr (.inr (.inl (warming_enter hget hnew rfl)))
      · exact .inl hu
  | idle => exact .inl hu
  | arrive => exact .inl hu
  | write => exact .inl hu
  | drop => exact .inl hu
  | start => exact .inl hu
  | startRead => exact .inl hu
  | prepare => exact .inl hu
  | warm => exact .inl hu
  | send => exact .inl hu
  | read => exact .inl hu
  | proceed => exact .inl hu
  | store => exact .inl hu
  | finish => exact .inl hu

/-! ## What the last read found -/

def Upserting (s : LiveState V) (sym : String) : Prop :=
  ∃ h ∈ s.handlers, h.candle.symbol = sym ∧ ∃ done, h.stage = .upserting done

/-- Candles of the symbol may have been stored since the read began. -/
def Outdated (s : LiveState V) (sym : String) (startedAt : ℕ) : Prop :=
  (∃ u, s.lastUpsert.get? sym = some u ∧ startedAt < u) ∨ s.Upserting sym ∨ s.Warming sym

/-- Candles that are to become a snapshot have become one. -/
def Materialized (live : LiveIngestion V) (s : LiveState V) (sym : String)
    (found : List NormalizedCandle) : Prop :=
  ∀ last, found.getLast? = some last → live.Admissible found →
    s.snapshots.get? (sym, last.ts) = some (live.computeFeatures found)

def Deciding (s : LiveState V) (sym : String) (c : CandleRead) : Prop :=
  ∃ r ∈ s.recomputes, r.symbol = sym ∧ r.stage.undecided = true ∧ r.stage.candleRead? = some c

structure Traced (live : LiveIngestion V) (stored : LiveMap (String × ℤ) V) (s : LiveState V)
    (sym : String) : Prop where
  found : ∀ c w, s.lastRead.get? sym = some c → c.found = some w →
    w = live.window s.candles sym ∨ s.Outdated sym c.startedAt
  decided : ∀ c, s.lastRead.get? sym = some c →
    s.Deciding sym c ∨ ∃ w, c.found = some w ∧ Materialized live s sym w
  known : ∀ c w, s.lastRead.get? sym = some c → c.found = some w → ∀ x ∈ w,
    ∃ row, s.candles.get? (live.scope sym, x.ts) = some row
  /-- Past the candles of the symbol the snapshots are those the daemon started with. -/
  later : ∀ ts, (∀ ts', (∃ row, s.candles.get? (live.scope sym, ts') = some row) → ts' < ts) →
    s.snapshots.get? (sym, ts) = stored.get? (sym, ts)

variable {stored : LiveMap (String × ℤ) V} {startedAt : ℕ}

theorem upserting_of_ne {h : CandleHandler} {rest : List CandleHandler}
    (hkeep : ∀ g ∈ s.handlers, g = h ∨ g ∈ rest) (ht : t.handlers = rest)
    (hne : h.candle.symbol = sym → ∀ done, h.stage ≠ .upserting done) (hp : s.Upserting sym) :
    t.Upserting sym := by
  obtain ⟨g, hg, hsym, done, hstage⟩ := hp
  refine ⟨g, ?_, hsym, done, hstage⟩
  rw [ht]
  rcases hkeep g hg with rfl | hmem
  · exact absurd hstage (hne hsym done)
  · exact hmem

theorem Outdated.imp (hupsert : t.lastUpsert.get? sym = s.lastUpsert.get? sym)
    (hupserting : s.Upserting sym → t.Upserting sym) (hwarming : s.Warming sym → t.Warming sym)
    (h : s.Outdated sym startedAt) : t.Outdated sym startedAt := by
  rcases h with ⟨u, hu, hlt⟩ | h | h
  · exact .inl ⟨u, hupsert ▸ hu, hlt⟩
  · exact .inr (.inl (hupserting h))
  · exact .inr (.inr (hwarming h))

theorem found_move {a : LiveStep} (htracked : Tracked s sym) (h : Traced live stored s sym)
    (m : Move live s a t) : ∀ c w, t.lastRead.get? sym = some c → c.found = some w →
      w = live.window t.candles sym ∨ t.Outdated sym c.startedAt := by
  intro c w hc hw
  cases m with
  | idle => exact h.found c w hc hw
  | arrive candle =>
      apply (h.found c w hc hw).imp_right
      refine Outdated.imp rfl ?_ id
      rintro ⟨g, hg, hrest⟩
      exact ⟨g, List.mem_append_left _ hg, hrest⟩
  | @write i candle done batch hget hown =>
      by_cases hsame : candle.symbol = sym
      · exact .inr (.inr (.inl ⟨_, Slots.mem_set_self hget, hsame, _, rfl⟩))
      · have hwindow : live.window (upsertBatch s.candles batch) sym = live.window s.candles sym :=
          window_upsertBatch hsame _ fun d hd => by rw [hown d hd]
        show w = live.window (upsertBatch s.candles batch) sym ∨ _
        rw [hwindow]
        apply (h.found c w hc hw).imp_right
        refine Outdated.imp rfl ?_ id
        exact upserting_of_ne (fun g => Slots.eq_or_mem_set hget) rfl fun hsym => absurd hsym hsame
  | @complete i candle done hget =>
      by_cases hsame : candle.symbol = sym
      · refine .inr (.inl ⟨s.now, ?_, htracked.readPast c hc⟩)
        show (s.lastUpsert.set candle.symbol s.now).get? sym = _
        rw [LiveMap.get?_set, if_pos hsame.symm]
      · apply (h.found c w hc hw).imp_right
        refine Outdated.imp ?_ ?_ id
        · show (s.lastUpsert.set candle.symbol s.now).get? sym = _
          rw [LiveMap.get?_set, if_neg (Ne.symm hsame)]
        · exact upserting_of_ne (fun g => Slots.eq_or_mem_set hget) rfl fun hsym => absurd hsym hsame
  | drop hget =>
      apply (h.found c w hc hw).imp_right
      refine Outdated.imp rfl ?_ id
      exact upserting_of_ne (fun g => Slots.eq_or_mem_eraseIdx hget) rfl fun _ _ =>
        HandlerStage.noConfusion
  | start hget =>
      apply (h.found c w hc hw).imp_right
      refine Outdated.imp rfl ?_ (warming_append rfl)
      exact upserting_of_ne (fun g => Slots.eq_or_mem_eraseIdx hget) rfl fun _ _ =>
        HandlerStage.noConfusion
  | @startRead i candle upsertedAt hget =>
      rcases LiveMap.get?_set_eq_some.mp hc with ⟨-, rfl⟩ | ⟨-, hc⟩
      · cases hw
      · apply (h.found c w hc hw).imp_right
        refine Outdated.imp rfl ?_ (warming_append rfl)
        exact upserting_of_ne (fun g => Slots.eq_or_mem_eraseIdx hget) rfl fun _ _ =>
          HandlerStage.noConfusion
  | prepare hget _ hnew =>
      apply (h.found c w hc hw).imp_right
      exact Outdated.imp rfl id (warming_set hget rfl fun _ _ => hnew)
  | @warm i symbol old new batch hget _ hnew hown =>
      by_cases hsame : symbol = sym
      · subst hsame
        exact .inr (.inr (.inr (warming_enter hget hnew rfl)))
      · have hwindow : live.window (upsertBatch s.candles batch) sym = live.window s.candles sym :=
          window_upsertBatch hsame _ hown
        show w = live.window (upsertBatch s.candles batch) sym ∨ _
        rw [hwindow]
        apply (h.found c w hc hw).imp_right
        exact Outdated.imp rfl id (warming_set hget rfl fun _ _ => hnew)
  | @warmed i symbol old new hget _ hnew =>
      by_cases hsame : symbol = sym
      · subst hsame
        exact .inr (.inr (.inr (warming_enter hget hnew rfl)))
      · apply (h.found c w hc hw).imp_right
        refine Outdated.imp ?_ id (warming_set hget rfl fun _ _ => hnew)
        show (s.lastUpsert.set symbol s.now).get? sym = _
        rw [LiveMap.get?_set, if_neg (Ne.symm hsame)]
  | @send i symbol old hget =>
      rcases LiveMap.get?_set_eq_some.mp hc with ⟨-, rfl⟩ | ⟨hsame, hc⟩
      · cases hw
      · apply (h.found c w hc hw).imp_right
        exact Outdated.imp rfl id (warming_set hget rfl fun hsym => absurd hsym.symm hsame)
  | @read i symbol startedAt hget =>
      rcases LiveMap.get?_set_eq_some.mp hc with ⟨hsame, rfl⟩ | ⟨hsame, hc⟩
      · cases hw
        rw [hsame]
        exact .inl rfl
      · apply (h.found c w hc hw).imp_right
        exact Outdated.imp rfl id (warming_set hget rfl fun hsym => absurd hsym.symm hsame)
  | proceed hget hold =>
      apply (h.found c w hc hw).imp_right
      refine Outdated.imp rfl id (warming_set hget rfl ?_)
      intro _ hnone
      rw [hold] at hnone
      cases hnone
  | store hget =>
      apply (h.found c w hc hw).imp_right
      exact Outdated.imp rfl id (warming_set hget rfl fun _ => nofun)
  | finish hget hold =>
      apply (h.found c w hc hw).imp_right
      exact Outdated.imp rfl id (warming_eraseIdx hget rfl hold)

theorem deciding_set {i : ℕ} {symbol : String} {old new : RecomputeStage} {c : CandleRead}
    (hget : s.recomputes[i]? = some ⟨symbol, old⟩)
    (ht : t.recomputes = s.recomputes.set i ⟨symbol, new⟩)
    (hkeep : old.candleRead? = some c → new.undecided = true ∧ new.candleRead? = some c)
    (h : s.Deciding sym c) : t.Deciding sym c := by
  obtain ⟨r, hr, hsym, hundecided, hread⟩ := h
  unfold Deciding
  rw [ht]
  rcases Slots.eq_or_mem_set hget hr with rfl | hmem
  · exact ⟨⟨symbol, new⟩, Slots.mem_set_self hget, hsym, hkeep hread⟩
  · exact ⟨r, hmem, hsym, hundecided, hread⟩

theorem deciding_append {r : Recompute} {c : CandleRead} (ht : t.recomputes = s.recomputes ++ [r])
    (h : s.Deciding sym c) : t.Deciding sym c := by
  obtain ⟨q, hq, hrest⟩ := h
  refine ⟨q, ?_, hrest⟩
  rw [ht]
  exact List.mem_append_left _ hq

/-- The read that has just been sent or answered is yet to be decided. -/
theorem deciding_new {i : ℕ} {old new : RecomputeStage} {c : CandleRead}
    (hget : s.recomputes[i]? = some ⟨sym, old⟩)
    (ht : t.recomputes = s.recomputes.set i ⟨sym, new⟩) (hundecided : new.undecided = true)
    (hread : new.candleRead? = some c) : t.Deciding sym c := by
  refine ⟨⟨sym, new⟩, ?_, rfl, hundecided, hread⟩
  rw [ht]
  exact Slots.mem_set_self hget

theorem decided_move {a : LiveStep} (htracked : Tracked s sym) (h : Traced live stored s sym)
    (m : Move live s a t) : ∀ c, t.lastRead.get? sym = some c →
      t.Deciding sym c ∨ ∃ w, c.found = some w ∧ Materialized live t sym w := by
  -- Where nothing but the stage of one recompute changes.
  have hset : ∀ {i : ℕ} {symbol : String} {old new : RecomputeStage} {c : CandleRead}
      {t : LiveState V}, s.recomputes[i]? = some ⟨symbol, old⟩ →
      t.recomputes = s.recomputes.set i ⟨symbol, new⟩ → t.snapshots = s.snapshots →
      (old.candleRead? = some c → new.undecided = true ∧ new.candleRead? = some c) →
      s.lastRead.get? sym = some c →
      t.Deciding sym c ∨ ∃ w, c.found = some w ∧ Materialized live t sym w := by
    intro i symbol old new c t hget ht hsnapshots hkeep hc
    rcases h.decided c hc with hdeciding | ⟨w, hw, hdone⟩
    · exact .inl (deciding_set hget ht hkeep hdeciding)
    · refine .inr ⟨w, hw, fun last hlast hadmissible => ?_⟩
      rw [hsnapshots]
      exact hdone last hlast hadmissible
  intro c hc
  cases m with
  | idle => exact h.decided c hc
  | arrive => exact h.decided c hc
  | write => exact h.decided c hc
  | complete => exact h.decided c hc
  | drop => exact h.decided c hc
  | start => exact (h.decided c hc).imp_left (deciding_append rfl)
  | @startRead i candle upsertedAt hget =>
      rcases LiveMap.get?_set_eq_some.mp hc with ⟨hsame, rfl⟩ | ⟨-, hc⟩
      · exact .inl ⟨_, List.mem_append_right _ List.mem_cons_self, hsame.symm, rfl, rfl⟩
      · exact (h.decided c hc).imp_left (deciding_append rfl)
  | prepare hget hold =>
      refine hset hget rfl rfl (fun hread => ?_) hc
      rw [hold] at hread
      cases hread
  | warm hget hold =>
      refine hset hget rfl rfl (fun hread => ?_) hc
      rw [hold] at hread
      cases hread
  | warmed hget hold =>
      refine hset hget rfl rfl (fun hread => ?_) hc
      rw [hold] at hread
      cases hread
  | @send i symbol old hget hold =>
      rcases LiveMap.get?_set_eq_some.mp hc with ⟨rfl, rfl⟩ | ⟨-, hc⟩
      · exact .inl (deciding_new hget rfl rfl rfl)
      · refine hset hget rfl rfl (fun hread => ?_) hc
        rw [hold] at hread
        cases hread
  | @read i symbol startedAt hget =>
      rcases LiveMap.get?_set_eq_some.mp hc with ⟨rfl, rfl⟩ | ⟨hsame, hc⟩
      · exact .inl (deciding_new hget rfl rfl rfl)
      · rcases h.decided c hc with ⟨r, hr, hsym, hrest⟩ | hdone
        · rcases Slots.eq_or_mem_set hget hr with rfl | hmem
          · exact absurd hsym.symm hsame
          · exact .inl ⟨r, hmem, hsym, hrest⟩
        · exact .inr hdone
  | proceed hget hold hnew hundecided =>
      refine hset hget rfl rfl (fun hread => ⟨hundecided, ?_⟩) hc
      rw [hnew, ← hold, hread]
  | @store i symbol startedAt found last hget hlast =>
      by_cases hsame : symbol = sym
      · -- The snapshot is that of the last read.
        have hlink := htracked.link _ (List.mem_of_getElem? hget) hsame _ rfl
        have hc : s.lastRead.get? sym = some c := hc
        rw [hlink] at hc
        cases hc
        refine .inr ⟨found, rfl, fun last' hlast' _ => ?_⟩
        show (s.snapshots.set (symbol, last.ts) (live.computeFeatures found)).get? (sym, last'.ts) = _
        rw [hlast] at hlast'
        cases hlast'
        rw [LiveMap.get?_set, hsame, if_pos rfl]
      · rcases h.decided c hc with ⟨r, hr, hsym, hrest⟩ | ⟨w, hw, hdone⟩
        · rcases Slots.eq_or_mem_set hget hr with rfl | hmem
          · exact absurd hsym hsame
          · exact .inl ⟨r, hmem, hsym, hrest⟩
        · refine .inr ⟨w, hw, fun last' hlast' hadmissible => ?_⟩
          show (s.snapshots.set (symbol, last.ts) (live.computeFeatures found)).get? (sym, last'.ts) = _
          rw [LiveMap.get?_set, if_neg fun heq => hsame (congrArg Prod.fst heq).symm]
          exact hdone last' hlast' hadmissible
  | finish hget hold hdecided =>
      rcases h.decided c hc with ⟨r, hr, hsym, hundecided, hread⟩ | hdone
      · rcases Slots.eq_or_mem_eraseIdx hget hr with rfl | hmem
        · rw [hold] at hread
          cases hread
          exact .inr ⟨_, rfl, fun _ _ hadmissible => absurd hadmissible (hdecided hundecided)⟩
        · exact .inl ⟨r, hmem, hsym, hundecided, hread⟩
      · exact .inr hdone

/-- No candle goes away. -/
theorem candles_move {a : LiveStep} (m : Move live s a t) {key : CandleScope × ℤ}
    (h : ∃ row, s.candles.get? key = some row) : ∃ row, t.candles.get? key = some row := by
  cases m with
  | write => exact get?_upsertBatch _ h
  | warm => exact get?_upsertBatch _ h
  | idle => exact h
  | arrive => exact h
  | complete => exact h
  | drop => exact h
  | start => exact h
  | startRead => exact h
  | prepare => exact h
  | warmed => exact h
  | send => exact h
  | read => exact h
  | proceed => exact h
  | store => exact h
  | finish => exact h

/-- The last read of a symbol was there before, is empty-handed yet, or found what is stored. -/
theorem lastRead_move {a : LiveStep} (m : Move live s a t) {c : CandleRead}
    (hc : t.lastRead.get? sym = some c) : s.lastRead.get? sym = some c ∨ c.found = none ∨
      c.found = some (live.window s.candles sym) := by
  have hset : ∀ (symbol : String) (new : CandleRead),
      (symbol = sym → new.found = none ∨ new.found = some (live.window s.candles sym)) →
      (s.lastRead.set symbol new).get? sym = some c →
      s.lastRead.get? sym = some c ∨ c.found = none ∨
        c.found = some (live.window s.candles sym) := by
    intro symbol new hnew hc
    rcases LiveMap.get?_set_eq_some.mp hc with ⟨hsame, rfl⟩ | ⟨-, hc⟩
    · exact .inr (hnew hsame.symm)
    · exact .inl hc
  cases m with
  | startRead => exact hset _ _ (fun _ => .inl rfl) hc
  | send => exact hset _ _ (fun _ => .inl rfl) hc
  | read =>
      refine hset _ _ (fun hsym => .inr ?_) hc
      rw [hsym]
  | idle => exact .inl hc
  | arrive => exact .inl hc
  | write => exact .inl hc
  | complete => exact .inl hc
  | drop => exact .inl hc
  | start => exact .inl hc
  | prepare => exact .inl hc
  | warm => exact .inl hc
  | warmed => exact .inl hc
  | proceed => exact .inl hc
  | store => exact .inl hc
  | finish => exact .inl hc

theorem known_move {a : LiveStep} (h : Traced live stored s sym) (m : Move live s a t) :
    ∀ c w, t.lastRead.get? sym = some c → c.found = some w → ∀ x ∈ w,
      ∃ row, t.candles.get? (live.scope sym, x.ts) = some row := by
  intro c w hc hw x hx
  apply candles_move m
  rcases lastRead_move m hc with hold | hnone | hwindow
  · exact h.known c w hold hw x hx
  · rw [hw] at hnone
    cases hnone
  · rw [hw] at hwindow
    rw [Option.some.inj hwindow] at hx
    exact get?_of_mem_window hx

theorem later_move {a : LiveStep} (htracked : Tracked s sym) (h : Traced live stored s sym)
    (m : Move live s a t) :
    ∀ ts, (∀ ts', (∃ row, t.candles.get? (live.scope sym, ts') = some row) → ts' < ts) →
      t.snapshots.get? (sym, ts) = stored.get? (sym, ts) := by
  intro ts hts
  have hsame := h.later ts fun ts' hts' => hts ts' (candles_move m hts')
  cases m with
  | @store i symbol startedAt found last hget hlast =>
      show (s.snapshots.set (symbol, last.ts) (live.computeFeatures found)).get? (sym, ts) = _
      rw [LiveMap.get?_set, if_neg, hsame]
      intro heq
      -- The snapshot is as of a candle that is stored.
      have hsym : symbol = sym := (congrArg Prod.fst heq).symm
      have hlink := htracked.link _ (List.mem_of_getElem? hget) hsym _ rfl
      have hlt := hts last.ts (h.known _ found hlink rfl last (List.mem_of_getLast? hlast))
      have heqts : ts = last.ts := congrArg Prod.snd heq
      omega
  | idle => exact hsame
  | arrive => exact hsame
  | write => exact hsame
  | complete => exact hsame
  | drop => exact hsame
  | start => exact hsame
  | startRead => exact hsame
  | prepare => exact hsame
  | warm => exact hsame
  | warmed => exact hsame
  | send => exact hsame
  | read => exact hsame
  | proceed => exact hsame
  | finish => exact hsame

/-! ## Runs -/

structure FeatureInvariant (live : LiveIngestion V) (stored : LiveMap (String × ℤ) V)
    (sym : String) (s : LiveState V) : Prop where
  flagged : Flagged s
  tracked : Tracked s sym
  covers : ∀ u, s.lastUpsert.get? sym = some u → s.Covers sym u
  traced : Traced live stored s sym

theorem featureInvariant_initial (live : LiveIngestion V) (candles : CandleTable)
    (stored : LiveMap (String × ℤ) V) (sym : String) :
    FeatureInvariant live stored sym (initial candles stored) where
  flagged := ⟨rfl, .nil⟩
  tracked := ⟨nofun, nofun, nofun⟩
  covers := nofun
  traced := ⟨nofun, nofun, nofun, fun _ _ => rfl⟩

theorem FeatureInvariant.step (hquant : live.quantBaseUrl ≠ none) {a : LiveStep}
    (h : FeatureInvariant live stored sym s) (hseen : Seen sym s a) :
    FeatureInvariant live stored sym (s.step live a) := by
  have m : Move live s a (s.act live a) := move_act a
  refine ⟨?_, ?_, ?_, ?_⟩
  · exact ⟨(h.flagged.move m).busy, (h.flagged.move m).nodup⟩
  · exact ⟨upsertPast_move (t := s.act live a) h.tracked m,
      readPast_move (t := s.act live a) h.tracked m,
      h.tracked.link_move (t := s.act live a) h.flagged m⟩
  · intro u hu
    show (s.act live a).Covers sym u
    rcases covers_new m hu with hold | hnew
    · exact covers_move hquant h.tracked h.flagged hseen m (h.tracked.upsertPast u hold)
        (h.covers u hold)
    · exact hnew
  · exact ⟨found_move (t := s.act live a) h.tracked h.traced m,
      decided_move (t := s.act live a) h.tracked h.traced m,
      known_move (t := s.act live a) h.traced m, later_move (t := s.act live a) h.tracked h.traced m⟩

/-- No handler and no recompute of the symbol is in flight. -/
structure Quiet (s : LiveState V) (sym : String) : Prop where
  handlers : ∀ h ∈ s.handlers, h.candle.symbol ≠ sym
  recomputes : ∀ r ∈ s.recomputes, r.symbol ≠ sym

/-- The last candle read of the symbol began after its last candle upsert completed, and where its
candles are admissible the newest snapshot that the daemon persisted is computed from them. -/
structure Fresh (live : LiveIngestion V) (stored : LiveMap (String × ℤ) V) (s : LiveState V)
    (sym : String) : Prop where
  readAfter : ∀ u, s.lastUpsert.get? sym = some u →
    ∃ c, s.lastRead.get? sym = some c ∧ u < c.startedAt
  newest : ∀ u, s.lastUpsert.get? sym = some u → live.Admissible (live.window s.candles sym) →
    ∀ last, (live.window s.candles sym).getLast? = some last →
      s.snapshots.get? (sym, last.ts) = some (live.computeFeatures (live.window s.candles sym)) ∧
      ∀ ts, last.ts < ts → s.snapshots.get? (sym, ts) = stored.get? (sym, ts)

theorem FeatureInvariant.fresh (h : FeatureInvariant live stored sym s) (hquiet : s.Quiet sym) :
    Fresh live stored s sym := by
  have hwarming : ¬s.Warming sym := fun ⟨r, hr, hsym, _⟩ => hquiet.recomputes r hr hsym
  have hread : ∀ u, s.lastUpsert.get? sym = some u →
      ∃ c, s.lastRead.get? sym = some c ∧ u < c.startedAt := by
    intro u hu
    rcases h.covers u hu with hread | hwarm | ⟨g, hg, hsym, _⟩
    · exact hread
    · exact absurd hwarm hwarming
    · exact absurd hsym (hquiet.handlers g hg)
  refine ⟨hread, fun u hu hadmissible last hlast => ?_⟩
  obtain ⟨c, hc, hlt⟩ := hread u hu
  constructor
  · rcases h.traced.decided c hc with ⟨r, hr, hsym, _⟩ | ⟨w, hw, hdone⟩
    · exact absurd hsym (hquiet.recomputes r hr)
    · rcases h.traced.found c w hc hw with rfl | ⟨v, hv, hvlt⟩ | ⟨g, hg, hsym, _⟩ | hwarm
      · exact hdone last hlast hadmissible
      · -- Nothing was stored after the read began.
        rw [hu] at hv
        cases hv
        omega
      · exact absurd hsym (hquiet.handlers g hg)
      · exact absurd hwarm hwarming
  · intro ts hts
    apply h.traced.later
    intro ts' hts'
    exact Int.lt_of_le_of_lt (le_of_getLast_window hlast hts') hts

end LiveState

/-- After a run in which every dropped request is seen by the recompute it was dropped for, the
features of a quiet symbol are fresh. -/
theorem features_fresh (live : LiveIngestion V) (hquant : live.quantBaseUrl ≠ none)
    (candles : CandleTable) (stored : LiveMap (String × ℤ) V) (sym : String) (steps : List LiveStep)
    (hseen : RunMeets (LiveState.step live) (LiveState.Seen sym) (LiveState.initial candles stored)
      steps)
    (hquiet : (run (LiveState.step live) (LiveState.initial candles stored) steps).Quiet sym) :
    (run (LiveState.step live) (LiveState.initial candles stored) steps).Fresh live stored sym :=
  (run_invariant (fun _ _ h hseen => h.step hquant hseen)
    (LiveState.featureInvariant_initial live candles stored sym) hseen).fresh hquiet

/-- A daemon without warm-up. -/
def plainLive : LiveIngestion ℕ where
  exchange := .binance
  candles := false
  perps := []
  liveTimeframe := .m1
  featureWindow := none
  quantBaseUrl := some "http://quant:8000"
  passed _ := true
  computeFeatures := List.length

def minuteBar (ts : ℤ) : NormalizedCandle :=
  ⟨.binance, "BTC-PERP", .perp, .m1, ts, "1", "1", "1", "1", "1", none⟩

/-- Both candles are stored before the read that the first one asks for. -/
theorem features_fresh_bothSeen :
    (run (LiveState.step plainLive) (LiveState.initial .empty .empty)
      [.onCandle (minuteBar 0), .onCandle (minuteBar 60000), .handler 0, .handler 1, .handler 0,
        .handler 1, .handler 0, .handler 0, .recompute 0, .recompute 0]).Fresh plainLive
      .empty "BTC-PERP" :=
  features_fresh plainLive nofun .empty .empty "BTC-PERP" _ (by decide +kernel)
    ⟨by decide +kernel, by decide +kernel⟩

/-- The second candle is stored after the read of the recompute that its request is dropped for. -/
theorem late_candle_unread :
    let s := run (LiveState.step plainLive) (LiveState.initial .empty .empty)
      [.onCandle (minuteBar 0), .handler 0, .handler 0, .handler 0, .recompute 0,
        .onCandle (minuteBar 60000), .handler 0, .handler 0, .handler 0, .recompute 0]
    s.Quiet "BTC-PERP" ∧ ¬s.Fresh plainLive .empty "BTC-PERP" := by
  refine ⟨⟨by decide +kernel, by decide +kernel⟩, fun h => ?_⟩
  obtain ⟨c, hc, hlt⟩ := h.readAfter 7 (by decide +kernel)
  have hread : some c = some ⟨3, some [minuteBar 0]⟩ := by
    rw [← hc]
    decide +kernel
  cases hread
  exact absurd hlt (by decide)

end NexusQuant.Ingestion
