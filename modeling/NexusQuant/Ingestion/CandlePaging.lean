import NexusQuant.Ingestion.Candles

/-!
# What candle paging loses

A venue holds a series of bars at least one timeframe apart and answers a request with the bars of its
interval.  Both connectors then return the bars some page asks for (`fetchPages_eq`).  The pages end
one timeframe before the next begins, so a bar that opens between two of them is lost:
`fetchCandles_complete_iff` says that this is the only way to lose one.
-/

namespace NexusQuant.Ingestion

open Paging

structure VenueBar where
  openTime : ℤ
  values : Ohlcv ℚ
  trades : Option JsNumber
deriving DecidableEq, Repr

/-- The bars of a venue for one timeframe. -/
structure CandleSeries (tf : Timeframe) where
  bars : List VenueBar
  spaced : Spaced VenueBar.openTime (timeframeMs tf) bars

/-- The candle of a bar. -/
def VenueBar.candle (exchange : Exchange) (req : CandleBackfillRequest) (trades : Option JsNumber)
    (bar : VenueBar) : NormalizedCandle :=
  candleOf exchange req bar.openTime (bar.values.map (toDecimalString · 8)) trades

/-! ## The loop -/

section Loop

variable {Row : Type} {read : RowReader Row} {candle : VenueBar → NormalizedCandle}
  {fromMs toMs : ℤ} {rows : List Row} {bars : List VenueBar}

/-- A row reads as the candle of a bar. -/
def ReadsAs (read : RowReader Row) (candle : VenueBar → NormalizedCandle) (row : Row)
    (bar : VenueBar) : Prop :=
  read row = .ok (bar.openTime, .ok (candle bar))

def putBar (candle : VenueBar → NormalizedCandle) (out : LiveMap ℤ NormalizedCandle)
    (bar : VenueBar) : LiveMap ℤ NormalizedCandle :=
  out.set bar.openTime (candle bar)

theorem foldlM_readRow (hreads : List.Forall₂ (ReadsAs read candle) rows bars)
    (hwindow : ∀ bar ∈ bars, fromMs ≤ bar.openTime ∧ bar.openTime ≤ toMs)
    (out : LiveMap ℤ NormalizedCandle) :
    rows.foldlM (readRow read fromMs toMs) out = .ok (bars.foldl (putBar candle) out) := by
  induction hreads generalizing out with
  | nil => rfl
  | @cons row bar rows bars hrow _ ih =>
      obtain ⟨hlo, hhi⟩ := hwindow bar List.mem_cons_self
      have hput : readRow read fromMs toMs out row = .ok (putBar candle out bar) := by
        unfold readRow
        rw [hrow]
        show (if bar.openTime < fromMs ∨ bar.openTime > toMs then _ else _) = _
        rw [if_neg (by omega)]
        rfl
      rw [List.foldlM_cons, hput]
      exact ih (fun b hb => hwindow b (List.mem_cons_of_mem bar hb)) _

theorem foldlM_pages {f : LiveMap ℤ NormalizedCandle → ℤ →
      Except ConnectorError (LiveMap ℤ NormalizedCandle)} {page : ℤ → List VenueBar} {cs : List ℤ}
    (hpage : ∀ c ∈ cs, ∀ out, f out c = .ok ((page c).foldl (putBar candle) out))
    (out : LiveMap ℤ NormalizedCandle) :
    cs.foldlM f out = .ok ((cs.flatMap page).foldl (putBar candle) out) := by
  induction cs generalizing out with
  | nil => rfl
  | cons c cs ih =>
      rw [List.foldlM_cons, hpage c List.mem_cons_self, List.flatMap_cons, List.foldl_append]
      exact ih (fun d hd => hpage d (List.mem_cons_of_mem c hd)) _

variable {tf : Timeframe} {series : CandleSeries tf} {maxBars : ℕ}
  {page : ℤ → ℤ → Except ConnectorError (List Row)}

/-- The venue answers every request with the bars of its interval, the first `maxBars` of them. -/
def AnswersPages (page : ℤ → ℤ → Except ConnectorError (List Row)) (read : RowReader Row)
    (candle : VenueBar → NormalizedCandle) (maxBars : ℕ) (bars : List VenueBar) : Prop :=
  ∀ lo hi, ∃ rows, page lo hi = .ok rows ∧
    List.Forall₂ (ReadsAs read candle) rows (Paging.page VenueBar.openTime maxBars lo hi bars)

/-- The bars the pages ask for, in the order of time. -/
theorem fetchPages_eq (hanswers : AnswersPages page read candle maxBars series.bars)
    (hts : ∀ bar, (candle bar).ts = bar.openTime) (hmax : 0 < maxBars) (fromMs toMs : ℤ) :
    fetchPages page read maxBars (timeframeMs tf) fromMs toMs =
      .ok (((inWindow VenueBar.openTime fromMs toMs series.bars).filter fun bar =>
        Asked fromMs (maxBars * timeframeMs tf) (timeframeMs tf) bar.openTime).map candle) := by
  have htf := timeframeMs_pos tf
  have hwidth : 0 < (maxBars : ℤ) * timeframeMs tf := by positivity
  rw [← series.spaced.flatMap_pages htf hmax]
  generalize hcs : cursors fromMs toMs (maxBars * timeframeMs tf) = cs
  have hpages : ∀ c ∈ cs, ∀ out, (do
      let rows ← page c (min (c + maxBars * timeframeMs tf - timeframeMs tf) toMs)
      rows.foldlM (readRow read fromMs toMs) out) =
      .ok ((Paging.page VenueBar.openTime maxBars c
        (min (c + maxBars * timeframeMs tf - timeframeMs tf) toMs) series.bars).foldl
          (putBar candle) out) := by
    intro c hc out
    obtain ⟨rows, hrows, hreads⟩ :=
      hanswers c (min (c + maxBars * timeframeMs tf - timeframeMs tf) toMs)
    have hfrom := le_of_mem_cursors hwidth (hcs ▸ hc)
    rw [hrows]
    apply foldlM_readRow hreads
    intro bar hbar
    have hboth := of_decide_eq_true (List.mem_filter.mp (List.mem_of_mem_take hbar)).2
    omega
  unfold fetchPages
  dsimp only
  rw [hcs, foldlM_pages hpages]
  -- The open times are distinct and ascending, so the map keeps every bar and the sort its order.
  have hsorted : ((cs.flatMap fun c => Paging.page VenueBar.openTime maxBars c
      (min (c + maxBars * timeframeMs tf - timeframeMs tf) toMs) series.bars)).Pairwise
      fun a b => a.openTime < b.openTime := by
    rw [← hcs, series.spaced.flatMap_pages htf hmax]
    have hspaced := (series.spaced.filter fun bar =>
      decide (fromMs ≤ bar.openTime ∧ bar.openTime ≤ toMs)).filter fun bar =>
        decide (Asked fromMs (maxBars * timeframeMs tf) (timeframeMs tf) bar.openTime)
    exact hspaced.imp fun h => by omega
  have hnodup := List.Pairwise.map VenueBar.openTime (fun _ _ h => ne_of_lt h) hsorted
  have hvalues := @LiveMap.values_foldl_set ℤ _ _ VenueBar VenueBar.openTime candle _ .empty hnodup
    fun _ _ => nofun
  show Except.ok (List.insertionSort _ (LiveMap.values (List.foldl _ _ _))) = _
  congr 1
  have hputs : putBar candle = fun m bar => m.set bar.openTime (candle bar) := rfl
  rw [hputs, hvalues]
  apply List.Pairwise.insertionSort_eq
  show (List.map candle _).Pairwise _
  rw [List.pairwise_map]
  exact hsorted.imp fun h => by rw [hts, hts]; exact h.le

/-- The loop returns the bars of the window exactly when some page asks for each of them. -/
theorem fetchPages_eq_window_iff (hanswers : AnswersPages page read candle maxBars series.bars)
    (hts : ∀ bar, (candle bar).ts = bar.openTime) (hmax : 0 < maxBars) (fromMs toMs : ℤ) :
    fetchPages page read maxBars (timeframeMs tf) fromMs toMs =
        .ok ((inWindow VenueBar.openTime fromMs toMs series.bars).map candle) ↔
      ∀ bar ∈ inWindow VenueBar.openTime fromMs toMs series.bars,
        Asked fromMs (maxBars * timeframeMs tf) (timeframeMs tf) bar.openTime := by
  rw [fetchPages_eq hanswers hts hmax]
  constructor
  · intro h
    have hlength := congrArg List.length (Except.ok.inj h)
    rw [List.length_map, List.length_map, List.length_filter_eq_length_iff] at hlength
    exact fun bar hbar => of_decide_eq_true (hlength bar hbar)
  · intro h
    rw [List.filter_eq_self.mpr fun bar hbar => decide_eq_true (h bar hbar)]

end Loop

/-! ## The venues -/

/-- A request for candles that a connector serves. -/
structure Served (natives : Dict String) (req : CandleBackfillRequest) (fromMs toMs : ℤ)
    (native : String) : Prop where
  notSpot : req.assetType ≠ .spot
  symbol : natives.get? req.symbol = some native
  begins : req.fromDate.time = some fromMs
  ends : req.toDate.time = some toMs
  ordered : fromMs ≤ toMs

theorem Served.windowOf {natives : Dict String} {req : CandleBackfillRequest} {fromMs toMs : ℤ}
    {native : String} (h : Served natives req fromMs toMs native) (endpoint : String) :
    windowOf req endpoint = .ok (fromMs, toMs) := by
  unfold Ingestion.windowOf
  rw [h.begins, h.ends]
  exact if_neg (not_lt.mpr h.ordered)

namespace Binance

/-- A kline row that shows a bar, the prices as numbers or as numeric texts. -/
structure Shows (row : KlineRow) (bar : VenueBar) : Prop where
  openTime : row.openTime = some bar.openTime
  values : (row.values.map finiteOrUndefined).all? = some bar.values
  trades : tradesOf row.trades = bar.trades

/-- The venue answers with the rows of the bars in the inclusive interval. -/
def Answers (rest : KlineParams → Except ConnectorError (List KlineRow)) (symbol : String)
    {tf : Timeframe} (series : CandleSeries tf) : Prop :=
  ∀ lo hi, ∃ rows, rest ⟨symbol, interval tf, lo, hi, maxBarsPerRequest⟩ = .ok rows ∧
    List.Forall₂ Shows rows (Paging.page VenueBar.openTime maxBarsPerRequest lo hi series.bars)

def candle (req : CandleBackfillRequest) (bar : VenueBar) : NormalizedCandle :=
  bar.candle .binance req bar.trades

theorem readsAs {req : CandleBackfillRequest} {row : KlineRow} {bar : VenueBar} (h : Shows row bar) :
    ReadsAs (read req) (candle req) row bar := by
  unfold ReadsAs read
  rw [h.openTime, h.values, h.trades]
  rfl

end Binance

namespace Deribit

def candle (req : CandleBackfillRequest) (bar : VenueBar) : NormalizedCandle :=
  bar.candle .deribit req none

/-- A chart result that carries bars; one without bars may say so. -/
def Carries (result : ChartDataResult) (bars : List VenueBar) : Prop :=
  (result.status = "no_data" ∧ bars = []) ∨
  (result.status = "ok" ∧ result.ticks = bars.map VenueBar.openTime ∧
    result.values = ⟨bars.map fun bar => .fin bar.values.open, bars.map fun bar => .fin bar.values.high,
      bars.map fun bar => .fin bar.values.low, bars.map fun bar => .fin bar.values.close,
      bars.map fun bar => .fin bar.values.volume⟩)

/-- The venue answers with the bars in the inclusive interval. -/
def Answers (rest : ChartParams → Except ConnectorError ChartDataResult) (instrument : String)
    {tf : Timeframe} (series : CandleSeries tf) : Prop :=
  ∀ lo hi, ∃ result, rest ⟨instrument, resolution tf, lo, hi⟩ = .ok result ∧
    Carries result (Paging.page VenueBar.openTime maxBarsPerRequest lo hi series.bars)

/-- The row of a bar. -/
def rowOf (bar : VenueBar) : ChartRow := ⟨bar.openTime, bar.values.map fun q => some (.fin q)⟩

theorem chartRows_of_carried {result : ChartDataResult} {bars : List VenueBar}
    (hticks : result.ticks = bars.map VenueBar.openTime)
    (hvalues : result.values = ⟨bars.map fun bar => .fin bar.values.open,
      bars.map fun bar => .fin bar.values.high, bars.map fun bar => .fin bar.values.low,
      bars.map fun bar => .fin bar.values.close, bars.map fun bar => .fin bar.values.volume⟩) :
    chartRows result = bars.map rowOf := by
  unfold chartRows
  rw [hticks, hvalues]
  apply List.ext_getElem?
  intro i
  -- At every index the arrays show the values of one bar.
  rw [List.getElem?_map, List.getElem?_zipIdx, List.getElem?_map, List.getElem?_map]
  cases hbar : bars[i]? with
  | none => rfl
  | some bar =>
      simp only [Option.map_some, Ohlcv.map, Nat.zero_add, List.getElem?_map, hbar]
      rfl

theorem readsAs (req : CandleBackfillRequest) (bar : VenueBar) :
    ReadsAs (read req) (candle req) (rowOf bar) bar := rfl

theorem page_of_carries {result : ChartDataResult} {bars : List VenueBar}
    (h : Carries result bars) : page result = .ok (bars.map rowOf) := by
  unfold page
  rcases h with ⟨hstatus, rfl⟩ | ⟨hstatus, hticks, hvalues⟩
  · rw [if_pos hstatus]
    rfl
  · rw [hstatus, if_neg (by decide), if_neg (by decide), chartRows_of_carried hticks hvalues]

end Deribit

/-! ## Complete windows -/

/-- The bars of the window, as candles, are what each connector returns exactly when no bar of the
window opens between two pages. -/
theorem fetchCandles_complete_iff {tf : Timeframe} (series : CandleSeries tf)
    (req : CandleBackfillRequest) (htf : req.timeframe = tf) (fromMs toMs : ℤ) (native : String) :
    (∀ rest, Served Binance.perpSymbols req fromMs toMs native → Binance.Answers rest native series →
      (Binance.fetchCandles rest req =
          .ok ((inWindow VenueBar.openTime fromMs toMs series.bars).map (Binance.candle req)) ↔
        ∀ bar ∈ inWindow VenueBar.openTime fromMs toMs series.bars,
          Asked fromMs (1500 * timeframeMs tf) (timeframeMs tf) bar.openTime)) ∧
    (∀ rest, Served Deribit.perpInstruments req fromMs toMs native →
      Deribit.Answers rest native series →
      (Deribit.fetchCandles rest req =
          .ok ((inWindow VenueBar.openTime fromMs toMs series.bars).map (Deribit.candle req)) ↔
        ∀ bar ∈ inWindow VenueBar.openTime fromMs toMs series.bars,
          Asked fromMs (5000 * timeframeMs tf) (timeframeMs tf) bar.openTime)) := by
  subst htf
  constructor
  · intro rest hserved hanswers
    have hloop : Binance.fetchCandles rest req = fetchPages
        (fun start stop =>
          rest ⟨native, Binance.interval req.timeframe, start, stop, Binance.maxBarsPerRequest⟩)
        (Binance.read req) Binance.maxBarsPerRequest (timeframeMs req.timeframe) fromMs toMs := by
      unfold Binance.fetchCandles requireNative
      rw [if_neg hserved.notSpot, hserved.symbol, hserved.windowOf]
      rfl
    rw [hloop]
    apply @fetchPages_eq_window_iff _ _ (Binance.candle req) _ series Binance.maxBarsPerRequest
    · intro lo hi
      obtain ⟨rows, hrows, hshows⟩ := hanswers lo hi
      exact ⟨rows, hrows, hshows.imp fun _ _ h => Binance.readsAs h⟩
    · exact fun _ => rfl
    · decide
  · intro rest hserved hanswers
    have hloop : Deribit.fetchCandles rest req = fetchPages
        (fun start stop => do
          Deribit.page (← rest ⟨native, Deribit.resolution req.timeframe, start, stop⟩))
        (Deribit.read req) Deribit.maxBarsPerRequest (timeframeMs req.timeframe) fromMs toMs := by
      unfold Deribit.fetchCandles requireNative
      rw [if_neg hserved.notSpot, hserved.symbol, hserved.windowOf]
      rfl
    rw [hloop]
    apply @fetchPages_eq_window_iff _ _ (Deribit.candle req) _ series Deribit.maxBarsPerRequest
    · intro lo hi
      obtain ⟨result, hresult, hcarries⟩ := hanswers lo hi
      refine ⟨(Paging.page VenueBar.openTime Deribit.maxBarsPerRequest lo hi series.bars).map
        Deribit.rowOf, ?_, ?_⟩
      · show (rest _).bind _ = _
        rw [hresult]
        exact Deribit.page_of_carries hcarries
      · rw [List.forall₂_map_left_iff, List.forall₂_same]
        exact fun bar _ => Deribit.readsAs req bar
    · exact fun _ => rfl
    · decide

/-! ## A bar between two pages -/

/-- A series of one bar. -/
def oneBar (openTime : ℤ) : CandleSeries .m1 where
  bars := [⟨openTime, ⟨1, 2, 1, 2, 10⟩, none⟩]
  spaced := List.pairwise_singleton _ _

def minuteRequest (fromMs toMs : ℤ) : CandleBackfillRequest :=
  ⟨"BTC-PERP", .perp, .m1, ⟨some fromMs, "from"⟩, ⟨some toMs, "to"⟩⟩

/-- A venue with the bars of a series. -/
def klineVenue (series : CandleSeries .m1) (params : Binance.KlineParams) :
    Except ConnectorError (List Binance.KlineRow) :=
  .ok ((page VenueBar.openTime params.limit params.startTime params.endTime series.bars).map
    fun bar => ⟨some bar.openTime, bar.values.map fun q => .num (.fin q),
      bar.trades.elim .undefined .num⟩)

def chartVenue (series : CandleSeries .m1) (params : Deribit.ChartParams) :
    Except ConnectorError Deribit.ChartDataResult :=
  let bars := page VenueBar.openTime Deribit.maxBarsPerRequest params.startTimestamp
    params.endTimestamp series.bars
  .ok ⟨"ok", bars.map VenueBar.openTime,
    ⟨bars.map fun bar => .fin bar.values.open, bars.map fun bar => .fin bar.values.high,
      bars.map fun bar => .fin bar.values.low, bars.map fun bar => .fin bar.values.close,
      bars.map fun bar => .fin bar.values.volume⟩⟩

theorem answers_klineVenue (series : CandleSeries .m1) (symbol : String) :
    Binance.Answers (klineVenue series) symbol series := by
  intro lo hi
  refine ⟨_, rfl, ?_⟩
  rw [List.forall₂_map_left_iff, List.forall₂_same]
  intro bar _
  refine ⟨rfl, rfl, ?_⟩
  cases bar.trades <;> rfl

theorem answers_chartVenue (series : CandleSeries .m1) (instrument : String) :
    Deribit.Answers (chartVenue series) instrument series :=
  fun _ _ => ⟨_, rfl, .inr ⟨rfl, rfl, rfl⟩⟩

/-- From the beginning of a minute on, the bar of the 1500th minute after it comes with the second
page. -/
theorem fetchCandles_complete_minutes :
    Binance.fetchCandles (klineVenue (oneBar 90000000)) (minuteRequest 0 90030000) =
        .ok ((inWindow VenueBar.openTime 0 90030000 (oneBar 90000000).bars).map
          (Binance.candle (minuteRequest 0 90030000))) ∧
      Deribit.fetchCandles (chartVenue (oneBar 90000000)) (minuteRequest 0 90030000) =
        .ok ((inWindow VenueBar.openTime 0 90030000 (oneBar 90000000).bars).map
          (Deribit.candle (minuteRequest 0 90030000))) := by
  constructor
  · apply ((fetchCandles_complete_iff (oneBar 90000000) (minuteRequest 0 90030000) rfl 0 90030000
      "BTCUSDT").1 _ ⟨by decide, rfl, rfl, rfl, by decide⟩ (answers_klineVenue _ _)).mpr
    decide
  · apply ((fetchCandles_complete_iff (oneBar 90000000) (minuteRequest 0 90030000) rfl 0 90030000
      "BTC-PERPETUAL").2 _ ⟨by decide, rfl, rfl, rfl, by decide⟩ (answers_chartVenue _ _)).mpr
    decide

/-- Half a minute past a minute, the bar that opens half a minute before the second page is in the
window, and neither page asks for it. -/
theorem bar_between_pages_lost :
    (Binance.Answers (klineVenue (oneBar 90000000)) "BTCUSDT" (oneBar 90000000) ∧
      (inWindow VenueBar.openTime 30000 90030000 (oneBar 90000000).bars).length = 1 ∧
      Binance.fetchCandles (klineVenue (oneBar 90000000)) (minuteRequest 30000 90030000) = .ok []) ∧
    (Deribit.Answers (chartVenue (oneBar 300000000)) "BTC-PERPETUAL" (oneBar 300000000) ∧
      (inWindow VenueBar.openTime 30000 300030000 (oneBar 300000000).bars).length = 1 ∧
      Deribit.fetchCandles (chartVenue (oneBar 300000000)) (minuteRequest 30000 300030000) =
        .ok []) := by
  refine ⟨⟨answers_klineVenue _ _, by decide, by rfl⟩, answers_chartVenue _ _, by decide, by rfl⟩

end NexusQuant.Ingestion
