import NexusQuant.Market.QuoteTransport
import NexusQuant.TradingDecision.Types

/-!
# The mark and the liquidity of the web tier

`apps/web/src/lib/market-price.ts`: the same tables read for a decision.  The two readers differ in one
place: the transport reads the middle of a book only where the book has no mark price, the web tier
also where the mark price is no price.
-/

namespace NexusQuant.Market

open TradingDecision (PriceObservation LiquidityObservation)

structure MarketView where
  price : Option PriceObservation
  liquidity : Option LiquidityObservation
deriving DecidableEq, Repr

def middle (book : BookColumns) : Option ℚ :=
  match num (some book.bestBid), num (some book.bestAsk) with
  | some bid, some ask => some ((bid + ask) / 2)
  | _, _ => none

section View

variable (nowMs maxAgeMs : JsNumber)

def bookObservation (book : MarketRow BookColumns) : Option PriceObservation :=
  if fresh book.ts nowMs maxAgeMs then
    match (num book.columns.markPrice).filter fun q => 0 < q with
    | some price => some ⟨price, book.ts.text, "orderbook.markPrice"⟩
    | none =>
        ((middle book.columns).filter fun q => 0 < q).map fun price =>
          ⟨price, book.ts.text, "orderbook.mid"⟩
  else none

/-- A tick or a candle. -/
def rowObservation (source : String) (row : MarketRow JsNumber) : Option PriceObservation :=
  if fresh row.ts nowMs maxAgeMs then
    ((num (some row.columns)).filter fun q => 0 < q).map fun price => ⟨price, row.ts.text, source⟩
  else none

/-- The liquidity of its own table, else that of the top of the book. -/
def liquidityOf (book : Option (MarketRow BookColumns)) (liq : Option (MarketRow LiquidityColumns)) :
    Option LiquidityObservation :=
  match liq.filter fun row => fresh row.ts nowMs maxAgeMs with
  | some row =>
      some
        { spreadBps := (num (some row.columns.spreadBps)).map JsNumber.fin
          depthUsd :=
            match num (some row.columns.bidDepthUsd), num (some row.columns.askDepthUsd) with
            | some bid, some ask => some (.fin (bid + ask))
            | _, _ => none
          ts := row.ts.text }
  | none =>
      (book.filter fun row => fresh row.ts nowMs maxAgeMs).map fun row =>
        { spreadBps := (num row.columns.spreadBps).map JsNumber.fin
          depthUsd :=
            match num (some row.columns.bestBidSize), num (some row.columns.bestAskSize),
              (middle row.columns).or (num row.columns.markPrice) with
            | some bidSz, some askSz, some refMid => some (.fin ((bidSz + askSz) * refMid))
            | _, _, _ => none
          ts := row.ts.text }

/-- An error is a failed read. -/
def getMarketView (db : Except String MarketTables) (symbol : String) : MarketView :=
  match db with
  | .error _ => ⟨none, none⟩
  | .ok tables =>
      let book := findFirst tables.orderbookSnapshots symbol
      let tick := findFirst tables.marketTicks symbol
      let candle := findFirst tables.marketCandles symbol
      { price :=
          (book.bind (bookObservation nowMs maxAgeMs)).or
            ((tick.bind (rowObservation nowMs maxAgeMs "tick")).or
              (candle.bind (rowObservation nowMs maxAgeMs "candle.close")))
        liquidity :=
          liquidityOf nowMs maxAgeMs book (findFirst tables.liquiditySnapshots symbol) }

end View

/-! ## The two readers -/

/-- No mark on both sides, or one of the same row and the same eight decimals. -/
def SameMark : Option Quote → Option PriceObservation → Prop
  | none, none => True
  | some quote, some price => quote.ts = price.ts ∧ quote.price = quantizePrice price.price
  | _, _ => False

/-- The quote of an observation. -/
def quoteOf (symbol : String) (p : PriceObservation) : Quote :=
  ⟨symbol, p.ts, quantizePrice p.price⟩

theorem sameMark_map (symbol : String) (p : Option PriceObservation) :
    SameMark (p.map (quoteOf symbol)) p := by
  cases p with
  | none => trivial
  | some p => exact ⟨rfl, rfl⟩

/-- The row is fresh and its number is a price. -/
structure Usable (now maxAgeMs : JsNumber) (c : Candidate) (price : ℚ) : Prop where
  isFresh : fresh c.ts now maxAgeMs
  mark : c.mark = .fin price
  pos : 0 < price

/-- What is used in place of the book: the tick, or the candle where no tick is usable. -/
def FallsTo (now maxAgeMs : JsNumber) (symbol : String) (tables : MarketTables) (c : Candidate)
    (price : ℚ) : Prop :=
  (tables.candidate symbol .tick = some c ∧ Usable now maxAgeMs c price) ∨
    (∀ t, tables.candidate symbol .tick = some t → ∀ p, ¬ Usable now maxAgeMs t p) ∧
      tables.candidate symbol .candle = some c ∧ Usable now maxAgeMs c price

section Readers

variable {maxAgeMs now : JsNumber} {symbol : String} {tables : MarketTables}

theorem admitCandidate_eq_some {c : Candidate} {quote : Quote} :
    admitCandidate maxAgeMs symbol now c = some quote ↔
      ∃ price, Usable now maxAgeMs c price ∧ quote = ⟨symbol, c.ts.text, quantizePrice price⟩ := by
  unfold admitCandidate
  constructor
  · intro h
    split at h
    · rename_i hfresh
      obtain ⟨price, hprice, rfl⟩ := Option.map_eq_some_iff.mp h
      obtain ⟨hmark, hpos⟩ := positive?_eq_some.mp hprice
      exact ⟨price, ⟨hfresh, hmark, hpos⟩, rfl⟩
    · cases h
  · rintro ⟨price, husable, rfl⟩
    rw [if_pos husable.isFresh, positive?_eq_some.mpr ⟨husable.mark, husable.pos⟩]
    rfl

theorem admitCandidate_eq_none {c : Candidate} :
    admitCandidate maxAgeMs symbol now c = none ↔ ∀ price, ¬ Usable now maxAgeMs c price := by
  rw [Option.eq_none_iff_forall_ne_some]
  constructor
  · intro h price husable
    exact h _ (admitCandidate_eq_some.mpr ⟨price, husable, rfl⟩)
  · intro h quote hquote
    obtain ⟨price, husable, -⟩ := admitCandidate_eq_some.mp hquote
    exact h price husable

/-- The mark of the sources behind the book. -/
def behindBook (maxAgeMs : JsNumber) (symbol : String) (now : JsNumber) (tables : MarketTables) :
    Option Quote :=
  ((tables.candidate symbol .tick).bind (admitCandidate maxAgeMs symbol now)).or
    ((tables.candidate symbol .candle).bind (admitCandidate maxAgeMs symbol now))

theorem markFor_eq : markFor maxAgeMs symbol now tables =
    ((tables.candidate symbol .book).bind (admitCandidate maxAgeMs symbol now)).or
      (behindBook maxAgeMs symbol now tables) := by
  unfold markFor behindBook
  rw [List.findSome?_cons, List.findSome?_cons, List.findSome?_cons, List.findSome?_nil]
  cases (tables.candidate symbol .book).bind (admitCandidate maxAgeMs symbol now) with
  | some quote => rfl
  | none =>
      cases (tables.candidate symbol .tick).bind (admitCandidate maxAgeMs symbol now) with
      | some quote => rfl
      | none =>
          cases (tables.candidate symbol .candle).bind (admitCandidate maxAgeMs symbol now) <;> rfl

theorem behindBook_eq_some {quote : Quote} :
    behindBook maxAgeMs symbol now tables = some quote ↔
      ∃ c price, FallsTo now maxAgeMs symbol tables c price ∧
        quote = ⟨symbol, c.ts.text, quantizePrice price⟩ := by
  have hbind : ∀ source,
      (tables.candidate symbol source).bind (admitCandidate maxAgeMs symbol now) = none ↔
      ∀ t, tables.candidate symbol source = some t → ∀ p, ¬ Usable now maxAgeMs t p := by
    intro source
    rw [Option.bind_eq_none_iff]
    exact forall₂_congr fun t _ => admitCandidate_eq_none
  unfold behindBook FallsTo
  rw [Option.or_eq_some_iff, hbind]
  constructor
  · rintro (htick | ⟨htick, hcandle⟩)
    · obtain ⟨c, hc, hadmit⟩ := Option.bind_eq_some_iff.mp htick
      obtain ⟨price, husable, rfl⟩ := admitCandidate_eq_some.mp hadmit
      exact ⟨c, price, .inl ⟨hc, husable⟩, rfl⟩
    · obtain ⟨c, hc, hadmit⟩ := Option.bind_eq_some_iff.mp hcandle
      obtain ⟨price, husable, rfl⟩ := admitCandidate_eq_some.mp hadmit
      exact ⟨c, price, .inr ⟨htick, hc, husable⟩, rfl⟩
  · rintro ⟨c, price, ⟨hc, husable⟩ | ⟨htick, hc, husable⟩, rfl⟩
    · exact .inl
        (Option.bind_eq_some_iff.mpr ⟨c, hc, admitCandidate_eq_some.mpr ⟨price, husable, rfl⟩⟩)
    · exact .inr ⟨htick,
        Option.bind_eq_some_iff.mpr ⟨c, hc, admitCandidate_eq_some.mpr ⟨price, husable, rfl⟩⟩⟩

/-! ### Source by source -/

theorem admitCandidate_rowObservation (source : String) (row : MarketRow JsNumber) :
    admitCandidate maxAgeMs symbol now ⟨row.ts, row.columns⟩ =
      (rowObservation now maxAgeMs source row).map (quoteOf symbol) := by
  unfold admitCandidate rowObservation
  split
  · rw [Option.map_map]
    rfl
  · rfl

theorem behindBook_eq_map : behindBook maxAgeMs symbol now tables =
    (((findFirst tables.marketTicks symbol).bind (rowObservation now maxAgeMs "tick")).or
      ((findFirst tables.marketCandles symbol).bind
        (rowObservation now maxAgeMs "candle.close"))).map (quoteOf symbol) := by
  have hrow : ∀ (source : String) (row : Option (MarketRow JsNumber)),
      (row.map fun r => (⟨r.ts, r.columns⟩ : Candidate)).bind (admitCandidate maxAgeMs symbol now) =
        (row.bind (rowObservation now maxAgeMs source)).map (quoteOf symbol) := by
    intro source row
    cases row with
    | none => rfl
    | some row => exact admitCandidate_rowObservation source row
  rw [Option.map_or, ← hrow, ← hrow]
  rfl

theorem positive?_middle (book : BookColumns) :
    positive? ((book.bestBid + book.bestAsk) / .fin 2) =
      (middle book).filter fun q => 0 < q := by
  unfold middle num
  cases book.bestBid with
  | fin bid =>
      cases book.bestAsk with
      | fin ask =>
          rw [JsNumber.fin_add, JsNumber.fin_div (by norm_num : (2 : ℚ) ≠ 0)]
          rfl
      | nan | posInf | negInf => rfl
  | nan | posInf | negInf => cases book.bestAsk <;> rfl

/-- The book as the transport reads it, where its mark price is missing or a price. -/
theorem admitCandidate_bookObservation {book : MarketRow BookColumns}
    (h : ∀ m, book.columns.markPrice = some m → positive? m = none → fresh book.ts now maxAgeMs →
      (middle book.columns).filter (fun q => 0 < q) = none) :
    admitCandidate maxAgeMs symbol now ⟨book.ts, bookMark book.columns⟩ =
      (bookObservation now maxAgeMs book).map (quoteOf symbol) := by
  unfold admitCandidate bookObservation bookMark
  by_cases hfresh : fresh book.ts now maxAgeMs
  · rw [if_pos hfresh, if_pos hfresh]
    cases hmark : book.columns.markPrice with
    | none =>
        dsimp only
        rw [positive?_middle]
        show _ = Option.map _ (Option.map _ _)
        rw [Option.map_map]
        rfl
    | some m =>
        dsimp only
        cases hm : positive? m with
        | some price =>
            have hnum : (num (some m)).filter (fun q => 0 < q) = some price := hm
            rw [hnum]
            rfl
        | none =>
            have hnum : (num (some m)).filter (fun q => 0 < q) = none := hm
            rw [hnum, h m hmark hm hfresh]
            rfl
  · rw [if_neg hfresh, if_neg hfresh]
    rfl

/-- A fresh book whose mark price is no price: the transport passes it over. -/
theorem admitCandidate_book_eq_none {book : MarketRow BookColumns} {m : JsNumber}
    (hmark : book.columns.markPrice = some m) (hm : positive? m = none) :
    admitCandidate maxAgeMs symbol now ⟨book.ts, bookMark book.columns⟩ = none := by
  unfold admitCandidate bookMark
  rw [hmark]
  dsimp only
  rw [hm]
  exact ite_self none

/-- And the web tier reads its middle. -/
theorem bookObservation_middle {book : MarketRow BookColumns} {m : JsNumber} {mid : ℚ}
    (hfresh : fresh book.ts now maxAgeMs) (hmark : book.columns.markPrice = some m)
    (hm : positive? m = none) (hmid : middle book.columns = some mid) (hpos : 0 < mid) :
    bookObservation now maxAgeMs book = some ⟨mid, book.ts.text, "orderbook.mid"⟩ := by
  have hnum : (num (some m)).filter (fun q => 0 < q) = none := hm
  unfold bookObservation
  rw [if_pos hfresh, hmark, hnum, hmid]
  show Option.map _ (if decide (0 < mid) = true then some mid else none) = _
  rw [if_pos (decide_eq_true hpos)]
  rfl

end Readers

/-- The readers agree exactly where no fresh book has a mark price that is no price beside a middle that
is one, unless what the transport falls through to has the instant of the book and the same eight
decimals. -/
theorem readers_agree_iff (maxAgeMs now : JsNumber) (symbol : String) (tables : MarketTables) :
    SameMark (markFor maxAgeMs symbol now tables)
        (getMarketView now maxAgeMs (.ok tables) symbol).price ↔
      ∀ book, findFirst tables.orderbookSnapshots symbol = some book →
        fresh book.ts now maxAgeMs → ∀ m, book.columns.markPrice = some m → positive? m = none →
        ∀ mid, middle book.columns = some mid → 0 < mid →
          ∃ c price, FallsTo now maxAgeMs symbol tables c price ∧ c.ts.text = book.ts.text ∧
            quantizePrice price = quantizePrice mid := by
  have hview : (getMarketView now maxAgeMs (.ok tables) symbol).price =
      ((findFirst tables.orderbookSnapshots symbol).bind (bookObservation now maxAgeMs)).or
        (((findFirst tables.marketTicks symbol).bind (rowObservation now maxAgeMs "tick")).or
          ((findFirst tables.marketCandles symbol).bind
            (rowObservation now maxAgeMs "candle.close"))) := rfl
  rw [hview, markFor_eq]
  have hcandidate : tables.candidate symbol .book =
    (findFirst tables.orderbookSnapshots symbol).map fun r => ⟨r.ts, bookMark r.columns⟩ := rfl
  rw [hcandidate]
  cases hbook : findFirst tables.orderbookSnapshots symbol with
  | none =>
      apply iff_of_true
      · rw [Option.map_none, Option.bind_none, Option.bind_none, Option.none_or, Option.none_or,
          behindBook_eq_map]
        exact sameMark_map symbol _
      · intro book hnone
        cases hnone
  | some book =>
      rw [Option.map_some, Option.bind_some, Option.bind_some]
      -- Either the transport reads the book as the web tier does, or it passes over a middle.
      by_cases hmasked : ∃ m mid, book.columns.markPrice = some m ∧ positive? m = none ∧
          fresh book.ts now maxAgeMs ∧ middle book.columns = some mid ∧ 0 < mid
      · obtain ⟨m, mid, hmark, hm, hfresh, hmid, hpos⟩ := hmasked
        rw [admitCandidate_book_eq_none hmark hm, bookObservation_middle hfresh hmark hm hmid hpos,
          Option.none_or, Option.some_or]
        constructor
        · intro hsame book' heq _ _ _ _ mid' hmid' _
          cases heq
          rw [hmid] at hmid'
          cases hmid'
          cases hbehind : behindBook maxAgeMs symbol now tables with
          | none =>
              rw [hbehind] at hsame
              exact hsame.elim
          | some quote =>
              rw [hbehind] at hsame
              obtain ⟨c, price, hfalls, rfl⟩ := behindBook_eq_some.mp hbehind
              exact ⟨c, price, hfalls, hsame.1, hsame.2⟩
        · intro h
          obtain ⟨c, price, hfalls, hts, hprice⟩ := h book rfl hfresh m hmark hm mid hmid hpos
          rw [behindBook_eq_some.mpr ⟨c, price, hfalls, rfl⟩]
          exact ⟨hts, hprice⟩
      · apply iff_of_true
        · have hread : ∀ m, book.columns.markPrice = some m → positive? m = none →
              fresh book.ts now maxAgeMs →
              (middle book.columns).filter (fun q => 0 < q) = none := by
            intro m hmark hm hfresh
            rw [Option.filter_eq_none_iff]
            intro mid hmid hpos
            exact hmasked ⟨m, mid, hmark, hm, hfresh, hmid, of_decide_eq_true hpos⟩
          rw [admitCandidate_bookObservation hread, behindBook_eq_map, ← Option.map_or]
          exact sameMark_map symbol _
        · intro book' heq hfresh m hmark hm mid hmid hpos
          cases heq
          exact absurd ⟨m, mid, hmark, hm, hfresh, hmid, hpos⟩ hmasked

/-- A book with a mark price of zero, ten seconds old, and nothing else. -/
def zeroMarkTables : MarketTables where
  orderbookSnapshots :=
    [⟨"DERIBIT", "BTC-PERP", ⟨"2026-01-01T00:00:00.000Z", .fin 1767225600000⟩,
      { bestBid := .fin 99
        bestAsk := .fin 101
        bestBidSize := .fin 1
        bestAskSize := .fin 1
        markPrice := some (.fin 0)
        spreadBps := none }⟩]
  marketTicks := []
  marketCandles := []
  liquiditySnapshots := []

/-- The web tier shows 100, and an order has no mark. -/
theorem zero_mark_price_disagrees :
    ¬ SameMark (markFor (.fin 60000) "BTC-PERP" (.fin 1767225610000) zeroMarkTables)
      (getMarketView (.fin 1767225610000) (.fin 60000) (.ok zeroMarkTables) "BTC-PERP").price := by
  have htransport : markFor (.fin 60000) "BTC-PERP" (.fin 1767225610000) zeroMarkTables = none := by
    decide +kernel
  have hview : (getMarketView (.fin 1767225610000) (.fin 60000) (.ok zeroMarkTables)
      "BTC-PERP").price = some ⟨100, "2026-01-01T00:00:00.000Z", "orderbook.mid"⟩ := by
    decide +kernel
  rw [htransport, hview]
  exact id

end NexusQuant.Market
