import NexusQuant.Execution.HardCaps
import NexusQuant.Market.Recovery

/-!
# Hard caps with the broker-backed adapter

The gate checks the target of an intent; the market adapter records what the position is worth at
the price of its last fill, or at its old mark when nothing has to be traded.  Slippage, the rounding
of quantity and price, and an old mark can each put that above the target.  `MarkedWithin` says of a
call that they do not; `marked_caps_hold` carries the caps over every run of such calls, in doubles.
-/

namespace NexusQuant.Market

open Execution Rounding Run

/-! ## The prices a broker fills at -/

section Prices

variable [A : Arithmetic] [A.Lawful]

/-- The price after slippage stays nonnegative. -/
theorem slippedPrice_nonneg {price : ℚ} (hprice : 0 ≤ price) (side : OrderSide) {bps : ℕ}
    (hbps : bps < 25) : 0 ≤ slippedPrice price side bps := by
  have hnonneg : 0 ≤ A.rounded (bps / 10000) := Arithmetic.rounded_nonneg (by positivity)
  cases side with
  | buy =>
      apply Arithmetic.rounded_nonneg
      apply mul_nonneg hprice
      exact Arithmetic.rounded_nonneg (by linarith)
  | sell =>
      have hone : A.rounded 1 = 1 := by
        have h := Arithmetic.Lawful.two_zpow (A := A) (e := 0) (by decide)
        rwa [zpow_zero] at h
      -- Less than 25 basis points take nothing like the whole price.
      have hle : A.rounded (bps / 10000) ≤ 1 := by
        rw [← hone]
        apply Arithmetic.Lawful.mono
        have hcast : (bps : ℚ) < 25 := by exact_mod_cast hbps
        linarith
      apply Arithmetic.rounded_nonneg
      apply mul_nonneg hprice
      exact Arithmetic.rounded_nonneg (by linarith)

theorem simulated_prices_nonneg {order : Order} (h : 0 ≤ parseDecimal order.price) (chunk : ℚ)
    (left i : ℕ) (cum : ℚ) :
    ∀ f ∈ fillsFrom (SimulatedBroker.fills order chunk left i cum), 0 ≤ parseDecimal f.price := by
  -- On the parts that are left, each with a slippage of its own.
  induction left generalizing i cum with
  | zero =>
      intro f hf
      cases hf
  | succ left ih =>
      have hslipped := slippedPrice_nonneg h order.side (Nat.mod_lt
        (hash32 (order.orderId ++ ":slip:" ++ toString i)).toNat (by decide : 0 < 25))
      have hprice := parseDecimal_quantize_nonneg (by decide : 0 < priceDp) hslipped
      intro f hf
      rw [SimulatedBroker.fills, fillsFrom, List.filterMap_cons] at hf
      by_cases hleft : left = 0
      · rw [if_pos hleft] at hf
        rcases List.mem_cons.mp hf with rfl | hrest
        · exact hprice
        · exact ih _ _ f hrest
      · rw [if_neg hleft] at hf
        rcases List.mem_cons.mp hf with rfl | hrest
        · exact hprice
        · exact ih _ _ f hrest

/-- Neither broker fills at a negative price. -/
theorem prices_nonneg_of_broker (broker : Broker) {order : Order} (h : 0 ≤ parseDecimal order.price) :
    ∀ f ∈ fillsFrom (broker.place order), 0 ≤ parseDecimal f.price := by
  cases broker with
  | paper =>
      have hfills : fillsFrom (PaperBroker.place order) = [⟨order.orderId, order.intentId,
          order.symbol, order.side, order.qty, order.price, order.lineage⟩] := rfl
      show ∀ f ∈ fillsFrom (PaperBroker.place order), _
      rw [hfills]
      exact List.forall_mem_singleton.mpr h
  | simulated =>
      show ∀ f ∈ fillsFrom (SimulatedBroker.place order), _
      unfold SimulatedBroker.place
      dsimp only
      split
      · intro f hf
        cases hf
      · exact simulated_prices_nonneg h _ _ 0 0

end Prices

/-! ## What the fills do to a position -/

section Fills

variable [A : Arithmetic]

/-- The quantity that is held after a fill, as it is written. -/
def heldAfter (held signed : ℚ) : ℚ :=
  let next := A.rounded (held + signed)
  parseDecimal (quantizeQty (if |next| ≤ qtyEpsilon then 0 else next))

/-- The quantity that is held after all fills. -/
def filledTo (held : ℚ) (fills : List Fill) : ℚ :=
  fills.foldl (fun held f => heldAfter held (signedFillQty f)) held

theorem netQty_applyFill (p : Position) (fill : Fill) :
    parseDecimal (applyFill p fill).netQty =
      heldAfter (parseDecimal p.netQty) (signedFillQty fill) := by
  unfold applyFill heldAfter
  rfl

theorem position_applyFillToMarketState (state : MarketState) (fill : Fill) :
    (applyFillToMarketState state fill).position fill.symbol =
      applyFill (state.position fill.symbol) fill := by
  show (Dict.get? (Dict.set _ _ _) _).getD _ = _
  rw [Dict.get?_set_self]
  rfl

/-- The fills of one symbol move its quantity one after another. -/
theorem netQty_applyFills {symbol : String} {fills : List Fill}
    (hsymbol : ∀ f ∈ fills, f.symbol = symbol) (state : MarketState) :
    parseDecimal ((applyFills state fills).position symbol).netQty =
      filledTo (parseDecimal (state.position symbol).netQty) fills := by
  induction fills generalizing state with
  | nil => rfl
  | cons f fills ih =>
      have hf := hsymbol f List.mem_cons_self
      have hstep := position_applyFillToMarketState state f
      rw [hf] at hstep
      have hfold : applyFills state (f :: fills) =
          applyFills (applyFillToMarketState state f) fills := List.foldl_cons
      rw [hfold, ih fun g hg => hsymbol g (List.mem_cons_of_mem f hg), hstep, netQty_applyFill,
        filledTo, filledTo, List.foldl_cons]

/-- The last fill marks the position. -/
theorem markPrice_applyFills {symbol : String} {fills : List Fill} {last : Fill}
    (hlast : fills.getLast? = some last) (hsymbol : last.symbol = symbol) (state : MarketState) :
    ((applyFills state fills).position symbol).markPrice = quantizePrice (parseDecimal last.price) := by
  obtain ⟨init, rfl⟩ := List.getLast?_eq_some_iff.mp hlast
  have hstep := position_applyFillToMarketState (applyFills state init) last
  rw [hsymbol] at hstep
  have hfold : applyFills state (init ++ [last]) =
      applyFillToMarketState (applyFills state init) last := List.foldl_append
  rw [hfold, hstep]
  rfl

/-- Every position is marked at a price that is not negative. -/
def MarksNonneg (state : MarketState) : Prop :=
  ∀ symbol p, state.positions.get? symbol = some p → 0 ≤ parseDecimal p.markPrice

variable [A.Lawful]

theorem marksNonneg_applyFills {fills : List Fill} (hprice : ∀ f ∈ fills, 0 ≤ parseDecimal f.price)
    {state : MarketState} (h : MarksNonneg state) : MarksNonneg (applyFills state fills) := by
  induction fills generalizing state with
  | nil => exact h
  | cons f fills ih =>
      apply ih (fun g hg => hprice g (List.mem_cons_of_mem f hg))
      intro symbol p hp
      change Dict.get? (Dict.set _ f.symbol _) symbol = some p at hp
      -- The filled symbol takes the price of the fill as its mark; the others keep theirs.
      by_cases hsymbol : symbol = f.symbol
      · rw [hsymbol, Dict.get?_set_self] at hp
        rw [← Option.some.inj hp]
        exact parseDecimal_quantize_nonneg (by decide) (hprice f List.mem_cons_self)
      · rw [Dict.get?_set_of_ne hsymbol] at hp
        exact h symbol p hp

theorem markPrice_nonneg {state : MarketState} (h : MarksNonneg state) (symbol : String) :
    0 ≤ parseDecimal (state.position symbol).markPrice := by
  unfold MarketState.position
  cases hget : state.positions.get? symbol with
  | none =>
      have hzero : (flatPosition symbol).markPrice = quantize (A := A) priceDp 0 :=
        (quantize_zero priceDp).symm
      show 0 ≤ parseDecimal (flatPosition symbol).markPrice
      rw [hzero]
      exact parseDecimal_quantize_nonneg (by decide) le_rfl
  | some p => exact h symbol p hget

end Fills

/-! ## The adapter in the stage -/

/-- What surrounds the adapter during a call, its broker apart. -/
structure Surroundings where
  quote : String → Except String (Option Quote)
  append : MarketJournalInput → Option String
  subscriber : List MarketStageEvent → MarketStageEvent → Option String

def worldOf [A : Arithmetic] (broker : Broker) (e : Surroundings) : World where
  quote := e.quote
  place order := .ok (broker.place order)
  append := e.append
  subscriber := e.subscriber

/-- The market adapter over a broker, as the execution stage calls it. -/
def marketAdapter [A : Arithmetic] (cfg : AdapterConfig) (broker : Broker) :
    ExecutionAdapter (ExecutionIntent → Surroundings) AdapterState where
  id := cfg.id
  execute e s intent :=
    match execute cfg (worldOf broker (e intent)) s intent with
    | (.returned result, s) => (.ok result, s)
    | (.threw message, s) => (.error message, s)

/-- What the quantity the symbol is left with is worth, as far as it is finite, is below the target
plus half a cent: at the price of the broker's last fill when an order is placed, at the mark the
position has when the quantity is at its target already. -/
def MarkedWithin [A : Arithmetic] (cfg : AdapterConfig) (broker : Broker)
    (e : ExecutionIntent → Surroundings) (s : AdapterState) (intent : ExecutionIntent) : Prop :=
  ∀ quote ∈ (referenceQuote cfg (worldOf broker (e intent)) intent).toOption,
    let held := s.marketState.position intent.symbol
    let fills := fillsFrom (broker.place (orderFor cfg s intent (parseDecimal quote.price)))
    let bound := parseDecimal (A := .exact) intent.targetNotional + 1 / 200
    if isNoOp s intent (parseDecimal quote.price) then A.finiteOrZero (positionNotional held) < bound
    else ∀ last ∈ fills.getLast?,
      A.finiteOrZero (A.rounded (|filledTo (parseDecimal held.netQty) fills| *
        parseDecimal (quantizePrice (parseDecimal last.price)))) < bound

instance {A : Arithmetic} (cfg : AdapterConfig) (broker : Broker) (e : ExecutionIntent → Surroundings)
    (s : AdapterState) (intent : ExecutionIntent) :
    Decidable (@MarkedWithin A cfg broker e s intent) :=
  inferInstanceAs (Decidable (∀ quote ∈ (@referenceQuote A cfg (@worldOf A broker (e intent))
    intent).toOption, _))

/-- Below the target plus half a cent is at most the target once rounded to cents. -/
theorem roundTo_le_of_lt {x target : ℚ} (htarget : target ∈ grid notionalDp)
    (h : x < target + 1 / 200) : roundTo notionalDp x ≤ target := by
  obtain ⟨k, rfl⟩ := mem_grid.mp htarget
  obtain ⟨m, hm⟩ := mem_grid.mp (roundTo_mem_grid notionalDp x)
  have herror := (abs_le.mp (abs_roundTo_sub_le notionalDp x)).2
  rw [hm] at herror ⊢
  -- In cents: rounding adds at most half a cent, so the result is below the next cent.
  have hlt : (m : ℚ) < k + 1 := by
    norm_num [notionalDp] at herror h
    linarith
  have hle : m ≤ k := by
    have hlt' : m < k + 1 := by exact_mod_cast hlt
    omega
  have hcast : (m : ℚ) ≤ k := by exact_mod_cast hle
  gcongr

theorem referenceQuote_pos [A : Arithmetic] {cfg : AdapterConfig} {w : World} {intent : ExecutionIntent}
    {quote : Quote} (h : referenceQuote cfg w intent = .ok quote) :
    0 < parseDecimal quote.price := by
  unfold referenceQuote at h
  split at h
  · cases h
  · cases h
  · split at h
    · cases h
    · rename_i hprice
      split at h
      · cases h
      · cases h
        exact not_not.mp hprice

section Adapter

variable [A : Arithmetic] {cfg : AdapterConfig} {broker : Broker} {e : Surroundings} {s : AdapterState}
  {intent : ExecutionIntent}

theorem fillsOwnSymbol_worldOf : FillsOwnSymbol (worldOf broker e) :=
  @fillsOwnSymbol_of_broker A _ broker fun _ => rfl

/-- A commit, with the order it placed and the fills the broker answered with. -/
structure PlacedOrder (cfg : AdapterConfig) (broker : Broker) (e : Surroundings) (s : AdapterState)
    (intent : ExecutionIntent) (c : Commit) (quote : Quote) : Prop
    extends Commits cfg s intent c where
  reference : referenceQuote cfg (worldOf broker e) intent = .ok quote
  traded : ¬isNoOp s intent (parseDecimal quote.price)
  events : c.events = broker.place (orderFor cfg s intent (parseDecimal quote.price))

theorem placed_of_attempt {c : Commit}
    (h : attempt cfg (worldOf broker e) s intent = .ok (.commit c)) :
    ∃ quote, PlacedOrder cfg broker e s intent c quote := by
  have hcommits := commits_of_attempt fillsOwnSymbol_worldOf h
  obtain ⟨quote, hquote, ⟨-, heq⟩ | ⟨hnoop, c', htrade, heq⟩⟩ := attempt_ok h
  · cases heq
  cases heq
  obtain ⟨events, snapshot, published, hplace, -, hsettle⟩ := trade_ok htrade
  obtain ⟨-, hevents, -⟩ := settle_ok hsettle
  refine ⟨quote, hcommits, hquote, hnoop, ?_⟩
  rw [hevents]
  cases hplace
  rfl

/-- The net and the mark a commit leaves its symbol with. -/
theorem PlacedOrder.position_eq {c : Commit} {quote : Quote}
    (h : PlacedOrder cfg broker e s intent c quote) {last : Fill}
    (hlast : (fillsFrom c.events).getLast? = some last) :
    parseDecimal c.position.netQty =
        filledTo (parseDecimal (s.marketState.position intent.symbol).netQty) (fillsFrom c.events) ∧
      c.position.markPrice = quantizePrice (parseDecimal last.price) := by
  -- The candidate was folded from these fills, and its entry is what the commit reports.
  have hposition : (applyFills s.marketState (fillsFrom c.events)).position intent.symbol =
      c.position := by
    rw [← h.candidate, MarketState.position, h.position]
    rfl
  rw [← hposition]
  exact ⟨netQty_applyFills h.own _,
    markPrice_applyFills hlast (h.own last (List.mem_of_getLast? hlast)) _⟩

variable [A.Lawful]

theorem PlacedOrder.prices_nonneg {c : Commit} {quote : Quote}
    (h : PlacedOrder cfg broker e s intent c quote) :
    ∀ f ∈ fillsFrom c.events, 0 ≤ parseDecimal f.price := by
  rw [h.events]
  apply prices_nonneg_of_broker
  exact parseDecimal_quantize_nonneg (by decide) (referenceQuote_pos h.reference).le

theorem filledResult_withinTarget {p : Position} {detail : String}
    (hquantized : isCanonicalDecimalString intent.targetNotional notionalDp)
    (hpos : 0 < parseDecimal intent.targetNotional) (hmark : 0 ≤ parseDecimal p.markPrice)
    (hbound : A.finiteOrZero (positionNotional p) <
      parseDecimal (A := .exact) intent.targetNotional + 1 / 200) :
    WithinTarget intent (filledResult cfg intent p detail) := by
  have hself : A.rounded (positionNotional p) = positionNotional p := Arithmetic.Lawful.idem _
  have hnonneg : 0 ≤ positionNotional p :=
    Arithmetic.rounded_nonneg (mul_nonneg (abs_nonneg _) hmark)
  have htext : (filledResult cfg intent p detail).filledNotional =
      quantize notionalDp (positionNotional p) := rfl
  refine ⟨rfl, rfl, ?_, ?_, ?_⟩
  · rw [htext]
    exact isCanonicalDecimalString_quantize (by decide) _
  · rw [htext]
    exact parseDecimal_quantize_nonneg (by decide) hnonneg
  -- The target is on the grid of cents, so less than half a cent above it rounds to at most it.
  · rw [htext, parseDecimal_quantize_rounded (by decide) hself, parseDecimal_of_pos hpos]
    exact Arithmetic.Lawful.mono (roundTo_le_of_lt (parseDecimal_mem_grid hquantized) hbound)

/-- The exact product is less than half a cent above 700000, its double is not. -/
example :
    let p : Position := ⟨"BTC", "0.40642700", "0.00000000", "0.00", "1722326.53096374"⟩
    positionNotionalString (A := .exact) p = "700000.00" ∧
      positionNotionalString (A := .doubles) p = "700000.01" := by
  decide +kernel

/-- A FILLED result of a call that meets the condition stays within its target. -/
theorem execute_withinTarget (hs : MarksNonneg s.marketState)
    (hquantized : isCanonicalDecimalString intent.targetNotional notionalDp)
    (hpos : 0 < parseDecimal intent.targetNotional)
    {es : ExecutionIntent → Surroundings} (hmeets : MarkedWithin cfg broker es s intent)
    {result : ExecutionResult}
    (h : (execute cfg (worldOf broker (es intent)) s intent).1 = .returned result)
    (hfilled : result.status = .filled) : WithinTarget intent result := by
  unfold execute at h
  split at h
  · cases h
    cases hfilled
  · cases h
  · -- already at the target: the old mark decides
    rename_i noOp hattempt
    cases h
    obtain ⟨quote, hquote, ⟨hnoop, heq⟩ | ⟨-, c, -, heq⟩⟩ := attempt_ok hattempt
    · have hbound := hmeets quote (by rw [hquote]; rfl)
      dsimp only at hbound
      rw [if_pos hnoop] at hbound
      cases heq
      exact filledResult_withinTarget hquantized hpos (markPrice_nonneg hs _) hbound
    · cases heq
  · rename_i c hattempt
    split at h
    · cases h
      cases hfilled
    · dsimp only at h
      split at h
      · cases h
      · cases h
        -- The commit leaves the symbol with the net after the fills, marked at the last one.
        obtain ⟨quote, hplaced⟩ := placed_of_attempt hattempt
        obtain ⟨detail, hresult⟩ := hplaced.result
        have hlast : ∃ last, (fillsFrom c.events).getLast? = some last :=
          ⟨_, List.getLast?_eq_some_getLast hplaced.fills_ne⟩
        obtain ⟨last, hlast⟩ := hlast
        obtain ⟨hnet, hmark⟩ := hplaced.position_eq hlast
        have hbound := hmeets quote (by rw [hplaced.reference]; rfl)
        dsimp only at hbound
        rw [if_neg hplaced.traded, ← hplaced.events] at hbound
        have hworth := hbound last hlast
        rw [← hnet, ← hmark] at hworth
        have hlastPrice := hplaced.prices_nonneg last (List.mem_of_getLast? hlast)
        rw [hresult]
        apply filledResult_withinTarget hquantized hpos _ hworth
        rw [hmark]
        exact parseDecimal_quantize_nonneg (by decide) hlastPrice

theorem MarksNonneg.step (hs : MarksNonneg s.marketState) :
    MarksNonneg (stepCall cfg s (worldOf broker e, intent)).marketState := by
  rcases stepCall_cases cfg s (worldOf broker e, intent) with heq | ⟨result, -, heq⟩ |
    ⟨c, hattempt, heq⟩
  · rw [heq]
    exact hs
  · rw [heq]
    exact hs
  · obtain ⟨quote, hplaced⟩ := placed_of_attempt hattempt
    rw [heq]
    show MarksNonneg c.candidate
    rw [hplaced.candidate]
    exact marksNonneg_applyFills hplaced.prices_nonneg hs

theorem adapterSpec_market (cfg : AdapterConfig) (broker : Broker) :
    AdapterSpec (marketAdapter cfg broker) (fun s => MarksNonneg s.marketState)
      (MarkedWithin cfg broker) where
  keeps := by
    intro es s intent hs
    have hstep := @MarksNonneg.step A cfg broker (es intent) s intent _ hs
    unfold stepCall at hstep
    unfold marketAdapter
    dsimp only
    split
    · rename_i heq
      rw [heq] at hstep
      exact hstep
    · rename_i heq
      rw [heq] at hstep
      exact hstep
  within := by
    intro es s intent result hs hmeets hquantized hpos hanswer hfilled
    unfold marketAdapter at hanswer
    dsimp only at hanswer
    split at hanswer
    · rename_i heq
      cases hanswer
      exact execute_withinTarget hs hquantized hpos hmeets (by rw [heq]) hfilled
    · cases hanswer

end Adapter

/-! ## Every run -/

theorem marksNonneg_empty [Arithmetic] (config : AccountConfig) :
    MarksNonneg (emptyMarketState config) := by
  intro symbol p hp
  cases hp

/-- Every approved proposal of a tick has the caps outside of its two sums, and its call leaves the
symbol worth no more than the target, in doubles. -/
def TickWithin (cfg : AdapterConfig) (broker : Broker)
    (deps : StageDeps (ExecutionIntent → Surroundings) AdapterState) (s : StageState AdapterState)
    (tick : Tick (ExecutionIntent → Surroundings)) : Prop :=
  @TickMeets .doubles _ _ deps tick (@SumsWithin .doubles deps.limits)
    (@MarkedWithin .doubles cfg broker) s

instance (cfg : AdapterConfig) (broker : Broker)
    (deps : StageDeps (ExecutionIntent → Surroundings) AdapterState) (s : StageState AdapterState)
    (tick : Tick (ExecutionIntent → Surroundings)) : Decidable (TickWithin cfg broker deps s tick) :=
  @instDecidableTickMeets .doubles _ _ deps tick _ _ (fun _ _ => inferInstance)
    (fun _ _ _ => inferInstance) s

/-- A cap of 500000 for one of the strategies. -/
def carryLimits : RiskLimits :=
  { defaultRiskLimits with perStrategyMaxNotional := [("carry", .fin 500000)] }

theorem valid_carryLimits : carryLimits.Valid where
  position := by decide +kernel
  portfolio := by decide +kernel
  strategy id := by
    show ((Dict.get? [("carry", JsNumber.fin 500000)] id).getD (.fin 1500000)).isFinite ∧
      JsNumber.lt (.fin 0) ((Dict.get? [("carry", JsNumber.fin 500000)] id).getD (.fin 1500000))
    rw [Dict.get?_cons, Dict.get?_nil]
    split <;> decide +kernel

def brokerDeps : StageDeps (ExecutionIntent → Surroundings) AdapterState where
  adapter := marketAdapter (A := .doubles) doublesConfig .paper
  limits := carryLimits
  digest _ := "0123456789abcdef"
  localeCompare a b := if a < b then -1 else if b < a then 1 else 0

/-- One decision at one price for every symbol, a sound journal and silent subscribers. -/
def brokerTick (price : String) (decision : DecisionEvent) :
    Tick (ExecutionIntent → Surroundings) where
  decisions := [decision]
  portfolioConfig := defaultPortfolioConfig
  killSwitch _ := .normal
  riskGate := none
  tickId := none
  publish _ := none
  world _ := ⟨fun symbol => .ok (some ⟨symbol, "2026-01-01T00:00:00.000Z", price⟩), fun _ => none,
    fun _ _ => none⟩

end NexusQuant.Market
