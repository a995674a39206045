import NexusQuant.Market.Types

/-!
# Positions, account and market state

The folds of `position.ts`, `account.ts` and `state.ts`: a fill moves the position of its symbol,
and the profit it realizes moves the account.
-/

namespace NexusQuant.Market

open Execution

/-! ## Position -/

def flatPosition (symbol : String) : Position :=
  ⟨symbol, quantizeQty 0, quantizePrice 0, quantizePnl 0, quantizePrice 0⟩

/-- `Math.sign`. -/
def mathSign (x : ℚ) : ℚ := if x < 0 then -1 else if x > 0 then 1 else 0

section Position

variable [A : Arithmetic]

/-- `QTY_EPSILON`. -/
def qtyEpsilon : ℚ := A.rounded (1 / 10 ^ 9)

def positionSide (p : Position) : PositionSide :=
  let q := parseDecimal p.netQty
  if q > qtyEpsilon then .long else if q < -qtyEpsilon then .short else .flat

def signedFillQty (fill : Fill) : ℚ :=
  let q := parseDecimal fill.qty
  match fill.side with
  | .buy => q
  | .sell => -q

/-- The cost basis and the realized profit after a fill of `f` at `price`. -/
def basisAfter (cur a realized f price : ℚ) : ℚ × ℚ :=
  if abs cur ≤ qtyEpsilon then (price, realized)
  else if mathSign cur = mathSign f then
    (A.rounded (A.rounded (A.rounded (abs cur * a) + A.rounded (abs f * price)) /
      A.rounded (abs cur + abs f)), realized)
  else
    let closeQty := min (abs f) (abs cur)
    let realized := A.rounded
      (realized + A.rounded (closeQty * A.rounded (price - a)) * mathSign cur)
    if abs f < abs cur then (a, realized)
    else if abs f > abs cur then (price, realized)
    else (0, realized)

/-- Fold one fill into a position: open, add, reduce, close or flip. -/
def applyFill (p : Position) (fill : Fill) : Position :=
  let cur := parseDecimal p.netQty
  let price := parseDecimal fill.price
  let f := signedFillQty fill
  let next := A.rounded (cur + f)
  let after := basisAfter cur (parseDecimal p.avgEntryPrice) (parseDecimal p.realizedPnl) f price
  let flat := abs next ≤ qtyEpsilon
  { symbol := p.symbol
    netQty := quantizeQty (if flat then 0 else next)
    avgEntryPrice := quantizePrice (if flat then 0 else after.1)
    realizedPnl := quantizePnl after.2
    markPrice := quantizePrice price }

/-- The notional at the stored mark. -/
def positionNotional (p : Position) : ℚ :=
  A.rounded (|parseDecimal p.netQty| * parseDecimal p.markPrice)

def positionNotionalString (p : Position) : String := quantizeNotional (positionNotional p)

/-- The unrealized profit at the stored mark. -/
def unrealizedPnl (p : Position) : ℚ :=
  let q := parseDecimal p.netQty
  if |q| ≤ qtyEpsilon then 0
  else A.rounded (q * A.rounded (parseDecimal p.markPrice - parseDecimal p.avgEntryPrice))

end Position

/-! ## Account -/

structure AccountConfig where
  initialCash : ℚ
  leverage : ℚ
deriving DecidableEq, Repr

/-- `DEFAULT_ACCOUNT_CONFIG`. -/
def defaultAccountConfig : AccountConfig := ⟨1000000, 1⟩

def emptyAccount (config : AccountConfig) : Account :=
  ⟨quantizePnl config.initialCash, quantizePnl 0⟩

section Account

variable [A : Arithmetic]

/-- Cash and realized profit both move by the delta; no caller charges a fee. -/
def applyRealized (account : Account) (realizedDelta : ℚ) : Account :=
  ⟨quantizePnl (A.rounded (parseDecimal account.cashBalance + realizedDelta)),
    quantizePnl (A.rounded (parseDecimal account.realizedPnl + realizedDelta))⟩

def valuateAccount (account : Account) (positions : Dict Position) (config : AccountConfig) :
    AccountValuation :=
  let held := positions.sortedKeys.filterMap positions.get?
  let unrealized := Arithmetic.sumOf (held.map unrealizedPnl)
  let gross := Arithmetic.sumOf (held.map positionNotional)
  let cash := parseDecimal account.cashBalance
  let realized := parseDecimal account.realizedPnl
  let equity := A.rounded (cash + unrealized)
  let leverage := if config.leverage > 0 then config.leverage else 1
  { cashBalance := quantizePnl cash
    realizedPnl := quantizePnl realized
    unrealizedPnl := quantizePnl unrealized
    equity := quantizePnl equity
    marginUsed := quantizeNotional (A.rounded (gross / leverage))
    buyingPower := quantizePnl (A.rounded (A.rounded (equity * leverage) - gross))
    grossExposure := quantizeNotional gross }

end Account

/-! ## Market state -/

def emptyMarketState (config : AccountConfig) : MarketState := ⟨[], emptyAccount config⟩

/-- The position of a symbol, flat when there is none. -/
def MarketState.position (state : MarketState) (symbol : String) : Position :=
  (state.positions.get? symbol).getD (flatPosition symbol)

section Fold

variable [A : Arithmetic]

/-- `REALIZED_EPSILON`. -/
def realizedEpsilon : ℚ := A.rounded (1 / 10 ^ 9)

def applyFillToMarketState (state : MarketState) (fill : Fill) : MarketState :=
  let prior := state.position fill.symbol
  let nextPos := applyFill prior fill
  let realizedDelta := A.rounded (parseDecimal nextPos.realizedPnl - parseDecimal prior.realizedPnl)
  { positions := state.positions.set fill.symbol nextPos
    account :=
      if |realizedDelta| > realizedEpsilon then applyRealized state.account realizedDelta
      else state.account }

def applyFills (state : MarketState) (fills : List Fill) : MarketState :=
  fills.foldl applyFillToMarketState state

def reconstructMarketState (fills : List Fill) (config : AccountConfig) : MarketState :=
  applyFills (emptyMarketState config) fills

theorem reconstructMarketState_append (fills more : List Fill) (config : AccountConfig) :
    reconstructMarketState (fills ++ more) config =
      applyFills (reconstructMarketState fills config) more :=
  List.foldl_append

/-! ## What a fill leaves alone and what it writes -/

/-- Fills of one symbol leave every other position as it was. -/
theorem applyFills_get?_of_ne {symbol other : String} (hne : other ≠ symbol) {fills : List Fill}
    (h : ∀ f ∈ fills, f.symbol = symbol) (state : MarketState) :
    (applyFills state fills).positions.get? other = state.positions.get? other := by
  induction fills generalizing state with
  | nil => rfl
  | cons f fills ih =>
      change (applyFills (applyFillToMarketState state f) fills).positions.get? other = _
      rw [ih (fun g hg => h g (List.mem_cons_of_mem f hg))]
      have hf := h f List.mem_cons_self
      exact Dict.get?_set_of_ne (by rw [hf]; exact hne)

/-- After at least one fill the symbol has a position. -/
theorem applyFills_get?_self {symbol : String} {fills : List Fill} (hne : fills ≠ [])
    (h : ∀ f ∈ fills, f.symbol = symbol) (state : MarketState) :
    ∃ p, (applyFills state fills).positions.get? symbol = some p := by
  obtain ⟨fills, f, rfl⟩ : ∃ init f, fills = init ++ [f] :=
    ⟨_, _, (List.dropLast_append_getLast hne).symm⟩
  have hf := h f (List.mem_append_right _ (List.mem_singleton.mpr rfl))
  rw [applyFills, List.foldl_append]
  change ∃ p, Dict.get? (Dict.set _ f.symbol _) symbol = some p
  rw [hf]
  exact ⟨_, Dict.get?_set_self⟩

end Fold

/-- The amounts of a position are canonical texts. -/
structure Position.Canonical (p : Position) : Prop where
  netQty : isCanonicalDecimalString p.netQty qtyDp
  avgEntryPrice : isCanonicalDecimalString p.avgEntryPrice priceDp
  realizedPnl : isCanonicalDecimalString p.realizedPnl notionalDp
  markPrice : isCanonicalDecimalString p.markPrice priceDp

structure Account.Canonical (a : Account) : Prop where
  cashBalance : isCanonicalDecimalString a.cashBalance notionalDp
  realizedPnl : isCanonicalDecimalString a.realizedPnl notionalDp

theorem canonical_applyFill [Arithmetic] (p : Position) (fill : Fill) : (applyFill p fill).Canonical := by
  constructor <;> dsimp only [applyFill]
  · exact isCanonical_quantizeQty _
  · exact isCanonical_quantizePrice _
  · exact isCanonical_quantizeNotional _
  · exact isCanonical_quantizePrice _

theorem canonical_emptyAccount (config : AccountConfig) : (emptyAccount config).Canonical where
  cashBalance := isCanonical_quantizeNotional _
  realizedPnl := isCanonical_quantizeNotional _

theorem canonical_applyRealized [Arithmetic] (a : Account) (x : ℚ) : (applyRealized a x).Canonical where
  cashBalance := isCanonical_quantizeNotional _
  realizedPnl := isCanonical_quantizeNotional _

/-- A market state all of whose texts are canonical, each position filed under its own symbol. -/
structure MarketState.WellFormed (state : MarketState) : Prop where
  positions : ∀ symbol p, state.positions.get? symbol = some p → p.Canonical ∧ p.symbol = symbol
  account : state.account.Canonical

theorem wellFormed_emptyMarketState (config : AccountConfig) :
    (emptyMarketState config).WellFormed :=
  ⟨by rintro symbol p ⟨⟩, canonical_emptyAccount config⟩

theorem MarketState.WellFormed.position_symbol {state : MarketState} (h : state.WellFormed)
    (symbol : String) : (state.position symbol).symbol = symbol := by
  unfold MarketState.position
  cases hget : state.positions.get? symbol with
  | none => rfl
  | some p => exact (h.positions symbol p hget).2

theorem MarketState.WellFormed.applyFillToMarketState [Arithmetic] {state : MarketState}
    (h : state.WellFormed) (fill : Fill) : (applyFillToMarketState state fill).WellFormed := by
  refine ⟨?_, ?_⟩
  · intro symbol p hp
    by_cases hsymbol : symbol = fill.symbol
    · subst hsymbol
      change Dict.get? (Dict.set _ _ _) _ = _ at hp
      rw [Dict.get?_set_self] at hp
      cases hp
      exact ⟨canonical_applyFill _ _, h.position_symbol fill.symbol⟩
    · change Dict.get? (Dict.set _ _ _) _ = _ at hp
      rw [Dict.get?_set_of_ne hsymbol] at hp
      exact h.positions symbol p hp
  · unfold Market.applyFillToMarketState
    dsimp only
    split
    · exact canonical_applyRealized _ _
    · exact h.account

theorem MarketState.WellFormed.applyFills [Arithmetic] {state : MarketState} (h : state.WellFormed)
    (fills : List Fill) : (applyFills state fills).WellFormed := by
  induction fills generalizing state with
  | nil => exact h
  | cons f fills ih => exact ih (h.applyFillToMarketState f)

end NexusQuant.Market
