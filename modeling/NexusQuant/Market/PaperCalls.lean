import NexusQuant.Market.BrokerStreams
import NexusQuant.Market.Ledgers
import NexusQuant.Market.Reconciled

/-!
# Calls over the paper broker

A call of the adapter over the paper broker, where nothing outside fails: it orders what its symbol is
short of its target, the broker fills the order at once and at its price, and the fill is committed
unless the notional it leads to overflows.  This holds in every lawful arithmetic.
-/

namespace NexusQuant.Market

open Execution Fallible Rounding Run

/-- Neither the journal nor a subscriber fails. -/
structure Surroundings.Quiet (e : Surroundings) : Prop where
  append : ∀ input, e.append input = none
  subscriber : ∀ published event, e.subscriber published event = none

theorem Surroundings.Quiet.world [A : Arithmetic] {e : Surroundings} (he : e.Quiet)
    (broker : Broker) : (worldOf (A := A) broker e).Quiet := he.subscriber

section Quantities

variable [A : Arithmetic]

/-- The signed quantity that the target is worth at a price. -/
def targetQty (intent : ExecutionIntent) (price : ℚ) : ℚ :=
  match intent.side with
  | .long => A.rounded (parseDecimal intent.targetNotional / price)
  | .short => -A.rounded (parseDecimal intent.targetNotional / price)

/-- The quantity that is held of a symbol. -/
def AdapterState.heldQty (s : AdapterState) (symbol : String) : ℚ :=
  parseDecimal (s.marketState.position symbol).netQty

theorem deltaSignedQty_eq (s : AdapterState) (intent : ExecutionIntent) (price : ℚ) :
    deltaSignedQty s intent price =
      A.rounded (targetQty intent price - s.heldQty intent.symbol) := by
  unfold deltaSignedQty targetQty AdapterState.heldQty
  cases intent.side with
  | long => dsimp only; rw [one_mul]
  | short => dsimp only; rw [neg_one_mul]

/-- Nothing is missing of the target, once it is written. -/
def Reached (target held : ℚ) : Prop :=
  quantizeQty |A.rounded (target - held)| = quantizeQty 0

instance (target held : ℚ) : Decidable (Reached target held) := inferInstanceAs (Decidable (_ = _))

theorem isNoOp_iff_reached {s : AdapterState} {intent : ExecutionIntent} {price : ℚ} :
    isNoOp s intent price ↔ Reached (targetQty intent price) (s.heldQty intent.symbol) := by
  unfold isNoOp Reached
  rw [deltaSignedQty_eq]

/-- The signed quantity that is ordered: what is missing of the target, as it is written. -/
def orderedQty (target held : ℚ) : ℚ :=
  let delta := A.rounded (target - held)
  let qty := parseDecimal (quantizeQty |delta|)
  if delta ≥ 0 then qty else -qty

/-- What the paper broker fills of an order. -/
def paperFill (order : Order) : Fill :=
  ⟨order.orderId, order.intentId, order.symbol, order.side, order.qty, order.price, order.lineage⟩

/-- The symbol's position once the paper broker has filled what is missing. -/
def paperPosition (cfg : AdapterConfig) (s : AdapterState) (intent : ExecutionIntent) (price : ℚ) :
    Position :=
  applyFill (s.marketState.position intent.symbol) (paperFill (orderFor cfg s intent price))

theorem signedFillQty_paperFill (cfg : AdapterConfig) (s : AdapterState) (intent : ExecutionIntent)
    (price : ℚ) : signedFillQty (paperFill (orderFor cfg s intent price)) =
      orderedQty (targetQty intent price) (s.heldQty intent.symbol) := by
  have hside : (paperFill (orderFor cfg s intent price)).side =
      if deltaSignedQty s intent price ≥ 0 then .buy else .sell := rfl
  have hqty : (paperFill (orderFor cfg s intent price)).qty =
      quantizeQty |deltaSignedQty s intent price| := rfl
  unfold signedFillQty orderedQty
  rw [hside, hqty, deltaSignedQty_eq]
  dsimp only
  by_cases hbuy : A.rounded (targetQty intent price - s.heldQty intent.symbol) ≥ 0
  · rw [if_pos hbuy, if_pos hbuy]
  · rw [if_neg hbuy, if_neg hbuy]

/-- What is held once the missing quantity is filled and the sum is written. -/
def tradedTo (target held : ℚ) : ℚ := heldAfter held (orderedQty target held)

theorem netQty_paperPosition (cfg : AdapterConfig) (s : AdapterState) (intent : ExecutionIntent)
    (price : ℚ) : parseDecimal (paperPosition cfg s intent price).netQty =
      tradedTo (targetQty intent price) (s.heldQty intent.symbol) := by
  rw [paperPosition, netQty_applyFill, signedFillQty_paperFill]
  rfl

theorem markPrice_paperPosition (cfg : AdapterConfig) (s : AdapterState) (intent : ExecutionIntent)
    (price : ℚ) : (paperPosition cfg s intent price).markPrice =
      quantizePrice (parseDecimal (quantizePrice price)) := by
  unfold paperPosition applyFill
  rfl

end Quantities

section Accepted

variable [A : Arithmetic] [A.Lawful]

theorem orderEpsilon_nonneg : 0 ≤ orderEpsilon := Arithmetic.rounded_nonneg (by norm_num)

/-- The tolerance does not lower the ordered quantity. -/
theorem not_overfills_self {qty : ℚ} (hself : A.rounded qty = qty) : ¬Overfills qty qty := by
  apply not_lt.mpr
  calc qty = A.rounded qty := hself.symm
    _ ≤ A.rounded (qty + orderEpsilon) :=
      Arithmetic.Lawful.mono (le_add_of_nonneg_right orderEpsilon_nonneg)

theorem completes_self (qty : ℚ) : Completes qty qty := by
  unfold Completes
  rw [sub_self, Arithmetic.rounded_zero, abs_zero]
  exact orderEpsilon_nonneg

/-- The paper broker's stream is accepted: one fill, of all that was ordered. -/
theorem paper_stream_fills {order : Order} (hpos : 0 < parseDecimal order.qty) :
    ∃ snapshot, reduceOrder order (PaperBroker.place order) = .ok snapshot ∧
      snapshot.fills = [paperFill order] := by
  have hself : A.rounded (0 + parseDecimal order.qty) = parseDecimal order.qty := by
    rw [zero_add]
    exact rounded_parseDecimal _
  have hcheck : checkFill order 0 (.filled ⟨order.qty, order.price, order.qty⟩)
      ⟨order.qty, order.price, order.qty⟩ = .ok () :=
    @checkFill_own _ order ⟨some .accepted, 0, []⟩ _ _ hpos (congrArg quantizeQty hself.symm)
      (not_overfills_self (rounded_parseDecimal _)) ⟨fun _ => completes_self _, nofun⟩
  have hstep := (@reduceEvent_own _ order ⟨some .accepted, 0, []⟩ 3
    (.filled ⟨order.qty, order.price, order.qty⟩) rfl (by simp [legalFrom, OrderEventBody.state])).2
    _ rfl hcheck
  have hfold : reduceEvents order 0 ⟨none, 0, []⟩ (PaperBroker.place order) =
      .ok ⟨some .filled, A.rounded (0 + parseDecimal order.qty), [paperFill order]⟩ := by
    rw [PaperBroker.place, reduceEvents_accepted, reduceEvents, hstep]
    rfl
  obtain ⟨snapshot, hsnapshot, -, hfills, -⟩ := reduceOrder_of_reduceEvents hfold rfl
  exact ⟨snapshot, hsnapshot, hfills⟩

end Accepted

/-! ## One call -/

section Call

variable [A : Arithmetic] {cfg : AdapterConfig} {e : Surroundings} {s : AdapterState}
  {intent : ExecutionIntent} {quote : Quote}

theorem referenceQuote_quiet (he : e.Quiet) (hquote : e.quote intent.symbol = .ok (some quote))
    (hprice : 0 < parseDecimal quote.price) :
    referenceQuote cfg (worldOf .paper e) intent = .ok quote := by
  have hanswer : (worldOf .paper e).quote intent.symbol = .ok (some quote) := hquote
  have hsilent : (worldOf .paper e).subscriber [] (.marketData quote cfg.providerMode) = none :=
    he.subscriber _ _
  unfold referenceQuote
  rw [hanswer]
  dsimp only
  rw [if_neg (not_not_intro hprice), hsilent]

theorem execute_noOp (he : e.Quiet) (hquote : e.quote intent.symbol = .ok (some quote))
    (hprice : 0 < parseDecimal quote.price) (hnoop : isNoOp s intent (parseDecimal quote.price)) :
    execute cfg (worldOf .paper e) s intent = (.returned (noOpResult cfg s intent quote),
      { s with portfolioMirror :=
        applyResult s.portfolioMirror (noOpResult cfg s intent quote) }) := by
  unfold execute attempt
  rw [referenceQuote_quiet he hquote hprice, Except.bind, if_pos hnoop]

/-- A call at a target that is reached only records its result in the mirror. -/
theorem stepCall_noOp (he : e.Quiet) (hquote : e.quote intent.symbol = .ok (some quote))
    (hprice : 0 < parseDecimal quote.price) (hnoop : isNoOp s intent (parseDecimal quote.price)) :
    (stepCall cfg s (worldOf .paper e, intent)).marketState = s.marketState ∧
      (stepCall cfg s (worldOf .paper e, intent)).journal = s.journal := by
  unfold stepCall
  dsimp only
  rw [execute_noOp he hquote hprice hnoop]
  exact ⟨rfl, rfl⟩

variable [A.Lawful]

theorem orderFor_qty_pos (cfg : AdapterConfig) {price : ℚ} (htraded : ¬isNoOp s intent price) :
    0 < parseDecimal (orderFor cfg s intent price).qty := by
  have htext : (orderFor cfg s intent price).qty = quantizeQty |deltaSignedQty s intent price| := rfl
  have hself : A.rounded |deltaSignedQty s intent price| = |deltaSignedQty s intent price| := by
    rw [deltaSignedQty_eq, ← Arithmetic.rounded_abs, Arithmetic.Lawful.idem]
  have hread := parseDecimal_quantize_rounded (by decide : 0 < qtyDp) hself
  rw [htext]
  have hunits : 0 < roundTo qtyDp (A.finiteOrZero |deltaSignedQty s intent price|) := by
    apply lt_of_le_of_ne
    · exact roundTo_nonneg (Arithmetic.finiteOrZero_nonneg (abs_nonneg _))
    · intro hzero
      apply htraded
      unfold isNoOp
      exact quantizeQty_eq_zero_iff.mpr hzero.symm
  -- A unit of the last place is far from vanishing.
  show 0 < parseDecimal (quantize qtyDp _)
  rw [hread]
  apply Arithmetic.rounded_pos
  apply le_trans _ (le_of_pos_of_mem_grid (roundTo_mem_grid qtyDp _) hunits)
  exact (Binary64.two_zpow_le (by norm_num : (-1074 : ℤ) ≤ -27)).trans (by norm_num [qtyDp])

/-! ## An order -/

omit [A.Lawful] in
/-- The symbol's position after the paper broker's fill. -/
theorem position_paperFill (cfg : AdapterConfig) (s : AdapterState) (intent : ExecutionIntent)
    (price : ℚ) :
    (applyFills s.marketState [paperFill (orderFor cfg s intent price)]).position intent.symbol =
      paperPosition cfg s intent price := by
  unfold MarketState.position
  show ((s.marketState.positions.set intent.symbol _).get? intent.symbol).getD _ = _
  rw [Dict.get?_set_self]
  rfl

/-- An order over the paper broker is committed when its notional does not overflow. -/
theorem Reconciled.execute_trades (h : Reconciled s) (htolerance : CoversCents cfg.tolerance)
    (he : e.Quiet) (hquote : e.quote intent.symbol = .ok (some quote))
    (hprice : 0 < parseDecimal quote.price)
    (htraded : ¬isNoOp s intent (parseDecimal quote.price))
    (hfits : A.finite (positionNotional (paperPosition cfg s intent (parseDecimal quote.price)))) :
    ∃ c, attempt cfg (worldOf .paper e) s intent = .ok (.commit c) ∧
      execute cfg (worldOf .paper e) s intent = (.returned c.result, c.state s intent) := by
  obtain ⟨snapshot, hsnapshot, hfills⟩ :=
    paper_stream_fills (orderFor_qty_pos cfg htraded)
  have hown : ∀ f ∈ snapshot.fills, f.symbol = intent.symbol := by
    rw [hfills]
    exact List.forall_mem_singleton.mpr rfl
  have hne : snapshot.fills ≠ [] := by
    rw [hfills]
    exact List.cons_ne_nil _ _
  rw [← position_paperFill, ← hfills] at hfits
  obtain ⟨c, hc⟩ := @Reconciled.settle_eq_ok _ cfg (worldOf .paper e) s intent _ h htolerance
    snapshot hown hne hfits
    (PaperBroker.place (orderFor cfg s intent (parseDecimal quote.price)))
    ([.marketData quote cfg.providerMode] ++
      (PaperBroker.place (orderFor cfg s intent (parseDecimal quote.price))).map .order)
  have htrade : trade cfg (worldOf .paper e) s intent quote = .ok c := by
    have hplace : (worldOf .paper e).place (orderFor cfg s intent (parseDecimal quote.price)) =
      .ok (PaperBroker.place (orderFor cfg s intent (parseDecimal quote.price))) := rfl
    unfold trade
    dsimp only
    rw [hplace]
    dsimp only
    rw [hsnapshot, publishAll_quiet (he.world .paper)]
    exact hc
  have hattempt : attempt cfg (worldOf .paper e) s intent = .ok (.commit c) := by
    unfold attempt
    rw [referenceQuote_quiet he hquote hprice, Except.bind, if_neg htraded, htrade]
    rfl
  refine ⟨c, hattempt, ?_⟩
  have happend : (worldOf .paper e).append (c.input intent) = none := he.append _
  unfold execute
  rw [hattempt]
  dsimp only
  rw [happend]
  dsimp only
  rw [publishAll_quiet (he.world .paper)]

/-- What an order over the paper broker commits is its one fill. -/
theorem candidate_of_attempt (he : e.Quiet) (hquote : e.quote intent.symbol = .ok (some quote))
    (hprice : 0 < parseDecimal quote.price) {c : Commit}
    (hattempt : attempt cfg (worldOf .paper e) s intent = .ok (.commit c)) :
    ∃ events snapshot published, snapshot.fills =
        [paperFill (orderFor cfg s intent (parseDecimal quote.price))] ∧
      settle cfg (worldOf .paper e) s intent events snapshot published = .ok c := by
  obtain ⟨quote', hreference, ⟨-, hnoop⟩ | ⟨htraded, c', htrade, heq⟩⟩ := attempt_ok hattempt
  · cases hnoop
  rw [referenceQuote_quiet he hquote hprice] at hreference
  cases hreference
  cases heq
  obtain ⟨events, snapshot, published, hplace, hreduce, hsettle⟩ := trade_ok htrade
  obtain ⟨snapshot', hsnapshot', hfills⟩ :=
    paper_stream_fills (orderFor_qty_pos cfg htraded)
  cases hplace
  have hsame : snapshot' = snapshot := Except.ok.inj (hsnapshot'.symm.trans hreduce)
  rw [hsame] at hfills
  exact ⟨_, snapshot, published, hfills, hsettle⟩

/-- An order whose notional overflows leaves the adapter as it was. -/
theorem Mirrored.stepCall_overflow (h : Mirrored s) (htolerance : 0 ≤ cfg.tolerance)
    (hfinite : A.finite cfg.tolerance) (he : e.Quiet)
    (hquote : e.quote intent.symbol = .ok (some quote)) (hprice : 0 < parseDecimal quote.price)
    (htraded : ¬isNoOp s intent (parseDecimal quote.price))
    (hlarge : ¬A.finite (positionNotional (paperPosition cfg s intent (parseDecimal quote.price)))) :
    stepCall cfg s (worldOf .paper e, intent) = s := by
  rcases stepCall_cases cfg s (worldOf .paper e, intent) with
    heq | ⟨result, hattempt, heq⟩ | ⟨c, hattempt, heq⟩
  · exact heq
  · obtain ⟨quote', hreference, ⟨hnoop, -⟩ | ⟨-, c, -, hcommit⟩⟩ := attempt_ok hattempt
    · rw [referenceQuote_quiet he hquote hprice] at hreference
      cases hreference
      exact absurd hnoop htraded
    · cases hcommit
  · obtain ⟨events, snapshot, published, hfills, hsettle⟩ :=
      candidate_of_attempt he hquote hprice hattempt
    have hown : ∀ f ∈ snapshot.fills, f.symbol = intent.symbol := by
      rw [hfills]
      exact List.forall_mem_singleton.mpr rfl
    have hfits := h.finite_of_settle htolerance hfinite hown hsettle
    rw [hfills, position_paperFill] at hfits
    exact absurd hfits hlarge

/-- A committed order leaves its symbol at the position that the fill leads to. -/
theorem Reconciled.stepCall_trades (h : Reconciled s) (htolerance : CoversCents cfg.tolerance)
    (he : e.Quiet) (hquote : e.quote intent.symbol = .ok (some quote))
    (hprice : 0 < parseDecimal quote.price)
    (htraded : ¬isNoOp s intent (parseDecimal quote.price))
    (hfits : A.finite (positionNotional (paperPosition cfg s intent (parseDecimal quote.price)))) :
    (stepCall cfg s (worldOf .paper e, intent)).marketState.position intent.symbol =
      paperPosition cfg s intent (parseDecimal quote.price) := by
  obtain ⟨c, hattempt, hexecute⟩ := h.execute_trades htolerance he hquote hprice htraded hfits
  obtain ⟨events, snapshot, published, hfills, hsettle⟩ :=
    candidate_of_attempt he hquote hprice hattempt
  obtain ⟨-, -, hcandidate, -⟩ := settle_ok hsettle
  unfold stepCall
  dsimp only
  rw [hexecute]
  show c.candidate.position intent.symbol = _
  rw [hcandidate, hfills, position_paperFill]

end Call

/-! ## Runs -/

/-- The state after calls over the paper broker, whatever fails around it. -/
def paperRun [A : Arithmetic] (cfg : AdapterConfig) (calls : List (Surroundings × ExecutionIntent)) :
    AdapterState :=
  run (stepCall cfg) (initialAdapterState cfg) (calls.map fun call => (worldOf .paper call.1, call.2))

theorem fillsOwnSymbol_paperCalls [A : Arithmetic] {calls : List (Surroundings × ExecutionIntent)} :
    ∀ call ∈ calls.map fun call => (worldOf .paper call.1, call.2), FillsOwnSymbol call.1 := by
  intro call hcall
  obtain ⟨outer, -, rfl⟩ := List.mem_map.mp hcall
  exact fillsOwnSymbol_worldOf

theorem reconciled_paperRun [A : Arithmetic] [A.Lawful] {cfg : AdapterConfig}
    (htolerance : 0 ≤ cfg.tolerance) (hfinite : A.finite cfg.tolerance)
    (calls : List (Surroundings × ExecutionIntent)) : Reconciled (paperRun cfg calls) := by
  apply run_invariant (P := fun _ call => FillsOwnSymbol call.1)
    (fun s call h hown => h.step htolerance hfinite hown) (reconciled_initial cfg)
  exact runMeets_of_forall fun call hcall _ => fillsOwnSymbol_paperCalls call hcall

/-! ## Surroundings for examples -/

/-- The symbol's own quotes and a sound journal, without a subscriber. -/
def quietSurroundings (price : String) : Surroundings :=
  ⟨fun symbol => .ok (some ⟨symbol, "2026-01-01T00:00:00.000Z", price⟩), fun _ => none,
    fun _ _ => none⟩

theorem quiet_quietSurroundings (price : String) : (quietSurroundings price).Quiet where
  append _ := rfl
  subscriber _ _ := rfl

end NexusQuant.Market
