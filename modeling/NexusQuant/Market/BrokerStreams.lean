import NexusQuant.Market.BookIdentities
import NexusQuant.Market.OrderStream

/-!
# Streams the reducer accepts

What the reducer makes of a stream that a broker built for the order, where each fill is partial
exactly as long as something is left of the order.
-/

namespace NexusQuant.Market

open Execution Fallible Rounding

/-! ## Acceptance -/

section Accept

variable [A : Arithmetic] {order : Order} {r : Reduction} {i : ℕ}

theorem reduceEvents_append (events more : List OrderEvent) :
    reduceEvents order i r (events ++ more) =
      (reduceEvents order i r events).bind fun r =>
        reduceEvents order (i + events.length) r more := by
  induction events generalizing i r with
  | nil => rfl
  | cons e events ih =>
      show (reduceEvent order r i e).bind _ = ((reduceEvent order r i e).bind _).bind _
      cases reduceEvent order r i e with
      | error e => rfl
      | ok r' =>
          show reduceEvents order (i + 1) r' (events ++ more) = _
          rw [ih, List.length_cons, Nat.add_right_comm, ← Nat.add_assoc]
          rfl

/-- An event of the order that comes next in the lifecycle passes the guards. -/
theorem reduceEvent_own {body : OrderEventBody} (hrunning : isTerminal r.state = false)
    (hlegal : r.state ∈ legalFrom body.state) :
    (body.fill? = none → reduceEvent order r i (baseEvent order i body) =
        .ok ⟨some body.state, r.filled, r.fills⟩) ∧
      ∀ fill, body.fill? = some fill → checkFill order r.filled body fill = .ok () →
        reduceEvent order r i (baseEvent order i body) = .ok
          ⟨some body.state, A.rounded (r.filled + parseDecimal fill.fillQty),
            r.fills ++ (baseEvent order i body).fill?.toList⟩ := by
  have hseq : ¬(baseEvent order i body).seq ≠ (i : ℤ) := not_not_intro rfl
  have horder : ¬(baseEvent order i body).orderId ≠ order.orderId := not_not_intro rfl
  have hstate : ¬isTerminal r.state = true := by simp [hrunning]
  have hnext : ¬r.state ∉ legalFrom (baseEvent order i body).body.state := not_not_intro hlegal
  have hbody : (baseEvent order i body).body = body := rfl
  unfold reduceEvent
  rw [if_neg hseq, if_neg horder, if_neg hstate, if_neg hnext, hbody]
  constructor
  · intro hfill
    rw [hfill]
  · intro fill hfill hcheck
    rw [hfill]
    dsimp only
    rw [hcheck]
    rfl

theorem reduceEvents_submitted (events : List OrderEvent) :
    reduceEvents order 0 ⟨none, 0, []⟩ (baseEvent order 0 .requested ::
        baseEvent order 1 .submitted :: events) =
      reduceEvents order 2 ⟨some .submitted, 0, []⟩ events := by
  have hrequested := (@reduceEvent_own _ order ⟨none, 0, []⟩ 0 .requested rfl (by decide)).1 rfl
  have hsubmitted :=
    (@reduceEvent_own _ order ⟨some .requested, 0, []⟩ 1 .submitted rfl (by decide)).1 rfl
  rw [reduceEvents, hrequested, Except.bind, reduceEvents, OrderEventBody.state, hsubmitted]
  rfl

/-- The three events of an order that was taken. -/
theorem reduceEvents_accepted (events : List OrderEvent) :
    reduceEvents order 0 ⟨none, 0, []⟩ (baseEvent order 0 .requested ::
        baseEvent order 1 .submitted :: baseEvent order 2 .accepted :: events) =
      reduceEvents order 3 ⟨some .accepted, 0, []⟩ events := by
  have haccepted :=
    (@reduceEvent_own _ order ⟨some .submitted, 0, []⟩ 2 .accepted rfl (by decide)).1 rfl
  rw [reduceEvents_submitted, reduceEvents, haccepted]
  rfl

/-- A fill passes its check when its cumulative quantity is the running sum, not past the order, and
completes it exactly in FILLED. -/
theorem checkFill_own {body : OrderEventBody} {fill : OrderFillData}
    (hpos : 0 < parseDecimal fill.fillQty)
    (hcum : quantizeQty (parseDecimal fill.cumQty) =
      quantizeQty (A.rounded (r.filled + parseDecimal fill.fillQty)))
    (hover : ¬Overfills (parseDecimal order.qty) (parseDecimal fill.cumQty))
    (hkind : (body.state = .filled → Completes (parseDecimal order.qty) (parseDecimal fill.cumQty)) ∧
      (body.state = .partiallyFilled →
        ¬Completes (parseDecimal order.qty) (parseDecimal fill.cumQty))) :
    checkFill order r.filled body fill = .ok () := by
  unfold checkFill
  dsimp only
  rw [if_neg (not_not_intro hpos), if_neg (not_not_intro hcum), if_neg hover, if_neg, if_neg]
  · exact fun h => hkind.2 h.1 h.2
  · exact fun h => h.2 (hkind.1 h.1)

/-- The snapshot of a fold that ended in a state. -/
theorem reduceOrder_of_reduceEvents {events : List OrderEvent} {state : OrderState}
    (h : reduceEvents order 0 ⟨none, 0, []⟩ events = .ok r) (hstate : r.state = some state) :
    ∃ snapshot, reduceOrder order events = .ok snapshot ∧ snapshot.state = state ∧
      snapshot.fills = r.fills ∧ snapshot.filledQty = quantizeQty r.filled ∧
      snapshot.orderedQty = quantizeQty (parseDecimal order.qty) := by
  unfold reduceOrder
  rw [h, Except.bind, hstate]
  refine ⟨_, rfl, ?_⟩
  dsimp only
  exact ⟨rfl, rfl, rfl, rfl⟩

/-- The stream of an order that was refused. -/
theorem rejected_stream_accepted (order : Order) (reason : String) :
    ∃ snapshot, reduceOrder order [baseEvent order 0 .requested, baseEvent order 1 .submitted,
        baseEvent order 2 (.rejected reason)] = .ok snapshot ∧
      snapshot.state = .rejected ∧ snapshot.fills = [] := by
  have hrejected := (@reduceEvent_own _ order ⟨some .submitted, 0, []⟩ 2 (.rejected reason) rfl
    (by simp [legalFrom, OrderEventBody.state])).1 rfl
  have hfold : reduceEvents order 0 ⟨none, 0, []⟩ [baseEvent order 0 .requested,
      baseEvent order 1 .submitted, baseEvent order 2 (.rejected reason)] =
      .ok ⟨some .rejected, 0, []⟩ := by
    rw [reduceEvents_submitted, reduceEvents, hrejected]
    rfl
  obtain ⟨snapshot, hsnapshot, hstate, hfills, -⟩ := reduceOrder_of_reduceEvents hfold rfl
  exact ⟨snapshot, hsnapshot, hstate, hfills⟩

end Accept

/-! ## Fills in exact decimals -/

section Fills

variable {order : Order} {r : Reduction} {i : ℕ}

/-- An order that can still be filled. -/
structure Reduction.Open (r : Reduction) : Prop where
  state : r.state = some .accepted ∨ r.state = some .partiallyFilled
  decimal : r.filled ∈ grid qtyDp

/-- What a fill on the eight-decimal grid leaves: FILLED when nothing is left of the order, and
PARTIALLY_FILLED before that. -/
theorem reduceEvent_fill {body : OrderEventBody} {fill : OrderFillData} (h : r.Open)
    (hfill : body.fill? = some fill) (hfq : parseDecimal fill.fillQty ∈ grid qtyDp)
    (hpos : 0 < parseDecimal fill.fillQty)
    (hcum : parseDecimal fill.cumQty = r.filled + parseDecimal fill.fillQty)
    (hle : r.filled + parseDecimal fill.fillQty ≤ parseDecimal order.qty)
    (hqty : parseDecimal order.qty ∈ grid qtyDp)
    (hkind : body.state = .filled ↔ r.filled + parseDecimal fill.fillQty = parseDecimal order.qty) :
    reduceEvent order r i (baseEvent order i body) = .ok
      ⟨some body.state, r.filled + parseDecimal fill.fillQty,
        r.fills ++ (baseEvent order i body).fill?.toList⟩ := by
  have hrunning : isTerminal r.state = false := by
    rcases h.state with hstate | hstate <;> rw [hstate] <;> rfl
  have hlegal : r.state ∈ legalFrom body.state := by
    rcases (fill?_state body).mp (by rw [hfill]; rfl) with hbody | hbody <;>
      rcases h.state with hstate | hstate <;> rw [hbody, hstate] <;> decide
  have hcheck : checkFill order r.filled body fill = .ok () := by
    have hsum := (grid qtyDp).add_mem h.decimal hfq
    apply checkFill_own hpos (by rw [hcum]; rfl)
    · rw [hcum, overfills_iff hqty hsum]
      exact not_lt.mpr hle
    · rw [hcum, completes_iff hqty hsum, ← hkind]
      exact ⟨id, fun hpart hdone => by rw [hpart] at hdone; cases hdone⟩
  exact (reduceEvent_own hrunning hlegal).2 fill hfill hcheck

end Fills

/-! ## The streams of the two brokers -/

/-- A fill is never better than the reference price. -/
def NotBetter (side : OrderSide) (reference price : ℚ) : Prop :=
  match side with
  | .buy => reference ≤ price
  | .sell => price ≤ reference

theorem notBetter_slipped {price : ℚ} (hmem : price ∈ grid priceDp) (hprice : 0 ≤ price)
    (side : OrderSide) (bps : ℕ) :
    NotBetter side price (roundTo priceDp (slippedPrice price side bps)) := by
  have hbps : (0 : ℚ) ≤ bps / 10000 := by positivity
  -- The reference price is its own rounding, and rounding is monotone.
  cases side with
  | buy =>
      show price ≤ roundTo priceDp (price * (1 + bps / 10000))
      calc price = roundTo priceDp price := (roundTo_eq_self hmem).symm
        _ ≤ roundTo priceDp (price * (1 + bps / 10000)) := by
          apply roundTo_mono
          nlinarith
  | sell =>
      show roundTo priceDp (price * (1 - bps / 10000)) ≤ price
      calc roundTo priceDp (price * (1 - bps / 10000)) ≤ roundTo priceDp price := by
            apply roundTo_mono
            nlinarith
        _ = price := roundTo_eq_self hmem

/-- A fill event of the order in canonical quantities, at no better price than the reference. -/
structure FillEvent (order : Order) (e : OrderEvent) : Prop where
  symbol : e.symbol = order.symbol
  side : e.side = order.side
  fill : ∃ fill, e.body.fill? = some fill ∧ isCanonicalDecimalString fill.fillQty qtyDp ∧
    isCanonicalDecimalString fill.cumQty qtyDp ∧
    NotBetter order.side (parseDecimal order.price) (parseDecimal fill.fillPrice)

/-- The amounts of the order are canonical, and its price is not negative. -/
structure OrderCanonical (order : Order) : Prop where
  qty : isCanonicalDecimalString order.qty qtyDp
  price : isCanonicalDecimalString order.price priceDp
  nonneg : 0 ≤ parseDecimal order.price

theorem floor8_mem_grid (x : ℚ) : floor8 x ∈ grid qtyDp := mem_grid.mpr ⟨_, rfl⟩

section Simulated

variable {order : Order} {chunk : ℚ}

/-- The fill with number `i` of a simulated order, of a quantity `fq`. -/
def simulatedFill (order : Order) (i : ℕ) (cum fq : ℚ) : OrderFillData where
  fillQty := quantizeQty fq
  fillPrice := quantizePrice (slippedPrice (parseDecimal order.price) order.side
    ((hash32 (order.orderId ++ ":slip:" ++ toString i)).toNat % 25))
  cumQty := quantizeQty (cum + fq)

theorem fills_last (i : ℕ) (cum : ℚ) : SimulatedBroker.fills order chunk 1 i cum =
    [baseEvent order (3 + i) (.filled
      (simulatedFill order i cum (parseDecimal order.qty - cum)))] := rfl

theorem fills_part (left i : ℕ) (cum : ℚ) : SimulatedBroker.fills order chunk (left + 2) i cum =
    baseEvent order (3 + i) (.partiallyFilled (simulatedFill order i cum chunk)) ::
      SimulatedBroker.fills order chunk (left + 1) (i + 1) (cum + chunk) := rfl

theorem fillEvent_simulatedFill (h : OrderCanonical order) (seq i : ℕ) (cum fq : ℚ)
    {body : OrderEventBody} (hbody : body.fill? = some (simulatedFill order i cum fq)) :
    FillEvent order (baseEvent order seq body) where
  symbol := rfl
  side := rfl
  fill := by
    refine ⟨_, hbody, isCanonical_quantizeQty _, isCanonical_quantizeQty _, ?_⟩
    show NotBetter _ _ (parseDecimal (quantizePrice _))
    rw [parseDecimal_quantizePrice]
    exact notBetter_slipped (parseDecimal_mem_grid h.price) h.nonneg order.side _

theorem fillEvent_simulated (h : OrderCanonical order) (left i : ℕ) (cum : ℚ) :
    ∀ e ∈ SimulatedBroker.fills order chunk (left + 1) i cum, FillEvent order e := by
  induction left generalizing i cum with
  | zero =>
      rw [fills_last, List.forall_mem_singleton]
      exact fillEvent_simulatedFill h _ _ _ _ rfl
  | succ left ih =>
      rw [fills_part, List.forall_mem_cons]
      exact ⟨fillEvent_simulatedFill h _ _ _ _ rfl, ih _ _⟩

theorem length_simulated (left i : ℕ) (cum : ℚ) :
    (SimulatedBroker.fills order chunk left i cum).length = left := by
  induction left generalizing i cum with
  | zero => rfl
  | succ left ih => rw [SimulatedBroker.fills, List.length_cons, ih]

theorem reduceEvent_simulatedFill (h : OrderCanonical order) {r : Reduction} (hr : r.Open) (i : ℕ)
    {fq : ℚ} (hmem : fq ∈ grid qtyDp) (hpos : 0 < fq) (hle : r.filled + fq ≤ parseDecimal order.qty)
    {body : OrderEventBody} (hbody : body.fill? = some (simulatedFill order i r.filled fq))
    (hkind : body.state = .filled ↔ r.filled + fq = parseDecimal order.qty) :
    reduceEvent order r (3 + i) (baseEvent order (3 + i) body) = .ok ⟨some body.state,
      r.filled + fq, r.fills ++ (baseEvent order (3 + i) body).fill?.toList⟩ := by
  have hfq : parseDecimal (simulatedFill order i r.filled fq).fillQty = fq :=
    parseDecimal_quantizeQty hmem
  have hcum : parseDecimal (simulatedFill order i r.filled fq).cumQty = r.filled + fq :=
    parseDecimal_quantizeQty ((grid qtyDp).add_mem hr.decimal hmem)
  have hstep := @reduceEvent_fill order r (3 + i) body _ hr hbody
  rw [hfq, hcum] at hstep
  exact hstep hmem hpos rfl hle (parseDecimal_mem_grid h.qty) hkind

/-- The parts before the last leave something of the order, and the last one completes it. -/
theorem reduceEvents_simulated (h : OrderCanonical order) (hchunk : chunk ∈ grid qtyDp)
    (left i : ℕ) {r : Reduction} (hr : r.Open) (hpositive : left ≠ 0 → 0 < chunk)
    (hremainder : 0 < parseDecimal order.qty - r.filled - left * chunk) :
    ∃ r', reduceEvents order (3 + i) r
        (SimulatedBroker.fills order chunk (left + 1) i r.filled) = .ok r' ∧
      r'.state = some .filled := by
  have hqty := parseDecimal_mem_grid h.qty
  induction left generalizing i r with
  | zero =>
      rw [Nat.cast_zero, zero_mul, sub_zero] at hremainder
      rw [fills_last, reduceEvents, reduceEvent_simulatedFill h hr i
        ((grid qtyDp).sub_mem hqty hr.decimal) hremainder (by linarith) rfl
        (iff_of_true rfl (by ring))]
      exact ⟨_, rfl, rfl⟩
  | succ left ih =>
      have hpos := hpositive (Nat.succ_ne_zero left)
      have hrest : 0 ≤ (left : ℚ) * chunk := mul_nonneg (Nat.cast_nonneg left) hpos.le
      push_cast at hremainder
      have hshort : r.filled + chunk < parseDecimal order.qty := by linarith
      rw [fills_part, reduceEvents, reduceEvent_simulatedFill h hr i hchunk hpos hshort.le rfl
        (iff_of_false (by simp [OrderEventBody.state]) hshort.ne)]
      apply ih (i + 1) ⟨.inr rfl, (grid qtyDp).add_mem hr.decimal hchunk⟩ fun _ => hpos
      show 0 < parseDecimal order.qty - (r.filled + chunk) - left * chunk
      linarith

/-- The number of parts that is drawn, and the collapse of a split into nothing: every part before
the last is positive, and they leave something for the last. -/
theorem simulated_parts {qty : ℚ} (hpos : 0 < qty) (draw : ℕ) :
    ∃ left : ℕ, (left < 3 ∧ (left ≠ 0 → 0 < floor8 (qty / (1 + draw % 3 : ℕ))) ∧
        0 < qty - left * floor8 (qty / (1 + draw % 3 : ℕ))) ∧
      (if 1 + draw % 3 > 1 ∧ ¬floor8 (qty / (1 + draw % 3 : ℕ)) > 0 then 1 else 1 + draw % 3) =
        left + 1 := by
  have hdrawn : draw % 3 < 3 := Nat.mod_lt _ (by decide)
  by_cases hcollapse : 1 + draw % 3 > 1 ∧ ¬floor8 (qty / (1 + draw % 3 : ℕ)) > 0
  · refine ⟨0, ⟨by decide, fun h => absurd rfl h, ?_⟩, if_pos hcollapse⟩
    rw [Nat.cast_zero, zero_mul, sub_zero]
    exact hpos
  · refine ⟨draw % 3, ⟨hdrawn, ?_, ?_⟩, by rw [if_neg hcollapse, add_comm]⟩
    · intro hne
      by_contra hnone
      exact hcollapse ⟨by omega, hnone⟩
    · -- The parts are rounded down, so all but one of them leave at least an exact part.
      have hparts : (0 : ℚ) < (1 + draw % 3 : ℕ) := by positivity
      have hfloor : floor8 (qty / (1 + draw % 3 : ℕ)) ≤ qty / (1 + draw % 3 : ℕ) := by
        unfold floor8
        simp only [Arithmetic.rounded_exact]
        rw [div_le_iff₀ (by positivity)]
        exact Int.floor_le _
      have hexact : qty / (1 + draw % 3 : ℕ) * (1 + draw % 3 : ℕ) = qty :=
        div_mul_cancel₀ _ hparts.ne'
      have hpart : 0 < qty / (1 + draw % 3 : ℕ) := div_pos hpos hparts
      have hsum := mul_le_mul_of_nonneg_left hfloor (Nat.cast_nonneg (α := ℚ) (draw % 3))
      push_cast at *
      linarith

end Simulated

/-! ## What the streams come to -/

/-- The snapshot of an order that was filled in full, by one to three fills. -/
structure FilledInFull (order : Order) (snapshot : OrderSnapshot) : Prop where
  state : snapshot.state = .filled
  filledQty : parseDecimal snapshot.filledQty = parseDecimal order.qty
  count : 1 ≤ snapshot.fills.length ∧ snapshot.fills.length ≤ 3
  positive : ∀ f ∈ snapshot.fills, 0 < parseDecimal f.qty
  total : totalFilled snapshot.fills = parseDecimal order.qty
  own : ∀ f ∈ snapshot.fills, f.symbol = order.symbol ∧ f.side = order.side
  price : ∀ f ∈ snapshot.fills,
    NotBetter order.side (parseDecimal order.price) (parseDecimal f.price)

section Streams

variable {order : Order}

theorem fill?_accepted (fills : List OrderEvent) :
    (baseEvent order 0 .requested :: baseEvent order 1 .submitted :: baseEvent order 2 .accepted ::
      fills).filterMap OrderEvent.fill? = fills.filterMap OrderEvent.fill? := rfl

theorem length_filterMap_fillEvents {fills : List OrderEvent} (h : ∀ e ∈ fills, FillEvent order e) :
    (fills.filterMap OrderEvent.fill?).length = fills.length := by
  induction fills with
  | nil => rfl
  | cons e fills ih =>
      obtain ⟨he, hfills⟩ := List.forall_mem_cons.mp h
      obtain ⟨fill, hfill, -⟩ := he.fill
      have hsome : ∃ f, e.fill? = some f := ⟨_, by rw [OrderEvent.fill?, hfill]; rfl⟩
      obtain ⟨f, hf⟩ := hsome
      rw [List.filterMap_cons_some hf, List.length_cons, List.length_cons, ih hfills]

/-- A stream of fill events behind an acceptance that ends in FILLED has filled the order. -/
theorem filledInFull {fills : List OrderEvent} (hqty : isCanonicalDecimalString order.qty qtyDp)
    (hpos : 0 < parseDecimal order.qty) (hfills : ∀ e ∈ fills, FillEvent order e)
    (hcount : 1 ≤ fills.length ∧ fills.length ≤ 3) {r : Reduction}
    (h : reduceEvents order 3 ⟨some .accepted, 0, []⟩ fills = .ok r)
    (hstate : r.state = some .filled) :
    ∃ snapshot, reduceOrder order (baseEvent order 0 .requested :: baseEvent order 1 .submitted ::
        baseEvent order 2 .accepted :: fills) = .ok snapshot ∧ FilledInFull order snapshot := by
  rw [← reduceEvents_accepted] at h
  obtain ⟨snapshot, hsnapshot, hfinal, -⟩ := reduceOrder_of_reduceEvents h hstate
  have hkept : QuantitiesKept order (baseEvent order 0 .requested ::
      baseEvent order 1 .submitted :: baseEvent order 2 .accepted :: fills) := by
    apply quantitiesKept_exact hqty
    rw [List.forall_mem_cons, List.forall_mem_cons, List.forall_mem_cons]
    refine ⟨nofun, nofun, nofun, ?_⟩
    intro e he fill hfill
    obtain ⟨fill', hfill', hcanonical⟩ := (hfills e he).fill
    rw [hfill'] at hfill
    cases hfill
    exact ⟨hcanonical.1, hcanonical.2.1⟩
  have hown : OwnFills order (baseEvent order 0 .requested :: baseEvent order 1 .submitted ::
      baseEvent order 2 .accepted :: fills) := by
    unfold OwnFills
    rw [List.forall_mem_cons, List.forall_mem_cons, List.forall_mem_cons]
    exact ⟨nofun, nofun, nofun, fun e he _ => ⟨(hfills e he).symbol, (hfills e he).side⟩⟩
  have hsound := (soundStream_iff hsnapshot).mpr ⟨hpos, hown, hkept⟩
  have hlisted := (reduceOrder_ok hsnapshot).2
  rw [fill?_accepted] at hlisted
  have htotal := hsound.complete.mp hfinal
  refine ⟨snapshot, hsnapshot, ?_⟩
  constructor
  · exact hfinal
  · rw [← hsound.total, htotal]
  · rw [hlisted, length_filterMap_fillEvents hfills]
    exact hcount
  · exact hsound.positive
  · exact htotal
  · exact hsound.own
  · intro f hf
    rw [hlisted] at hf
    obtain ⟨e, he, hef⟩ := List.mem_filterMap.mp hf
    obtain ⟨fill, hfill, -, -, hprice⟩ := (hfills e he).fill
    rw [OrderEvent.fill?, hfill] at hef
    cases hef
    exact hprice

end Streams

theorem reduceEvents_paper {order : Order} (hqty : isCanonicalDecimalString order.qty qtyDp)
    (hpos : 0 < parseDecimal order.qty) :
    ∃ r, reduceEvents order 3 ⟨some .accepted, 0, []⟩
        [baseEvent order 3 (.filled ⟨order.qty, order.price, order.qty⟩)] = .ok r ∧
      r.state = some .filled := by
  have hsum : (0 : ℚ) + parseDecimal order.qty = parseDecimal order.qty := zero_add _
  have hmem := parseDecimal_mem_grid hqty
  have hstep := @reduceEvent_fill order ⟨some .accepted, 0, []⟩ 3
    (.filled ⟨order.qty, order.price, order.qty⟩) ⟨order.qty, order.price, order.qty⟩
    ⟨.inl rfl, (grid qtyDp).zero_mem⟩ rfl hmem hpos hsum.symm hsum.le hmem (iff_of_true rfl hsum)
  rw [reduceEvents, hstep]
  exact ⟨_, rfl, rfl⟩

/-- The paper broker fills every order at once. -/
theorem paper_stream_accepted {order : Order} (hqty : isCanonicalDecimalString order.qty qtyDp)
    (hpos : 0 < parseDecimal order.qty) :
    ∃ snapshot, reduceOrder order (PaperBroker.place order) = .ok snapshot ∧
      FilledInFull order snapshot := by
  obtain ⟨r, hr, hstate⟩ := reduceEvents_paper hqty hpos
  have hfillEvent : FillEvent order
      (baseEvent order 3 (.filled ⟨order.qty, order.price, order.qty⟩)) := by
    refine ⟨rfl, rfl, _, rfl, hqty, hqty, ?_⟩
    unfold NotBetter
    cases order.side <;> exact le_refl _
  exact filledInFull hqty hpos (List.forall_mem_singleton.mpr hfillEvent) (by simp) hr hstate

/-- The stream of a deterministic broker is accepted, and either it is a rejection without a fill or
it fills the order. -/
theorem broker_stream_accepted (broker : Broker) {order : Order}
    (hqty : isCanonicalDecimalString order.qty qtyDp) (hpos : 0 < parseDecimal order.qty)
    (hprice : isCanonicalDecimalString order.price priceDp)
    (hprice_pos : 0 < parseDecimal order.price) :
    ∃ snapshot, reduceOrder order (broker.place order) = .ok snapshot ∧
      ((snapshot.state = .rejected ∧ snapshot.fills = []) ∨ FilledInFull order snapshot) := by
  cases broker with
  | paper =>
      obtain ⟨snapshot, hsnapshot, hfull⟩ := paper_stream_accepted hqty hpos
      exact ⟨snapshot, hsnapshot, .inr hfull⟩
  | simulated =>
      have hopen : Reduction.Open ⟨some .accepted, 0, []⟩ := ⟨.inl rfl, (grid qtyDp).zero_mem⟩
      have hcanonical : OrderCanonical order := ⟨hqty, hprice, hprice_pos.le⟩
      unfold Broker.place SimulatedBroker.place
      dsimp only
      by_cases hreject : hash32 (order.orderId ++ ":reject") &&& 0x3f = 0
      · rw [if_pos hreject]
        obtain ⟨snapshot, hsnapshot, hrejected⟩ :=
          rejected_stream_accepted order "simulated venue reject"
        exact ⟨snapshot, hsnapshot, .inl hrejected⟩
      · rw [if_neg hreject, Arithmetic.rounded_exact]
        obtain ⟨left, hleft, hparts⟩ := simulated_parts hpos
          (hash32 (order.orderId ++ ":parts")).toNat
        rw [hparts]
        obtain ⟨r, hr, hstate⟩ := reduceEvents_simulated hcanonical (floor8_mem_grid _) left 0 hopen
          hleft.2.1 (by simpa using hleft.2.2)
        obtain ⟨snapshot, hsnapshot, hfull⟩ := filledInFull hqty hpos
          (fillEvent_simulated hcanonical left 0 0) (by rw [length_simulated]; omega) hr hstate
        exact ⟨snapshot, hsnapshot, .inr hfull⟩

/-- An order for five units of the last place. -/
def dustOrder : Order := { streamOrder with qty := "0.00000005" }

theorem broker_stream_accepted_dust :
    ∃ snapshot, reduceOrder dustOrder (Broker.simulated.place dustOrder) = .ok snapshot ∧
      ((snapshot.state = .rejected ∧ snapshot.fills = []) ∨ FilledInFull dustOrder snapshot) :=
  broker_stream_accepted .simulated (by decide +kernel) (by decide +kernel) (by decide +kernel)
    (by decide +kernel)

end NexusQuant.Market
