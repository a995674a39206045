import NexusQuant.Market.BrokerStreams
import NexusQuant.Market.DeribitPayload

/-!
# The streams of the venue

The transport sums up the trades of an order to find an overfill and to tell a completed order from
a cancelled one, and the reducer sums up the fills of the stream again.  Both sums are of doubles, and
the reducer reads the cumulative quantities from their texts.  `OutcomeKept` is what the doubles have to
keep of the trades for the two to agree, with each other and with the trades.
-/

namespace NexusQuant.Market

open Execution Fallible Rounding

/-- A trade in the decimals of the order book.  They are written up to `10 ^ 21` only, where `toFixed`
begins to write exponents. -/
structure VenueTrade.Decimal (t : VenueTrade) : Prop where
  amount : t.amount ∈ grid qtyDp
  amount_pos : 0 < t.amount
  amount_lt : t.amount < 10 ^ 21
  price : t.price ∈ grid priceDp
  price_pos : 0 < t.price
  price_lt : t.price < 10 ^ 21

def totalAmount (trades : List VenueTrade) : ℚ := (trades.map VenueTrade.amount).sum

theorem sortTrades_perm (trades : List VenueTrade) : (sortTrades trades).Perm trades :=
  List.perm_insertionSort _ _

theorem pairwise_sortTrades (trades : List VenueTrade) :
    (sortTrades trades).Pairwise fun a b => a.seq ≤ b.seq := by
  have : Std.Total fun a b : VenueTrade => a.seq ≤ b.seq := ⟨fun a b => le_total a.seq b.seq⟩
  have : IsTrans VenueTrade fun a b => a.seq ≤ b.seq := ⟨fun _ _ _ => le_trans⟩
  exact List.pairwise_insertionSort _ trades

/-! ## Reading the outcome -/

section Read

variable [A : Arithmetic]

/-- The trade as it is read: its decimals are rounded to the numbers of the arithmetic. -/
def VenueTrade.read (t : VenueTrade) : VenueTrade := ⟨A.rounded t.amount, A.rounded t.price, t.seq⟩

/-- The answer of the venue to an order. -/
def outcomeJson (orderState venueOrderId : String) (trades : List VenueTrade) : JsValue :=
  .obj [("order", orderJson orderState venueOrderId),
    ("trades", .arr (trades.map fun t => tradeJson t.read))]

/-- The trades as they are read, in the order of their numbers. -/
def readTrades (trades : List VenueTrade) : List VenueTrade :=
  (sortTrades trades).map VenueTrade.read

/-- The outcome that is read of an answer. -/
def outcomeOf (orderState venueOrderId : String) (trades : List VenueTrade) : VenueOrderOutcome :=
  ⟨orderState, venueOrderId, readTrades trades⟩

theorem sortTrades_read (trades : List VenueTrade) :
    sortTrades (trades.map VenueTrade.read) = readTrades trades :=
  (List.map_insertionSort _ _ VenueTrade.read trades fun _ _ _ _ => Iff.rfl).symm

variable [A.Lawful]

/-- A decimal of the order book does not vanish. -/
theorem rounded_pos_of_mem_grid {x : ℚ} {dp : ℕ} (hdp : dp = 8) (hmem : x ∈ grid dp) (hpos : 0 < x) :
    0 < A.rounded x := by
  apply Arithmetic.rounded_pos
  apply le_trans _ (le_of_pos_of_mem_grid hmem hpos)
  rw [hdp]
  exact (Binary64.two_zpow_le (by norm_num : (-1074 : ℤ) ≤ -27)).trans (by norm_num)

theorem parseTradeItems_ok {endpoint : String} {trades : List VenueTrade}
    (h : ∀ t ∈ trades, t.Decimal) (i : ℕ) :
    parseTradeItems endpoint i (trades.map fun t => tradeJson t.read) =
      .ok (trades.map VenueTrade.read) := by
  induction trades generalizing i with
  | nil => rfl
  | cons t trades ih =>
      obtain ⟨ht, htrades⟩ := List.forall_mem_cons.mp h
      have hamount : ((tradeJson t.read).field "amount").finitePositive = some t.read.amount :=
        if_pos (rounded_pos_of_mem_grid rfl ht.amount ht.amount_pos)
      have hprice : ((tradeJson t.read).field "price").finitePositive = some t.read.price :=
        if_pos (rounded_pos_of_mem_grid rfl ht.price ht.price_pos)
      have hseq : (tradeJson t.read).field "trade_seq" = .num (.fin t.seq) := rfl
      rw [List.map_cons, parseTradeItems, hamount, hprice]
      dsimp only
      rw [hseq, ih htrades]
      rfl

theorem parseOrderOutcome_ok {orderState venueOrderId endpoint : String} {trades : List VenueTrade}
    (hstate : orderState ≠ "") (hid : venueOrderId ≠ "") (h : ∀ t ∈ trades, t.Decimal) :
    parseOrderOutcome (outcomeJson orderState venueOrderId trades) endpoint =
      .ok (outcomeOf orderState venueOrderId trades) := by
  have horder : (outcomeJson orderState venueOrderId trades).field "order" =
      orderJson orderState venueOrderId := rfl
  have htrades : (outcomeJson orderState venueOrderId trades).field "trades" =
      .arr (trades.map fun t => tradeJson t.read) := rfl
  have hread : readOrder (orderJson orderState venueOrderId) = some (orderState, venueOrderId) :=
    if_neg (not_or.mpr ⟨hstate, hid⟩)
  unfold parseOrderOutcome outcomeOf
  rw [horder, hread, htrades]
  dsimp only
  rw [parseTrades, parseTradeItems_ok h, ← sortTrades_read]
  rfl

end Read

/-! ## One trade -/

section Step

variable [A : Arithmetic] {order : Order} {t : VenueTrade}

/-- The quantity that is read of a written one. -/
def told (qty : ℚ) : ℚ := parseDecimal (quantizeQty qty)

/-- After a trade the reducer reads what the transport has written: the executed quantity, not past the
order, and all of it exactly when the transport has called the last trade complete. -/
structure StepKept (orderedQty next : ℚ) (last : Prop) : Prop where
  written : quantizeQty (told next) = quantizeQty next
  within : ¬Overfills orderedQty (told next)
  complete : Completes orderedQty (told next) ↔ Completes orderedQty next ∧ last

instance (orderedQty next : ℚ) (last : Prop) [Decidable last] :
    Decidable (StepKept orderedQty next last) :=
  decidable_of_iff (_ ∧ _ ∧ (_ ↔ _))
    ⟨fun h => ⟨h.1, h.2.1, h.2.2⟩, fun h => ⟨h.written, h.within, h.complete⟩⟩

/-- The fill of a trade, after which `next` is executed. -/
def tradeFill (t : VenueTrade) (next : ℚ) : OrderFillData :=
  ⟨quantizeQty t.amount, quantizePrice t.price, quantizeQty next⟩

/-- Its event: the order is filled when the trade completes it and no other follows. -/
def tradeBody (orderedQty next : ℚ) (t : VenueTrade) (last : Prop) [Decidable last] :
    OrderEventBody :=
  if Completes orderedQty next ∧ last then .filled (tradeFill t next)
  else .partiallyFilled (tradeFill t next)

variable {orderedQty next : ℚ} {last : Prop} [Decidable last]

theorem tradeBody_fill? : (tradeBody orderedQty next t last).fill? = some (tradeFill t next) := by
  unfold tradeBody
  split <;> rfl

theorem tradeBody_state : (tradeBody orderedQty next t last).state =
    if Completes orderedQty next ∧ last then .filled else .partiallyFilled := by
  unfold tradeBody
  split <;> rfl

/-- The reducer's checks on the fill of a trade that is read as it was written. -/
theorem checkFill_tradeFill_iff {cum : ℚ} (hread : told t.amount = t.amount) (hpos : 0 < t.amount)
    (hnext : next = A.rounded (cum + t.amount)) :
    checkFill order cum (tradeBody (parseDecimal order.qty) next t last) (tradeFill t next) = .ok () ↔
      StepKept (parseDecimal order.qty) next last := by
  have hfq : parseDecimal (tradeFill t next).fillQty = t.amount := hread
  have hcum : parseDecimal (tradeFill t next).cumQty = told next := rfl
  constructor
  · intro h
    obtain ⟨-, hsum, hwithin, hfilled, hpart⟩ := checkFill_ok h
    rw [hfq, hcum, ← hnext] at hsum
    refine ⟨hsum, hwithin, ?_⟩
    by_cases hcloses : Completes (parseDecimal order.qty) next ∧ last
    · rw [tradeBody_state, if_pos hcloses] at hfilled
      exact iff_of_true (hfilled rfl) hcloses
    · rw [tradeBody_state, if_neg hcloses] at hpart
      exact iff_of_false (hpart rfl) hcloses
  · intro h
    apply @checkFill_own _ order ⟨none, cum, []⟩
    · rw [hfq]
      exact hpos
    · rw [hfq, hcum, ← hnext]
      exact h.written
    · exact h.within
    · rw [tradeBody_state, hcum, h.complete]
      by_cases hcloses : Completes (parseDecimal order.qty) next ∧ last
      · rw [if_pos hcloses]
        exact ⟨fun _ => hcloses, nofun⟩
      · rw [if_neg hcloses]
        exact ⟨nofun, fun _ => hcloses⟩

/-- An order that can still be filled. -/
def Reduction.Running (r : Reduction) : Prop :=
  r.state = some .accepted ∨ r.state = some .partiallyFilled

/-- What the reducer makes of the event of a trade that it accepts. -/
theorem reduceEvent_trade_ok {r r' : Reduction} {seq : ℕ} (hread : told t.amount = t.amount)
    (hpos : 0 < t.amount) (hnext : next = A.rounded (r.filled + t.amount))
    (h : reduceEvent order r seq
      (baseEvent order seq (tradeBody (parseDecimal order.qty) next t last)) = .ok r') :
    StepKept (parseDecimal order.qty) next last ∧ r'.filled = next ∧
      r'.state = if Completes (parseDecimal order.qty) next ∧ last then some .filled
        else some .partiallyFilled := by
  have hbody : (baseEvent order seq (tradeBody (parseDecimal order.qty) next t last)).body =
      tradeBody (parseDecimal order.qty) next t last := rfl
  obtain ⟨-, -, -, hstate, ⟨hnone, -⟩ | ⟨fill, f, hsome, -, -, hcheck, hfilled, -⟩⟩ :=
    reduceEvent_inv h
  · rw [hbody, tradeBody_fill?] at hnone
    cases hnone
  · rw [hbody, tradeBody_fill?] at hsome
    cases hsome
    rw [hbody, tradeBody_state, apply_ite some] at hstate
    rw [show parseDecimal (tradeFill t next).fillQty = t.amount from hread, ← hnext] at hfilled
    exact ⟨(checkFill_tradeFill_iff hread hpos hnext).mp hcheck, hfilled, hstate⟩

/-- And when it does. -/
theorem reduceEvent_trade {r : Reduction} (hr : r.Running) (seq : ℕ)
    (hread : told t.amount = t.amount) (hpos : 0 < t.amount)
    (hnext : next = A.rounded (r.filled + t.amount))
    (h : StepKept (parseDecimal order.qty) next last) :
    ∃ r', reduceEvent order r seq
      (baseEvent order seq (tradeBody (parseDecimal order.qty) next t last)) = .ok r' := by
  have hrunning : isTerminal r.state = false := by
    rcases hr with hstate | hstate <;> rw [hstate] <;> rfl
  have hlegal : r.state ∈ legalFrom (tradeBody (parseDecimal order.qty) next t last).state := by
    rw [tradeBody_state]
    rcases hr with hstate | hstate <;> rw [hstate] <;> split <;> decide
  exact ⟨_, (reduceEvent_own hrunning hlegal).2 _ tradeBody_fill?
    ((checkFill_tradeFill_iff hread hpos hnext).mpr h)⟩

end Step

/-! ## The trades -/

section Steps

variable [A : Arithmetic] {order : Order}

/-- What is executed after the trades, `cum` being executed already. -/
def executed (cum : ℚ) (trades : List VenueTrade) : ℚ :=
  trades.foldl (fun acc t => A.rounded (acc + t.amount)) cum

/-- One of the trades leads past the ordered quantity. -/
def Passes (orderedQty : ℚ) : ℚ → List VenueTrade → Prop
  | _, [] => False
  | cum, t :: rest => Overfills orderedQty (A.rounded (cum + t.amount)) ∨
      Passes orderedQty (A.rounded (cum + t.amount)) rest

instance (orderedQty : ℚ) : ∀ (cum : ℚ) (trades : List VenueTrade),
    Decidable (Passes orderedQty cum trades)
  | _, [] => inferInstanceAs (Decidable False)
  | cum, t :: rest =>
      have := instDecidablePasses orderedQty (A.rounded (cum + t.amount)) rest
      inferInstanceAs (Decidable (_ ∨ _))

def StepsKept (orderedQty : ℚ) : ℚ → List VenueTrade → Prop
  | _, [] => True
  | cum, t :: rest => StepKept orderedQty (A.rounded (cum + t.amount)) (rest = []) ∧
      StepsKept orderedQty (A.rounded (cum + t.amount)) rest

instance (orderedQty : ℚ) : ∀ (cum : ℚ) (trades : List VenueTrade),
    Decidable (StepsKept orderedQty cum trades)
  | _, [] => inferInstanceAs (Decidable True)
  | cum, t :: rest =>
      have := instDecidableStepsKept orderedQty (A.rounded (cum + t.amount)) rest
      inferInstanceAs (Decidable (_ ∧ _))

theorem venueQtyEps_eq : venueQtyEps = orderEpsilon := by
  unfold venueQtyEps orderEpsilon
  congr 1

theorem overfills_iff_venue {orderedQty next : ℚ} :
    next > A.rounded (orderedQty + venueQtyEps) ↔ Overfills orderedQty next := by
  rw [venueQtyEps_eq]
  rfl

theorem completes_iff_venue {orderedQty next : ℚ} :
    |A.rounded (next - orderedQty)| ≤ venueQtyEps ↔ Completes orderedQty next := by
  rw [venueQtyEps_eq]
  rfl

theorem tradeEvents_cons {seq : ℕ} {cum : ℚ} {t : VenueTrade} {trades : List VenueTrade}
    (hwithin : ¬Overfills (parseDecimal order.qty) (A.rounded (cum + t.amount))) :
    tradeEvents order seq cum (t :: trades) =
      (tradeEvents order (seq + 1) (A.rounded (cum + t.amount)) trades).map fun r =>
        (baseEvent order seq (tradeBody (parseDecimal order.qty) (A.rounded (cum + t.amount)) t
          (trades = [])) :: r.1, r.2) := by
  have hbody : (if |A.rounded (A.rounded (cum + t.amount) - parseDecimal order.qty)| ≤ venueQtyEps ∧
        trades = [] then OrderEventBody.filled (tradeFill t (A.rounded (cum + t.amount)))
      else .partiallyFilled (tradeFill t (A.rounded (cum + t.amount)))) =
      tradeBody (parseDecimal order.qty) (A.rounded (cum + t.amount)) t (trades = []) :=
    if_congr (and_congr_left' completes_iff_venue) rfl rfl
  rw [tradeEvents, ← hbody]
  dsimp only
  rw [if_neg (overfills_iff_venue.not.mpr hwithin)]
  rfl

/-- The transport throws on a trade that leads past the order, and on no other. -/
theorem tradeEvents_error_iff {trades : List VenueTrade} (seq : ℕ) {cum : ℚ} :
    (∃ e, tradeEvents order seq cum trades = .error e) ↔
      Passes (parseDecimal order.qty) cum trades := by
  induction trades generalizing seq cum with
  | nil => exact iff_of_false (fun ⟨_, h⟩ => nomatch h) id
  | cons t trades ih =>
      by_cases hover : Overfills (parseDecimal order.qty) (A.rounded (cum + t.amount))
      · rw [tradeEvents]
        dsimp only
        rw [if_pos (overfills_iff_venue.mpr hover)]
        exact iff_of_true ⟨_, rfl⟩ (.inl hover)
      · rw [tradeEvents_cons hover, Passes, or_iff_right hover, ← ih (seq + 1)]
        simp only [map_eq_error]

/-- Of the others it builds one event each. -/
theorem tradeEvents_cons_ok {trades : List VenueTrade} {t : VenueTrade} {seq : ℕ} {cum : ℚ}
    {r : List OrderEvent × ℚ} (h : tradeEvents order seq cum (t :: trades) = .ok r) :
    ∃ r', tradeEvents order (seq + 1) (A.rounded (cum + t.amount)) trades = .ok r' ∧
      (baseEvent order seq (tradeBody (parseDecimal order.qty) (A.rounded (cum + t.amount)) t
        (trades = [])) :: r'.1, r'.2) = r := by
  have hwithin : ¬Overfills (parseDecimal order.qty) (A.rounded (cum + t.amount)) := by
    intro hover
    have hpasses : Passes (parseDecimal order.qty) cum (t :: trades) := .inl hover
    obtain ⟨e, he⟩ := (tradeEvents_error_iff seq).mpr hpasses
    rw [h] at he
    cases he
  rw [tradeEvents_cons hwithin] at h
  exact map_eq_ok.mp h

theorem tradeEvents_ok {trades : List VenueTrade} {seq : ℕ} {cum : ℚ} {r : List OrderEvent × ℚ}
    (h : tradeEvents order seq cum trades = .ok r) :
    r.1.length = trades.length ∧ r.2 = executed cum trades := by
  induction trades generalizing seq cum r with
  | nil =>
      cases h
      exact ⟨rfl, rfl⟩
  | cons t trades ih =>
      obtain ⟨r', hr', rfl⟩ := tradeEvents_cons_ok h
      obtain ⟨hlength, hsum⟩ := ih hr'
      exact ⟨congrArg (· + 1) hlength, hsum⟩

/-- The state that trades leave an order in. -/
def stateAfter (orderedQty : ℚ) (state : Option OrderState) (cum : ℚ) (trades : List VenueTrade) :
    Option OrderState :=
  if trades = [] then state
  else if Completes orderedQty (executed cum trades) then some .filled
  else some .partiallyFilled

/-- What the reducer makes of the events of trades that it accepts. -/
theorem reduceEvents_trades_ok {trades : List VenueTrade}
    (htrades : ∀ t ∈ trades, told t.amount = t.amount ∧ 0 < t.amount) {seq : ℕ} {r r' : Reduction}
    {built : List OrderEvent × ℚ} (hbuilt : tradeEvents order seq r.filled trades = .ok built)
    (h : reduceEvents order seq r built.1 = .ok r') :
    StepsKept (parseDecimal order.qty) r.filled trades ∧
      r'.state = stateAfter (parseDecimal order.qty) r.state r.filled trades := by
  induction trades generalizing seq r built with
  | nil =>
      cases hbuilt
      cases h
      exact ⟨trivial, rfl⟩
  | cons t trades ih =>
      obtain ⟨⟨hread, hpos⟩, hrest⟩ := List.forall_mem_cons.mp htrades
      obtain ⟨built', hbuilt', rfl⟩ := tradeEvents_cons_ok hbuilt
      obtain ⟨r₁, hstep, htail⟩ := bind_eq_ok.mp h
      obtain ⟨hkept, hfilled, hstate⟩ := reduceEvent_trade_ok hread hpos rfl hstep
      rw [← hfilled] at hbuilt'
      obtain ⟨hkept', hstate'⟩ := ih hrest hbuilt' htail
      rw [hfilled] at hkept' hstate'
      refine ⟨⟨hkept, hkept'⟩, ?_⟩
      rw [hstate']
      unfold stateAfter
      rw [if_neg (List.cons_ne_nil t trades)]
      by_cases hlast : trades = []
      · subst hlast
        rw [if_pos rfl, hstate]
        exact if_congr (and_iff_left rfl) rfl rfl
      · rw [if_neg hlast]
        rfl

/-- It accepts them when the steps are kept. -/
theorem reduceEvents_trades {trades : List VenueTrade}
    (htrades : ∀ t ∈ trades, told t.amount = t.amount ∧ 0 < t.amount) {seq : ℕ} {r : Reduction}
    (hr : r.Running) {built : List OrderEvent × ℚ}
    (hbuilt : tradeEvents order seq r.filled trades = .ok built)
    (h : StepsKept (parseDecimal order.qty) r.filled trades) :
    ∃ r', reduceEvents order seq r built.1 = .ok r' := by
  induction trades generalizing seq r built with
  | nil =>
      cases hbuilt
      exact ⟨r, rfl⟩
  | cons t trades ih =>
      obtain ⟨⟨hread, hpos⟩, hrest⟩ := List.forall_mem_cons.mp htrades
      obtain ⟨built', hbuilt', rfl⟩ := tradeEvents_cons_ok hbuilt
      obtain ⟨r₁, hstep⟩ := reduceEvent_trade hr seq hread hpos rfl h.1
      obtain ⟨-, hfilled, hstate⟩ := reduceEvent_trade_ok hread hpos rfl hstep
      show ∃ r', (reduceEvent order r seq _).bind _ = .ok r'
      rw [hstep]
      by_cases hlast : trades = []
      · subst hlast
        cases hbuilt'
        exact ⟨r₁, rfl⟩
      · -- Another trade follows, so this one left the order open.
        rw [if_neg fun hboth => hlast hboth.2] at hstate
        rw [← hfilled] at hbuilt'
        exact ih hrest (.inr hstate) hbuilt' (hfilled ▸ h.2)

end Steps

/-! ## The stream of an outcome -/

section Outcome

variable [A : Arithmetic] {order : Order} {orderState venueOrderId : String}
  {trades : List VenueTrade}

theorem buildEvents_error_iff (hstate : orderState ≠ "rejected") :
    (∃ e, buildEvents order (outcomeOf orderState venueOrderId trades) = .error e) ↔
      Passes (parseDecimal order.qty) 0 (readTrades trades) := by
  rw [← tradeEvents_error_iff 3]
  unfold buildEvents outcomeOf
  dsimp only
  rw [if_neg hstate]
  simp only [map_eq_error]

/-- The stream of trades that do not lead past the order: their events, and a cancellation of what is
left. -/
theorem buildEvents_ok (hstate : orderState ≠ "rejected") {events : List OrderEvent}
    (h : buildEvents order (outcomeOf orderState venueOrderId trades) = .ok events) :
    ∃ built reason, tradeEvents order 3 0 (readTrades trades) = .ok built ∧
      events = baseEvent order 0 .requested :: baseEvent order 1 .submitted ::
        baseEvent order 2 .accepted :: (built.1 ++
          if Completes (parseDecimal order.qty)
              (executed 0 (readTrades trades)) then []
          else [baseEvent order (3 + built.1.length) (.cancelled reason)]) := by
  unfold buildEvents outcomeOf at h
  dsimp only at h
  rw [if_neg hstate] at h
  obtain ⟨built, hbuilt, hevents⟩ := map_eq_ok.mp h
  obtain ⟨hlength, hsum⟩ := tradeEvents_ok hbuilt
  refine ⟨built, "venue " ++ orderState ++ ": executed " ++ quantizeQty built.2 ++ " of ordered " ++
    order.qty ++ " (immediate-or-cancel remainder cancelled by venue; venue order " ++ venueOrderId ++
    ")", hbuilt, ?_⟩
  rw [hlength, ← hevents, ← hsum, if_congr completes_iff_venue.symm rfl rfl]

/-- The decimals of a trade are those that its doubles are written as. -/
structure VenueTrade.Written (t : VenueTrade) : Prop where
  amount : parseDecimal (A := .exact) (quantizeQty t.read.amount) = t.amount
  price : parseDecimal (A := .exact) (quantizePrice t.read.price) = t.price

instance (t : VenueTrade) : Decidable t.Written :=
  decidable_of_iff (_ ∧ _) ⟨fun h => ⟨h.1, h.2⟩, fun h => ⟨h.amount, h.price⟩⟩

omit A in
theorem map_filterMap_fill? (events : List OrderEvent) :
    (events.filterMap OrderEvent.fill?).map (fun f => (f.qty, f.price)) = fillTexts events := by
  unfold fillTexts
  rw [List.map_filterMap]
  congr 1
  funext e
  rw [OrderEvent.fill?, Option.map_map]
  rfl

/-- The fills of an accepted stream are the texts of the trades. -/
theorem fills_buildEvents {events : List OrderEvent} {snapshot : OrderSnapshot}
    (hstate : orderState ≠ "rejected")
    (hevents : buildEvents order (outcomeOf orderState venueOrderId trades) = .ok events)
    (hsnapshot : reduceOrder order events = .ok snapshot) :
    (snapshot.fills.map fun f =>
        (parseDecimal (A := .exact) f.qty, parseDecimal (A := .exact) f.price)) =
      (sortTrades trades).map fun t => (parseDecimal (A := .exact) (quantizeQty t.read.amount),
        parseDecimal (A := .exact) (quantizePrice t.read.price)) := by
  have htexts := fillTexts_buildEvents hevents
  rw [show (outcomeOf orderState venueOrderId trades).orderState = orderState from rfl, if_neg hstate,
    ← map_filterMap_fill?, ← (reduceOrder_ok hsnapshot).2] at htexts
  have hread := congrArg
    (List.map (Prod.map (parseDecimal (A := .exact)) (parseDecimal (A := .exact)))) htexts
  rw [List.map_map, List.map_map] at hread
  rw [show (outcomeOf orderState venueOrderId trades).trades =
    (sortTrades trades).map VenueTrade.read from rfl, List.map_map] at hread
  exact hread

/-- They say the decimals of the trades exactly when the trades are written so. -/
theorem fillTexts_eq_iff : ((sortTrades trades).map fun t =>
      (parseDecimal (A := .exact) (quantizeQty t.read.amount),
        parseDecimal (A := .exact) (quantizePrice t.read.price))) =
      (sortTrades trades).map (fun t => (t.amount, t.price)) ↔ ∀ t ∈ trades, t.Written := by
  rw [List.map_inj_left]
  constructor
  · intro h t ht
    have hpair := h t ((sortTrades_perm trades).mem_iff.mpr ht)
    exact ⟨congrArg Prod.fst hpair, congrArg Prod.snd hpair⟩
  · intro h t ht
    have hwritten := h t ((sortTrades_perm trades).mem_iff.mp ht)
    exact Prod.ext hwritten.amount hwritten.price

/-- The state in which the reducer leaves an accepted stream: FILLED when the sum completes the order,
and CANCELLED when it does not. -/
theorem state_of_accepted (hread : ∀ t ∈ readTrades trades,
      told t.amount = t.amount ∧ 0 < t.amount) (hstate : orderState ≠ "rejected")
    {events : List OrderEvent} {snapshot : OrderSnapshot}
    (hevents : buildEvents order (outcomeOf orderState venueOrderId trades) = .ok events)
    (hsnapshot : reduceOrder order events = .ok snapshot) :
    StepsKept (parseDecimal order.qty) 0 (readTrades trades) ∧
      some snapshot.state =
        if Completes (parseDecimal order.qty) (executed 0 (readTrades trades))
          then stateAfter (parseDecimal order.qty) (some .accepted) 0
            (readTrades trades)
        else some .cancelled := by
  obtain ⟨built, reason, hbuilt, rfl⟩ := buildEvents_ok hstate hevents
  obtain ⟨r, hr, hlast⟩ := bind_eq_ok.mp hsnapshot
  rw [reduceEvents_accepted, reduceEvents_append] at hr
  obtain ⟨r₁, hr₁, hrest⟩ := bind_eq_ok.mp hr
  obtain ⟨hkept, hstate₁⟩ := reduceEvents_trades_ok hread hbuilt hr₁
  have hfinal : some snapshot.state = r.state := by
    split at hlast
    · cases hlast
    · rename_i state hstate'
      cases hlast
      exact hstate'.symm
  refine ⟨hkept, hfinal.trans ?_⟩
  by_cases hcompletes : Completes (parseDecimal order.qty)
      (executed 0 (readTrades trades))
  · rw [if_pos hcompletes] at hrest ⊢
    cases hrest
    exact hstate₁
  · rw [if_neg hcompletes] at hrest ⊢
    obtain ⟨r₂, hcancelled, hnil⟩ := bind_eq_ok.mp hrest
    cases hnil
    exact (reduceEvent_inv hcancelled).2.2.2.1

/-- A stream whose steps are kept is accepted. -/
theorem accepted_of_kept (hread : ∀ t ∈ readTrades trades,
      told t.amount = t.amount ∧ 0 < t.amount) (hstate : orderState ≠ "rejected")
    {events : List OrderEvent}
    (hevents : buildEvents order (outcomeOf orderState venueOrderId trades) = .ok events)
    (h : StepsKept (parseDecimal order.qty) 0 (readTrades trades)) :
    ∃ snapshot, reduceOrder order events = .ok snapshot := by
  obtain ⟨built, reason, hbuilt, rfl⟩ := buildEvents_ok hstate hevents
  have hopen : Reduction.Running ⟨some .accepted, 0, []⟩ := .inl rfl
  obtain ⟨r₁, hr₁⟩ := reduceEvents_trades hread hopen hbuilt h
  have hstate₁ := (reduceEvents_trades_ok hread hbuilt hr₁).2
  -- What is left of a running order is cancelled.
  have hfold : ∃ r state, reduceEvents order 0 ⟨none, 0, []⟩ (baseEvent order 0 .requested ::
      baseEvent order 1 .submitted :: baseEvent order 2 .accepted :: (built.1 ++
        if Completes (parseDecimal order.qty)
            (executed 0 (readTrades trades)) then []
        else [baseEvent order (3 + built.1.length) (.cancelled reason)])) = .ok r ∧
      r.state = some state := by
    rw [reduceEvents_accepted, reduceEvents_append, hr₁]
    unfold stateAfter at hstate₁
    by_cases hcompletes : Completes (parseDecimal order.qty)
        (executed 0 (readTrades trades))
    · rw [if_pos hcompletes] at hstate₁ ⊢
      rw [← apply_ite some] at hstate₁
      exact ⟨r₁, _, rfl, hstate₁⟩
    · rw [if_neg hcompletes] at hstate₁ ⊢
      have hlegal : isTerminal r₁.state = false ∧
          r₁.state ∈ legalFrom (OrderEventBody.cancelled reason).state := by
        rw [hstate₁]
        split <;> simp [isTerminal, legalFrom, OrderEventBody.state]
      have hstep := (@reduceEvent_own _ order r₁ (3 + built.1.length) (.cancelled reason) hlegal.1
        hlegal.2).1 rfl
      refine ⟨⟨some .cancelled, r₁.filled, r₁.fills⟩, .cancelled, ?_, rfl⟩
      show reduceEvents order _ r₁ [_] = _
      rw [reduceEvents, hstep]
      rfl
  obtain ⟨r, state, hr, hfinal⟩ := hfold
  obtain ⟨snapshot, hsnapshot, -⟩ := reduceOrder_of_reduceEvents hr hfinal
  exact ⟨snapshot, hsnapshot⟩

variable (order orderState venueOrderId trades)

/-- The stream says what the trades say: the transport throws on trades that exceed the order and on no
others, the reducer accepts what it builds of the rest, and its snapshot has the trades, in the order
of their numbers, and the state that their sum leads to. -/
structure OutcomeFaithful : Prop where
  thrown : (∃ e, buildEvents order (outcomeOf orderState venueOrderId trades) = .error e) ↔
    parseDecimal (A := .exact) order.qty < totalAmount trades
  accepted : totalAmount trades ≤ parseDecimal (A := .exact) order.qty → ∃ events snapshot,
    buildEvents order (outcomeOf orderState venueOrderId trades) = .ok events ∧
    reduceOrder order events = .ok snapshot ∧
    (snapshot.fills.map fun f =>
        (parseDecimal (A := .exact) f.qty, parseDecimal (A := .exact) f.price)) =
      (sortTrades trades).map (fun t => (t.amount, t.price)) ∧
    snapshot.state =
      if totalAmount trades = parseDecimal (A := .exact) order.qty then .filled else .cancelled

/-- What the arithmetic keeps of the trades: its running sums lead past the order when the amounts do,
and within the order the trades are written as they are, every sum is read as it was written, and the
last one completes the order when the amounts do. -/
structure OutcomeKept : Prop where
  past : Passes (parseDecimal order.qty) 0 (readTrades trades) ↔
    parseDecimal (A := .exact) order.qty < totalAmount trades
  written : totalAmount trades ≤ parseDecimal (A := .exact) order.qty → ∀ t ∈ trades, t.Written
  steps : totalAmount trades ≤ parseDecimal (A := .exact) order.qty →
    StepsKept (parseDecimal order.qty) 0 (readTrades trades)
  complete : totalAmount trades ≤ parseDecimal (A := .exact) order.qty →
    (Completes (parseDecimal order.qty) (executed 0 (readTrades trades)) ↔
      totalAmount trades = parseDecimal (A := .exact) order.qty)

instance : Decidable (OutcomeKept order trades) :=
  decidable_of_iff (_ ∧ (_ → _) ∧ (_ → _) ∧ (_ → _))
    ⟨fun h => ⟨h.1, h.2.1, h.2.2.1, h.2.2.2⟩, fun h => ⟨h.past, h.written, h.steps, h.complete⟩⟩

variable {order orderState venueOrderId trades}

/-- A trade that is written as it is, is read so. -/
theorem told_read [A.Lawful] {t : VenueTrade} (ht : t.Decimal) (hwritten : t.Written) :
    told t.read.amount = t.read.amount ∧ 0 < t.read.amount := by
  refine ⟨?_, rounded_pos_of_mem_grid rfl ht.amount ht.amount_pos⟩
  have hself : A.rounded t.read.amount = t.read.amount := Arithmetic.Lawful.idem _
  have hexact := hwritten.amount
  rw [quantizeQty, parseDecimal_exact_quantize (by decide)] at hexact
  rw [told, quantizeQty, parseDecimal_quantize_rounded (by decide) hself, hexact]
  rfl

/-- In any lawful arithmetic the stream is faithful exactly when the trades are kept. -/
theorem outcomeFaithful_iff [A.Lawful] (hpos : 0 < parseDecimal (A := .exact) order.qty)
    (h : ∀ t ∈ trades, t.Decimal) (hstate : orderState ≠ "rejected") :
    OutcomeFaithful order orderState venueOrderId trades ↔ OutcomeKept order trades := by
  have hthrown := @buildEvents_error_iff _ order orderState venueOrderId trades hstate
  have hread (hwritten : ∀ t ∈ trades, t.Written) :
      ∀ t ∈ readTrades trades, told t.amount = t.amount ∧ 0 < t.amount := by
    unfold readTrades
    rw [List.forall_mem_map]
    intro t ht
    have hmem := (sortTrades_perm trades).mem_iff.mp ht
    exact told_read (h t hmem) (hwritten t hmem)
  constructor
  · intro hfaithful
    -- The fills say the trades, so the trades are written as they are, and the reducer reads them so.
    have hkept : totalAmount trades ≤ parseDecimal (A := .exact) order.qty →
        (∀ t ∈ trades, t.Written) ∧
        StepsKept (parseDecimal order.qty) 0 (readTrades trades) ∧
        (Completes (parseDecimal order.qty) (executed 0 (readTrades trades)) ↔
          totalAmount trades = parseDecimal (A := .exact) order.qty) := by
      intro hle
      obtain ⟨events, snapshot, hevents, hsnapshot, hfills, hfinal⟩ := hfaithful.accepted hle
      rw [fills_buildEvents hstate hevents hsnapshot, fillTexts_eq_iff] at hfills
      obtain ⟨hsteps, hsome⟩ := state_of_accepted (hread hfills) hstate hevents hsnapshot
      refine ⟨hfills, hsteps, ?_⟩
      by_cases hdone : totalAmount trades = parseDecimal (A := .exact) order.qty
      · rw [hfinal, if_pos hdone] at hsome
        by_contra hnot
        rw [if_neg fun hcompletes => hnot (iff_of_true hcompletes hdone)] at hsome
        cases hsome
      · rw [hfinal, if_neg hdone] at hsome
        refine iff_of_false (fun hcompletes => ?_) hdone
        rw [if_pos hcompletes, stateAfter, if_pos hcompletes] at hsome
        split at hsome <;> cases hsome
    exact ⟨hthrown.symm.trans hfaithful.thrown, fun hle => (hkept hle).1, fun hle => (hkept hle).2.1,
      fun hle => (hkept hle).2.2⟩
  · intro hkept
    refine ⟨hthrown.trans hkept.past, fun hle => ?_⟩
    cases hevents : buildEvents order (outcomeOf orderState venueOrderId trades) with
    | error e =>
        exact absurd (hkept.past.mp (hthrown.mp ⟨e, hevents⟩)) (not_lt.mpr hle)
    | ok events =>
        have hreads := hread (hkept.written hle)
        obtain ⟨snapshot, hsnapshot⟩ := accepted_of_kept hreads hstate hevents (hkept.steps hle)
        obtain ⟨-, hsome⟩ := state_of_accepted hreads hstate hevents hsnapshot
        refine ⟨events, snapshot, rfl, hsnapshot, ?_, ?_⟩
        · rw [fills_buildEvents hstate hevents hsnapshot, fillTexts_eq_iff]
          exact hkept.written hle
        · by_cases hdone : totalAmount trades = parseDecimal (A := .exact) order.qty
          · -- Something was ordered, so there are trades, and the last of them completed the order.
            have hne : readTrades trades ≠ [] := by
              intro hnone
              have hnil : trades = [] := by
                have hperm := sortTrades_perm trades
                rw [List.map_eq_nil_iff.mp hnone] at hperm
                exact hperm.nil_eq.symm
              rw [hnil] at hdone
              exact absurd hdone hpos.ne
            have hcompletes := (hkept.complete hle).mpr hdone
            rw [if_pos hcompletes, stateAfter, if_neg hne, if_pos hcompletes] at hsome
            rw [if_pos hdone]
            exact Option.some.inj hsome
          · rw [if_neg fun hcompletes => hdone ((hkept.complete hle).mp hcompletes)] at hsome
            rw [if_neg hdone]
            exact Option.some.inj hsome

theorem buildEvents_rejected (order : Order) (venueOrderId : String) (trades : List VenueTrade) :
    ∃ events snapshot, buildEvents order (outcomeOf "rejected" venueOrderId trades) = .ok events ∧
      reduceOrder order events = .ok snapshot ∧ snapshot.state = .rejected ∧
      snapshot.fills = [] := by
  obtain ⟨snapshot, hsnapshot, hrejected⟩ :=
    rejected_stream_accepted order ("venue rejected order " ++ venueOrderId)
  refine ⟨_, snapshot, ?_, hsnapshot, hrejected⟩
  unfold buildEvents outcomeOf
  exact if_pos rfl

end Outcome

/-! ## Lots -/

section Lots

variable [A : Arithmetic] (order : Order) (size : ℚ)

/-- What is asked of the venue is a number of lots within the order. -/
def LotsFaithful : Prop :=
  ∀ (instrument : VenueInstrument) (amount : ℚ), instrument.contractSize = A.rounded size →
    sizeOrder order instrument = .ok amount →
    ∃ lots : ℕ, lots * size ≤ parseDecimal (A := .exact) order.qty ∧ amount = A.rounded (lots * size)

/-- What the arithmetic keeps of the lots: their number is not rounded up, and their amount, written to
ten decimals, is read as what it is. -/
structure LotsKept : Prop where
  within : lotsOf order (A.rounded size) * size ≤ parseDecimal (A := .exact) order.qty
  amount : A.rounded (roundTo 10 (A.rounded (lotsOf order (A.rounded size) * A.rounded size))) =
    A.rounded (lotsOf order (A.rounded size) * size)

instance : Decidable (LotsKept order size) :=
  decidable_of_iff (_ ∧ _) ⟨fun h => ⟨h.1, h.2⟩, fun h => ⟨h.within, h.amount⟩⟩

variable {order size}

theorem LotsKept.faithful [A.Lawful] (h : LotsKept order size) (hsize : 0 < size) :
    LotsFaithful order size := by
  intro instrument amount hinstrument hamount
  unfold sizeOrder at hamount
  dsimp only at hamount
  rw [hinstrument, h.amount] at hamount
  split at hamount
  · cases hamount
  · rename_i hvalid
    cases hamount
    have hpos : 0 < (lotsOf order (A.rounded size) : ℚ) * size :=
      Arithmetic.pos_of_rounded_pos (not_not.mp (not_or.mp hvalid).1)
    have hlots : 0 < lotsOf order (A.rounded size) := by
      rw [mul_pos_iff_of_pos_right hsize] at hpos
      exact_mod_cast hpos
    refine ⟨(lotsOf order (A.rounded size)).toNat, ?_⟩
    rw [← Int.cast_natCast, Int.toNat_of_nonneg hlots.le]
    exact ⟨h.within, rfl⟩

end Lots

/-- Two trades that arrive against their numbers and leave a part of the order open. -/
def lateTrades : List VenueTrade := [⟨1 / 2, 101, 8⟩, ⟨1, 100, 7⟩]

theorem decimal_lateTrades : ∀ t ∈ lateTrades, t.Decimal := by
  intro t ht
  simp only [lateTrades, List.mem_cons, List.not_mem_nil, or_false] at ht
  rcases ht with rfl | rfl
  · exact ⟨mem_grid.mpr ⟨50000000, by norm_num [qtyDp]⟩, by norm_num, by norm_num,
      mem_grid.mpr ⟨10100000000, by norm_num [priceDp]⟩, by norm_num, by norm_num⟩
  · exact ⟨mem_grid.mpr ⟨100000000, by norm_num [qtyDp]⟩, by norm_num, by norm_num,
      mem_grid.mpr ⟨10000000000, by norm_num [priceDp]⟩, by norm_num, by norm_num⟩

/-- Two trades that fill an order of 11906013.01421816. -/
def largeTrades : List VenueTrade :=
  [⟨405802863338624 / 10 ^ 8, 1, 1⟩, ⟨784798438083192 / 10 ^ 8, 1, 2⟩]

theorem decimal_largeTrades : ∀ t ∈ largeTrades, t.Decimal := by
  intro t ht
  simp only [largeTrades, List.mem_cons, List.not_mem_nil, or_false] at ht
  rcases ht with rfl | rfl
  · exact ⟨mem_grid.mpr ⟨405802863338624, by norm_num [qtyDp]⟩, by norm_num, by norm_num,
      mem_grid.mpr ⟨100000000, by norm_num [priceDp]⟩, by norm_num, by norm_num⟩
  · exact ⟨mem_grid.mpr ⟨784798438083192, by norm_num [qtyDp]⟩, by norm_num, by norm_num,
      mem_grid.mpr ⟨100000000, by norm_num [priceDp]⟩, by norm_num, by norm_num⟩

/-- An order whose trades are the large ones, and one for 524306.663. -/
def largeOrder : Order := { streamOrder with qty := "11906013.01421816" }

def lotsOrder : Order := { streamOrder with qty := "524306.66300000" }

/-- For 524306.663 in lots of a thousandth 524306.6630000001 is asked of the venue, which is more. -/
theorem lots_exceed_order : ¬LotsFaithful (A := .doubles) lotsOrder (1 / 1000) := by
  intro h
  have hamount : sizeOrder (A := .doubles) lotsOrder
      ⟨"BTC_USDC-PERPETUAL", Arithmetic.doubles.rounded (1 / 1000), 1, "USDC"⟩ =
        .ok (4503759941319787 / 2 ^ 33) := by decide +kernel
  obtain ⟨lots, hle, heq⟩ := h _ _ rfl hamount
  have hread : Arithmetic.doubles.rounded (lots * (1 / 1000)) ≤
      Arithmetic.doubles.rounded (parseDecimal (A := .exact) lotsOrder.qty) :=
    Arithmetic.Lawful.mono hle
  rw [← heq] at hread
  revert hread
  decide +kernel

end NexusQuant.Market
