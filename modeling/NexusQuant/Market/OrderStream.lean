import NexusQuant.Lib.Run
import NexusQuant.Market.Order

/-!
# What an accepted event stream says

`reduceOrder` is the one validator of a broker's stream.  `SoundStream` is what its acceptance should
mean: a numbered stream of the order itself along the lifecycle, fills that add up to the snapshot and
never past the order, and fills in the order's own symbol and on its own side.  The fold checks all of
this but the last part, which it takes over from the events as they are.  It checks the quantities as
doubles; `QuantitiesKept` is what they have to keep of the texts.
-/

namespace NexusQuant.Market

open Execution Fallible Rounding Run

/-- The lifecycle state after some events. -/
def lastState (events : List OrderEvent) : Option OrderState := events.getLast?.map (·.body.state)

/-- The quantity of a snapshot's fills together. -/
def totalFilled (fills : List Fill) : ℚ := (fills.map fun f => parseDecimal f.qty).sum

/-- The fill data of the last fill event. -/
def lastFill (events : List OrderEvent) : Option OrderFillData :=
  (events.filterMap fun e => e.body.fill?).getLast?

/-- A canonical text with eight decimals.  They are written up to `10 ^ 21` only, where `toFixed`
begins to write exponents. -/
def CanonicalQty (s : String) : Prop :=
  isCanonicalDecimalString s qtyDp ∧ |parseDecimal s| < 10 ^ 21

instance (s : String) : Decidable (CanonicalQty s) := inferInstanceAs (Decidable (_ ∧ _))

/-- The quantities of the order and of the fills are canonical texts. -/
def CanonicalQuantities (order : Order) (events : List OrderEvent) : Prop :=
  CanonicalQty order.qty ∧ ∀ e ∈ events, ∀ fill ∈ e.body.fill?,
    CanonicalQty fill.fillQty ∧ CanonicalQty fill.cumQty

instance (order : Order) (events : List OrderEvent) : Decidable (CanonicalQuantities order events) :=
  inferInstanceAs (Decidable (_ ∧ ∀ e ∈ events, ∀ fill ∈ e.body.fill?, _ ∧ _))

/-- Every fill event carries the symbol and the side of the order. -/
def OwnFills (order : Order) (events : List OrderEvent) : Prop :=
  ∀ e ∈ events, e.body.fill?.isSome → e.symbol = order.symbol ∧ e.side = order.side

instance (order : Order) (events : List OrderEvent) : Decidable (OwnFills order events) :=
  inferInstanceAs (Decidable (∀ e ∈ events, _ → _ ∧ _))

/-- The quantities of the fill events. -/
def fillQuantities (events : List OrderEvent) : List String :=
  events.filterMap fun e => e.body.fill?.map (·.fillQty)

/-- The arithmetic keeps what the texts say: the running sum is written as the sum of the fill
quantities, and the last cumulative quantity as itself, and it is past the ordered quantity or
completes it when its text does. -/
structure QuantitiesKept [A : Arithmetic] (order : Order) (events : List OrderEvent) : Prop where
  sum : parseDecimal (A := .exact) (quantizeQty (A := A)
      (A.sumOf ((fillQuantities events).map (parseDecimal (A := A))))) =
    ((fillQuantities events).map (parseDecimal (A := .exact))).sum
  cumulative : ∀ fill ∈ lastFill events,
    parseDecimal (A := .exact) (quantizeQty (A := A) (parseDecimal (A := A) fill.cumQty)) =
      parseDecimal (A := .exact) fill.cumQty
  past : ∀ fill ∈ lastFill events,
    (Overfills (A := A) (parseDecimal (A := A) order.qty) (parseDecimal (A := A) fill.cumQty) ↔
      parseDecimal (A := .exact) order.qty < parseDecimal (A := .exact) fill.cumQty)
  complete : ∀ fill ∈ lastFill events,
    (Completes (A := A) (parseDecimal (A := A) order.qty) (parseDecimal (A := A) fill.cumQty) ↔
      parseDecimal (A := .exact) fill.cumQty = parseDecimal (A := .exact) order.qty)

instance [A : Arithmetic] (order : Order) (events : List OrderEvent) :
    Decidable (QuantitiesKept (A := A) order events) :=
  decidable_of_iff (_ ∧ (∀ fill ∈ lastFill events, _) ∧ (∀ fill ∈ lastFill events, _) ∧
      ∀ fill ∈ lastFill events, _)
    ⟨fun h => ⟨h.1, h.2.1, h.2.2.1, h.2.2.2⟩, fun h => ⟨h.sum, h.cumulative, h.past, h.complete⟩⟩

structure SoundStream (order : Order) (events : List OrderEvent) (snapshot : OrderSnapshot) :
    Prop where
  numbered : ∀ (k : ℕ) (e : OrderEvent), events[k]? = some e →
    e.seq = k ∧ e.orderId = order.orderId
  legal : ∀ (k : ℕ) (e : OrderEvent), events[k]? = some e →
    lastState (events.take k) ∈ legalFrom e.body.state
  ended : ∀ (k : ℕ) (e : OrderEvent), events[k]? = some e →
    isTerminal (lastState (events.take k)) = false
  state : lastState events = some snapshot.state
  positive : ∀ f ∈ snapshot.fills, 0 < parseDecimal f.qty
  total : totalFilled snapshot.fills = parseDecimal snapshot.filledQty
  cumulative : ∀ fill ∈ lastFill events, totalFilled snapshot.fills = parseDecimal fill.cumQty
  bounded : totalFilled snapshot.fills ≤ parseDecimal order.qty
  complete : snapshot.state = .filled ↔ totalFilled snapshot.fills = parseDecimal order.qty
  own : ∀ f ∈ snapshot.fills, f.symbol = order.symbol ∧ f.side = order.side

/-! ## One event -/

section Event

variable [A : Arithmetic]

theorem checkFill_ok {order : Order} {filled : ℚ} {body : OrderEventBody} {fill : OrderFillData}
    (h : checkFill order filled body fill = .ok ()) :
    0 < parseDecimal fill.fillQty ∧
    quantizeQty (parseDecimal fill.cumQty) =
      quantizeQty (A.rounded (filled + parseDecimal fill.fillQty)) ∧
    ¬Overfills (parseDecimal order.qty) (parseDecimal fill.cumQty) ∧
    (body.state = .filled → Completes (parseDecimal order.qty) (parseDecimal fill.cumQty)) ∧
    (body.state = .partiallyFilled →
      ¬Completes (parseDecimal order.qty) (parseDecimal fill.cumQty)) := by
  unfold checkFill at h
  dsimp only at h
  split_ifs at h with hpos hcum hover hshort hcomplete
  refine ⟨hpos, not_not.mp hcum, hover, ?_, ?_⟩
  · intro hfilled
    by_contra hnot
    exact hshort ⟨hfilled, hnot⟩
  · intro hpart hle
    exact hcomplete ⟨hpart, hle⟩

/-- Everything an accepted event says: its number and its place in the lifecycle, and either that it
is no fill or what its fill adds. -/
theorem reduceEvent_inv {order : Order} {r r' : Reduction} {i : ℕ} {e : OrderEvent}
    (h : reduceEvent order r i e = .ok r') :
    e.seq = i ∧ isTerminal r.state = false ∧ r.state ∈ legalFrom e.body.state ∧
    r'.state = some e.body.state ∧
    ((e.body.fill? = none ∧ r'.filled = r.filled ∧ r'.fills = r.fills) ∨
      ∃ fill f, e.body.fill? = some fill ∧ e.fill? = some f ∧ f.qty = fill.fillQty ∧
        checkFill order r.filled e.body fill = .ok () ∧
        r'.filled = A.rounded (r.filled + parseDecimal fill.fillQty) ∧
        r'.fills = r.fills ++ [f]) := by
  unfold reduceEvent at h
  split_ifs at h with hseq horder hterminal hlegal
  -- Past the guards: the number, the order, not terminal, legal.
  have hrunning : isTerminal r.state = false := Bool.not_eq_true _ ▸ hterminal
  refine ⟨not_not.mp hseq, hrunning, hlegal, ?_⟩
  split at h
  · rename_i hfill
    cases h
    exact ⟨rfl, .inl ⟨hfill, rfl, rfl⟩⟩
  · rename_i fill hfill
    obtain ⟨_, hcheck, rfl⟩ := map_eq_ok.mp h
    have hef : e.fill? = some ⟨e.orderId, e.intentId, e.symbol, e.side, fill.fillQty, fill.fillPrice,
        e.lineage⟩ := by
      rw [OrderEvent.fill?, hfill, Option.map_some]
    refine ⟨rfl, .inr ⟨fill, _, hfill, hef, rfl, hcheck, rfl, ?_⟩⟩
    rw [hef, Option.toList_some]

end Event

/-- The event of a fill puts the order into PARTIALLY_FILLED or FILLED, any other elsewhere. -/
theorem fill?_state (body : OrderEventBody) :
    body.fill?.isSome ↔ body.state = .partiallyFilled ∨ body.state = .filled := by
  cases body <;> simp [OrderEventBody.fill?, OrderEventBody.state]

/-! ## The fold -/

/-- Where the fold stands after some events, as far as their order goes. -/
structure Placed (order : Order) (visited : List OrderEvent) (r : Reduction) : Prop where
  numbered : ∀ (k : ℕ) (e : OrderEvent), visited[k]? = some e →
    e.seq = k ∧ e.orderId = order.orderId
  legal : ∀ (k : ℕ) (e : OrderEvent), visited[k]? = some e →
    lastState (visited.take k) ∈ legalFrom e.body.state
  ended : ∀ (k : ℕ) (e : OrderEvent), visited[k]? = some e →
    isTerminal (lastState (visited.take k)) = false
  state : r.state = lastState visited

/-- Where it stands as far as the quantities go: the running sum, written like the last cumulative
quantity, which is not past the order and completes it exactly in FILLED. -/
structure Counted [A : Arithmetic] (order : Order) (visited : List OrderEvent) (r : Reduction) :
    Prop where
  quantities : r.fills.map (·.qty) = fillQuantities visited
  sum : r.filled = A.sumOf ((fillQuantities visited).map parseDecimal)
  positive : ∀ f ∈ r.fills, 0 < parseDecimal f.qty
  written : ∀ fill ∈ lastFill visited,
    quantizeQty (parseDecimal fill.cumQty) = quantizeQty r.filled
  within : ∀ fill ∈ lastFill visited,
    ¬Overfills (parseDecimal order.qty) (parseDecimal fill.cumQty)
  complete : r.state = some .filled ↔
    ∃ fill ∈ lastFill visited, Completes (parseDecimal order.qty) (parseDecimal fill.cumQty)

theorem lastState_concat (events : List OrderEvent) (e : OrderEvent) :
    lastState (events ++ [e]) = some e.body.state := by
  rw [lastState, List.getLast?_concat, Option.map_some]

section Fold

variable [A : Arithmetic] {order : Order} {visited : List OrderEvent} {r r' : Reduction}
  {e : OrderEvent}

theorem Placed.step (h : Placed order visited r)
    (he : reduceEvent order r visited.length e = .ok r') : Placed order (visited ++ [e]) r' := by
  obtain ⟨hseq, hrunning, hlegal, hstate, -⟩ := reduceEvent_inv he
  have horder := (reduceEvent_ok he).1
  rw [h.state] at hrunning hlegal
  exact
    { numbered := forall_getElem?_concat
        (P := fun k (e : OrderEvent) _ => e.seq = k ∧ e.orderId = order.orderId) h.numbered
        ⟨hseq, horder⟩
      legal := forall_getElem?_concat
        (P := fun _ (e : OrderEvent) before => lastState before ∈ legalFrom e.body.state) h.legal hlegal
      ended := forall_getElem?_concat
        (P := fun _ (_ : OrderEvent) before => isTerminal (lastState before) = false) h.ended hrunning
      state := by rw [hstate, lastState_concat] }

/-- An event without a fill moves only the state, and not to FILLED. -/
theorem Counted.step_state (h : Counted order visited r) (hnotfilled : r.state ≠ some .filled)
    (hnone : e.body.fill? = none) (hstate : r'.state = some e.body.state)
    (hfilled : r'.filled = r.filled) (hkept : r'.fills = r.fills) :
    Counted order (visited ++ [e]) r' := by
  have hlast : lastFill (visited ++ [e]) = lastFill visited := by
    simp [lastFill, hnone]
  have hquantities : fillQuantities (visited ++ [e]) = fillQuantities visited := by
    simp [fillQuantities, hnone]
  have hnot : r'.state ≠ some .filled := by
    intro heq
    rw [hstate] at heq
    have hsome := (fill?_state e.body).mpr (.inr (Option.some.inj heq))
    rw [hnone] at hsome
    cases hsome
  exact
    { quantities := by rw [hkept, hquantities, h.quantities]
      sum := by rw [hfilled, hquantities, h.sum]
      positive := by rw [hkept]; exact h.positive
      written := by rw [hlast, hfilled]; exact h.written
      within := by rw [hlast]; exact h.within
      complete := by rw [hlast, ← h.complete]; exact iff_of_false hnot hnotfilled }

theorem Counted.step (h : Counted order visited r)
    (he : reduceEvent order r visited.length e = .ok r') : Counted order (visited ++ [e]) r' := by
  obtain ⟨-, hrunning, -, hstate, hkind⟩ := reduceEvent_inv he
  have hnotfilled : r.state ≠ some .filled := by
    intro heq
    rw [heq] at hrunning
    cases hrunning
  rcases hkind with ⟨hnone, hfilled, hkept⟩ | ⟨fill, f, hfill, -, hfqty, hcheck, hfilled, hkept⟩
  · exact h.step_state hnotfilled hnone hstate hfilled hkept
  · obtain ⟨hpos, hsum, hover, hcomplete, hpart⟩ := checkFill_ok hcheck
    have hlast : lastFill (visited ++ [e]) = some fill := by
      simp [lastFill, hfill]
    have hquantities : fillQuantities (visited ++ [e]) = fillQuantities visited ++ [fill.fillQty] := by
      simp [fillQuantities, hfill]
    have hsome : e.body.fill?.isSome := by rw [hfill]; rfl
    exact
      { quantities := by
          rw [hkept, hquantities, List.map_append, h.quantities, List.map_singleton, hfqty]
        sum := by
          rw [hfilled, hquantities, List.map_append, List.map_singleton, Arithmetic.sumOf_concat,
            ← h.sum]
        positive := by
          intro g hg
          rw [hkept] at hg
          rcases List.mem_append.mp hg with hg | hg
          · exact h.positive g hg
          · rw [List.mem_singleton.mp hg, hfqty]
            exact hpos
        written := by
          intro fill' hfill'
          rw [hlast] at hfill'
          rw [← Option.some.inj hfill', hsum, hfilled]
        within := by
          intro fill' hfill'
          rw [hlast] at hfill'
          rw [← Option.some.inj hfill']
          exact hover
        complete := by
          rw [hlast, hstate, Option.some_inj]
          constructor
          · exact fun hdone => ⟨fill, rfl, hcomplete hdone⟩
          · rintro ⟨fill', hfill', hcompletes⟩
            rw [← Option.some.inj hfill'] at hcompletes
            -- A partial fill that completed the order would have been refused.
            exact ((fill?_state e.body).mp hsome).resolve_left fun h => hpart h hcompletes }

theorem reduceEvents_folded {events : List OrderEvent} (hplaced : Placed order visited r)
    (hcounted : Counted order visited r)
    (h : reduceEvents order visited.length r events = .ok r') :
    Placed order (visited ++ events) r' ∧ Counted order (visited ++ events) r' := by
  -- On the events still to come; the two invariants are about the ones behind.
  induction events generalizing visited r with
  | nil =>
      cases h
      rw [List.append_nil]
      exact ⟨hplaced, hcounted⟩
  | cons e es ih =>
      obtain ⟨r₁, he, hes⟩ := bind_eq_ok.mp h
      have hplaced₁ := hplaced.step he
      have hcounted₁ := hcounted.step he
      rw [show visited.length + 1 = (visited ++ [e]).length by simp] at hes
      have hrest := ih hplaced₁ hcounted₁ hes
      rwa [List.append_assoc, List.singleton_append] at hrest

/-- The reduction behind the snapshot of an accepted stream. -/
theorem reduceOrder_folded {events : List OrderEvent} {snapshot : OrderSnapshot}
    (h : reduceOrder order events = .ok snapshot) :
    ∃ r, Placed order events r ∧ Counted order events r ∧ r.state = some snapshot.state ∧
      snapshot.fills = r.fills ∧ snapshot.filledQty = quantizeQty r.filled := by
  obtain ⟨r, hr, hsnapshot⟩ := bind_eq_ok.mp h
  have hplaced : Placed order [] ⟨none, 0, []⟩ := ⟨by simp, by simp, by simp, rfl⟩
  have hcounted : Counted order [] ⟨none, 0, []⟩ :=
    { quantities := rfl
      sum := rfl
      positive := by simp
      written := by simp [lastFill]
      within := by simp [lastFill]
      complete := by simp [lastFill] }
  have hfolded := reduceEvents_folded hplaced hcounted hr
  rw [List.nil_append] at hfolded
  refine ⟨r, hfolded.1, hfolded.2, ?_⟩
  split at hsnapshot
  · cases hsnapshot
  · rename_i state hstate
    cases hsnapshot
    exact ⟨hstate, rfl, rfl⟩

end Fold

/-! ## The snapshot -/

theorem own_iff {order : Order} {events : List OrderEvent} :
    (∀ f ∈ events.filterMap OrderEvent.fill?, f.symbol = order.symbol ∧ f.side = order.side) ↔
      OwnFills order events := by
  constructor
  · intro h e he hsome
    obtain ⟨fill, hfill⟩ := Option.isSome_iff_exists.mp hsome
    exact h _ (List.mem_filterMap.mpr ⟨e, he, by rw [OrderEvent.fill?, hfill]; rfl⟩)
  · intro h f hf
    obtain ⟨e, he, hef⟩ := List.mem_filterMap.mp hf
    obtain ⟨fill, hfill, rfl⟩ := Option.map_eq_some_iff.mp hef
    exact h e he (by rw [hfill]; rfl)

theorem fillQuantities_eq_nil_iff {events : List OrderEvent} :
    fillQuantities events = [] ↔ lastFill events = none := by
  rw [lastFill, List.getLast?_eq_none_iff, fillQuantities, List.filterMap_eq_nil_iff,
    List.filterMap_eq_nil_iff]
  simp

theorem totalFilled_nonneg {fills : List Fill} (h : ∀ f ∈ fills, 0 < parseDecimal f.qty) :
    0 ≤ totalFilled fills := by
  apply List.sum_nonneg
  intro x hx
  obtain ⟨f, hf, rfl⟩ := List.mem_map.mp hx
  exact (h f hf).le

theorem totalFilled_pos {fills : List Fill} (h : ∀ f ∈ fills, 0 < parseDecimal f.qty)
    (hne : fills ≠ []) : 0 < totalFilled fills := by
  apply List.sum_pos
  · intro x hx
    obtain ⟨f, hf, rfl⟩ := List.mem_map.mp hx
    exact h f hf
  · exact fun hnil => hne (List.map_eq_nil_iff.mp hnil)

section Sound

variable [A : Arithmetic] {order : Order} {events : List OrderEvent} {snapshot : OrderSnapshot}

/-- What an accepted stream says of its snapshot in any lawful arithmetic, whatever was ordered. -/
structure Tallied (order : Order) (events : List OrderEvent) (snapshot : OrderSnapshot) : Prop where
  state : lastState events = some snapshot.state
  fills : snapshot.fills = events.filterMap OrderEvent.fill?
  positive : ∀ f ∈ snapshot.fills, 0 < parseDecimal (A := .exact) f.qty
  total : totalFilled snapshot.fills =
    ((fillQuantities events).map (parseDecimal (A := .exact))).sum
  filledQty : snapshot.filledQty = quantizeQty (A.sumOf ((fillQuantities events).map parseDecimal))
  written : ∀ fill ∈ lastFill events, quantizeQty (parseDecimal fill.cumQty) = snapshot.filledQty
  within : ∀ fill ∈ lastFill events, ¬Overfills (parseDecimal order.qty) (parseDecimal fill.cumQty)
  complete : snapshot.state = .filled ↔
    ∃ fill ∈ lastFill events, Completes (parseDecimal order.qty) (parseDecimal fill.cumQty)

theorem tallied_of_accepted [A.Lawful] (haccepted : reduceOrder order events = .ok snapshot) :
    Tallied order events snapshot := by
  obtain ⟨r, hplaced, hcounted, hstate, hfills, hfilledQty⟩ := reduceOrder_folded haccepted
  exact
    { state := by rw [← hplaced.state, hstate]
      fills := (reduceOrder_ok haccepted).2
      positive := by
        intro f hf
        rw [hfills] at hf
        exact pos_of_parseDecimal_pos (hcounted.positive f hf)
      total := by
        rw [totalFilled, hfills, ← hcounted.quantities, List.map_map]
        rfl
      filledQty := by rw [hfilledQty, hcounted.sum]
      written := by
        intro fill hfill
        rw [hcounted.written fill hfill, hfilledQty]
      within := hcounted.within
      complete := by
        rw [← hcounted.complete, hstate, Option.some_inj] }

theorem Tallied.fills_ne_nil (h : Tallied order events snapshot) {fill : OrderFillData}
    (hfill : fill ∈ lastFill events) : snapshot.fills ≠ [] := by
  intro hnil
  obtain ⟨e, he, hef⟩ := List.mem_filterMap.mp (List.mem_of_getLast? hfill)
  have hnone := List.filterMap_eq_nil_iff.mp (h.fills.symm.trans hnil) e he
  rw [OrderEvent.fill?, hef] at hnone
  cases hnone

/-- Less than the order is filled, or all of it by something. -/
theorem Tallied.qty_pos (h : Tallied order events snapshot)
    (hbounded : totalFilled snapshot.fills ≤ parseDecimal (A := .exact) order.qty)
    (hcomplete : snapshot.state = .filled ↔
      totalFilled snapshot.fills = parseDecimal (A := .exact) order.qty) :
    0 < parseDecimal (A := .exact) order.qty := by
  by_cases hdone : snapshot.state = .filled
  · obtain ⟨fill, hfill, -⟩ := h.complete.mp hdone
    rw [← hcomplete.mp hdone]
    exact totalFilled_pos h.positive (h.fills_ne_nil hfill)
  · have hnonneg : 0 ≤ totalFilled snapshot.fills := totalFilled_nonneg h.positive
    exact hnonneg.trans_lt (lt_of_le_of_ne hbounded fun heq => hdone (hcomplete.mpr heq))

/-- The quantities of a sound stream are kept. -/
theorem Tallied.kept (h : Tallied order events snapshot)
    (hsound : SoundStream order events snapshot) : QuantitiesKept order events := by
  have hsum := hsound.total
  rw [h.total, h.filledQty] at hsum
  refine ⟨hsum.symm, ?_, ?_, ?_⟩
  · intro fill hfill
    rw [h.written fill hfill, h.filledQty, ← hsum, ← h.total]
    exact hsound.cumulative fill hfill
  · intro fill hfill
    have hle := hsound.bounded
    rw [hsound.cumulative fill hfill] at hle
    exact iff_of_false (h.within fill hfill) (not_lt.mpr hle)
  · intro fill hfill
    have hcomplete := hsound.complete
    rw [h.complete, hsound.cumulative fill hfill, hfill] at hcomplete
    rw [← hcomplete]
    simp

theorem Tallied.total_eq_last (h : Tallied order events snapshot) (hkept : QuantitiesKept order events) :
    ∀ fill ∈ lastFill events, totalFilled snapshot.fills = parseDecimal (A := .exact) fill.cumQty := by
  intro fill hfill
  rw [h.total, ← hkept.sum, ← h.filledQty, ← h.written fill hfill]
  exact hkept.cumulative fill hfill

theorem Tallied.total_eq_zero (h : Tallied order events snapshot) (hnone : lastFill events = none) :
    totalFilled snapshot.fills = 0 := by
  rw [h.total, fillQuantities_eq_nil_iff.mpr hnone]
  rfl

theorem Tallied.bounded (h : Tallied order events snapshot) (hkept : QuantitiesKept order events)
    (hqty : 0 < parseDecimal (A := .exact) order.qty) :
    totalFilled snapshot.fills ≤ parseDecimal (A := .exact) order.qty := by
  cases hfill : lastFill events with
  | none =>
      rw [h.total_eq_zero hfill]
      exact hqty.le
  | some fill =>
      rw [h.total_eq_last hkept fill hfill]
      exact not_lt.mp fun hpast => h.within fill hfill ((hkept.past fill hfill).mpr hpast)

theorem Tallied.filled_iff (h : Tallied order events snapshot) (hkept : QuantitiesKept order events)
    (hqty : 0 < parseDecimal (A := .exact) order.qty) :
    snapshot.state = .filled ↔
      totalFilled snapshot.fills = parseDecimal (A := .exact) order.qty := by
  rw [h.complete]
  cases hfill : lastFill events with
  | none =>
      rw [h.total_eq_zero hfill]
      exact iff_of_false (by simp) hqty.ne
  | some fill =>
      rw [h.total_eq_last hkept fill hfill, ← hkept.complete fill hfill]
      simp

/-- In any lawful arithmetic an accepted stream is sound exactly when the ordered quantity is
positive, every fill event carries the order's own symbol and side, and the arithmetic keeps the
quantities. -/
theorem soundStream_iff [A.Lawful] (haccepted : reduceOrder (A := A) order events = .ok snapshot) :
    SoundStream order events snapshot ↔
      0 < parseDecimal (A := .exact) order.qty ∧ OwnFills order events ∧
        QuantitiesKept (A := A) order events := by
  obtain ⟨r, hplaced, -⟩ := reduceOrder_folded haccepted
  have htallied := tallied_of_accepted haccepted
  constructor
  · intro h
    have howns := h.own
    rw [htallied.fills] at howns
    exact ⟨htallied.qty_pos h.bounded h.complete, own_iff.mp howns, htallied.kept h⟩
  · intro h
    obtain ⟨hqty, hownfills, hkept⟩ := h
    exact
      { numbered := hplaced.numbered
        legal := hplaced.legal
        ended := hplaced.ended
        state := htallied.state
        positive := htallied.positive
        total := by rw [htallied.total, htallied.filledQty, hkept.sum]
        cumulative := htallied.total_eq_last hkept
        bounded := htallied.bounded hkept hqty
        complete := htallied.filled_iff hkept hqty
        own := by rw [htallied.fills]; exact own_iff.mpr hownfills }

end Sound

/-! ## Exact quantities -/

/-- Two multiples of `1e-8` that are no further apart than `1e-9` are equal. -/
theorem eq_of_near {x y : ℚ} (hx : x ∈ grid qtyDp) (hy : y ∈ grid qtyDp)
    (hnear : |x - y| ≤ 1 / 10 ^ 9) : x = y := by
  obtain ⟨m, rfl⟩ := mem_grid.mp hx
  obtain ⟨n, rfl⟩ := mem_grid.mp hy
  -- Counted in units of the last place they are less than one unit apart.
  have hunits : |((m - n : ℤ) : ℚ)| ≤ 1 / 10 := by
    rw [← sub_div, abs_div, abs_of_pos (pow_ten_pos qtyDp), div_le_iff₀ (pow_ten_pos qtyDp)] at hnear
    push_cast
    norm_num [qtyDp] at hnear ⊢
    linarith
  have hlt : |m - n| < 1 := by
    rw [← Int.cast_abs] at hunits
    have hsmall : ((|m - n| : ℤ) : ℚ) < (1 : ℤ) := lt_of_le_of_lt hunits (by norm_num)
    exact Int.cast_lt.mp hsmall
  rw [show m = n by rw [Int.abs_lt_one_iff] at hlt; omega]

/-- On the grid the tolerance admits nothing but the ordered quantity itself. -/
theorem completes_iff {orderedQty cum : ℚ} (ho : orderedQty ∈ grid qtyDp) (hc : cum ∈ grid qtyDp) :
    Completes orderedQty cum ↔ cum = orderedQty := by
  constructor
  · exact eq_of_near hc ho
  · rintro rfl
    show |cum - cum| ≤ 1 / 10 ^ 9
    rw [sub_self, abs_zero]
    norm_num

theorem overfills_iff {orderedQty cum : ℚ} (ho : orderedQty ∈ grid qtyDp) (hc : cum ∈ grid qtyDp) :
    Overfills orderedQty cum ↔ orderedQty < cum := by
  constructor
  · intro h
    have hover : cum > orderedQty + 1 / 10 ^ 9 := h
    have heps : (0 : ℚ) < 1 / 10 ^ 9 := by norm_num
    linarith
  · intro hlt
    by_contra hnot
    have hle : cum ≤ orderedQty + 1 / 10 ^ 9 := not_lt.mp hnot
    have hnear : |cum - orderedQty| ≤ 1 / 10 ^ 9 := by
      rw [abs_of_pos (sub_pos.mpr hlt)]
      linarith
    exact hlt.ne (eq_of_near hc ho hnear).symm

/-- Canonical quantities are kept when nothing is rounded. -/
theorem quantitiesKept_exact {order : Order} {events : List OrderEvent}
    (hqty : isCanonicalDecimalString order.qty qtyDp)
    (hfills : ∀ e ∈ events, ∀ fill ∈ e.body.fill?,
      isCanonicalDecimalString fill.fillQty qtyDp ∧ isCanonicalDecimalString fill.cumQty qtyDp) :
    QuantitiesKept order events := by
  have hlast : ∀ fill ∈ lastFill events, parseDecimal fill.cumQty ∈ grid qtyDp := by
    intro fill hfill
    obtain ⟨e, he, hef⟩ := List.mem_filterMap.mp (List.mem_of_getLast? hfill)
    exact parseDecimal_mem_grid (hfills e he fill hef).2
  have hordered := parseDecimal_mem_grid hqty
  constructor
  · rw [Arithmetic.sumOf_exact, quantizeQty, parseDecimal_quantize (by decide), roundTo_eq_self]
    apply list_sum_mem
    intro x hx
    obtain ⟨q, hq, rfl⟩ := List.mem_map.mp hx
    obtain ⟨e, he, heq⟩ := List.mem_filterMap.mp hq
    obtain ⟨fill, hfill, rfl⟩ := Option.map_eq_some_iff.mp heq
    exact parseDecimal_mem_grid (hfills e he fill hfill).1
  · intro fill hfill
    rw [quantizeQty, parseDecimal_quantize (by decide), roundTo_eq_self (hlast fill hfill)]
  · exact fun fill hfill => overfills_iff hordered (hlast fill hfill)
  · exact fun fill hfill => completes_iff hordered (hlast fill hfill)

/-! ## Doubles -/

/-- An order for two units of BTC. -/
def streamOrder : Order where
  orderId := "o-1"
  intentId := "i-1"
  symbol := "BTC"
  side := .buy
  qty := "2.00000000"
  price := "100.00000000"
  brokerId := "real"
  lineage := ⟨none, "sv", "fs", "dq", "dh", "fh", "s1", 1, "i-1", "1.00", []⟩

def streamEvent (seq : ℤ) (symbol : String) (side : OrderSide) (body : OrderEventBody) :
    OrderEvent :=
  ⟨seq, "o-1", "i-1", symbol, side, "real", streamOrder.lineage, body⟩

/-- The order is filled in two parts, the second one with the given symbol and side. -/
def twoFills (symbol : String) (side : OrderSide) : List OrderEvent :=
  [streamEvent 0 "BTC" .buy .requested, streamEvent 1 "BTC" .buy .submitted,
    streamEvent 2 "BTC" .buy .accepted,
    streamEvent 3 "BTC" .buy (.partiallyFilled ⟨"0.50000000", "100.00000000", "0.50000000"⟩),
    streamEvent 4 symbol side (.filled ⟨"1.50000000", "101.00000000", "2.00000000"⟩)]

end NexusQuant.Market
