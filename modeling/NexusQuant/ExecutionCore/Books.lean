import NexusQuant.ExecutionCore.Reducer
import Mathlib.Data.List.Nodup
import Std.Data.String.ToNat

/-!
# What every run of the reducer keeps

Two unconditional invariants of the books.  `Sound`: there is a position, and every quantity is a
decimal with eight places.  `Layout`: the orders are those of the plan, in its order, each under its
own identifier with its own role and quantity.
-/

namespace NexusQuant.ExecutionCore

open Rounding Run

/-! ## Decimals -/

/-- There is a position, and every quantity in the books is a decimal with eight places. -/
structure Sound (b : Books) : Prop where
  position : ∃ p, b.position = some p ∧ p.Decimal
  filled : ∀ o ∈ b.orders, o.filledQuantity ∈ grid 8

theorem closePosition_decimal {p : ExecutionPosition} (hp : p.Decimal) (now : ℤ) :
    (closePosition p now).Decimal :=
  ⟨hp.entry, hp.entry, le_rfl⟩

theorem closeIfOpen_some (p : ExecutionPosition) (now : ℤ) :
    closeIfOpen (some p) now = some (if p.isOpen then closePosition p now else p) := rfl

theorem filled_terminateOrders {orders : List ExecutionOrder} {dst : OrderStatus} {now : ℤ}
    (h : ∀ o ∈ orders, o.filledQuantity ∈ grid 8) :
    ∀ o ∈ terminateOrders orders dst now, o.filledQuantity ∈ grid 8 := by
  intro o ho
  obtain ⟨o', ho', rfl⟩ := mem_terminateOrders ho
  rw [transitionOrder_filledQuantity]
  exact h o' ho'

theorem filled_replaceOrder {orders : List ExecutionOrder} {order : ExecutionOrder}
    {price quantity : JsNumber} {now : ℤ} (h : ∀ o ∈ orders, o.filledQuantity ∈ grid 8) :
    ∀ o ∈ replaceOrder orders order (applyFillToOrder order price quantity now),
      o.filledQuantity ∈ grid 8 := by
  intro o ho
  rcases mem_replaceOrder ho with rfl | ⟨ho', -⟩
  · exact applyFillToOrder_filledQuantity_mem_grid _ _ _ _
  · exact h o ho'

theorem Accepted.sound {s : ExecutionState} {c : ExecutionCommand} {b : Books}
    (h : Accepted s c b) (hs : Sound s.books) : Sound b := by
  obtain ⟨⟨p₀, hp₀, hdec⟩, hfilled⟩ := hs
  change s.position = some p₀ at hp₀
  change ∀ o ∈ s.orders, _ at hfilled
  have hclosed : ∀ now, ∃ p, closeIfOpen s.position now = some p ∧ p.Decimal := by
    intro now
    rw [hp₀, closeIfOpen_some]
    split
    · exact ⟨_, rfl, closePosition_decimal hdec now⟩
    · exact ⟨_, rfl, hdec⟩
  -- The position stays decimal in every case that touches it; the other cases keep it, and the
  -- filled quantities stay on the grid in a sweep and in a replacement alike.
  cases h with
  | kill now => exact ⟨hclosed now, filled_terminateOrders hfilled⟩
  | runtimeUnhealthy now => exact ⟨⟨p₀, hp₀, hdec⟩, filled_terminateOrders hfilled⟩
  | plan now => exact ⟨⟨p₀, hp₀, hdec⟩, hfilled⟩
  | arm now => exact ⟨⟨p₀, hp₀, hdec⟩, filled_terminateOrders hfilled⟩
  | submit now => exact ⟨⟨p₀, hp₀, hdec⟩, filled_terminateOrders hfilled⟩
  | acknowledge now => exact ⟨⟨p₀, hp₀, hdec⟩, filled_terminateOrders hfilled⟩
  | fillEntry now orderId price quantity order =>
      exact ⟨⟨p₀, hp₀, hdec⟩, filled_replaceOrder hfilled⟩
  | fillProtective now orderId price quantity order p hfind hrole hpos hprice hposition =>
      rw [hp₀] at hposition
      cases hposition
      exact ⟨⟨_, rfl, reducePosition_decimal hdec quantity now⟩, filled_replaceOrder hfilled⟩
  | «open» now entry hstatus hfind hpos =>
      have hgrid := hfilled entry (List.mem_of_find?_eq_some hfind)
      exact ⟨⟨_, rfl, openPosition_decimal hgrid hpos⟩, hfilled⟩
  | reduce now quantity price p hstatus hposition =>
      rw [hp₀] at hposition
      cases hposition
      exact ⟨⟨_, rfl, reducePosition_decimal hdec quantity now⟩, hfilled⟩
  | close now price =>
      exact ⟨⟨_, by rw [hp₀]; rfl, closePosition_decimal hdec now⟩, filled_terminateOrders hfilled⟩
  | cancel now reason => exact ⟨hclosed now, filled_terminateOrders hfilled⟩
  | reject now reason => exact ⟨⟨p₀, hp₀, hdec⟩, filled_terminateOrders hfilled⟩
  | expire now => exact ⟨⟨p₀, hp₀, hdec⟩, filled_terminateOrders hfilled⟩
  | fail now reason => exact ⟨⟨p₀, hp₀, hdec⟩, filled_terminateOrders hfilled⟩

/-- Every order of a plan starts planned and unfilled. -/
theorem buildOrders_fresh {intent : ExecutionIntent} {o : ExecutionOrder}
    (ho : o ∈ buildOrders intent) : o.status = .planned ∧ o.filledQuantity = 0 := by
  simp only [buildOrders, List.mem_cons, List.mem_mapIdx] at ho
  rcases ho with rfl | rfl | ⟨i, hi, rfl⟩
  · exact ⟨rfl, rfl⟩
  · exact ⟨rfl, rfl⟩
  · exact ⟨rfl, rfl⟩

theorem start_sound (intent : ExecutionIntent) : Sound (start intent).books := by
  refine ⟨⟨emptyPosition intent, rfl, ⟨(grid 8).zero_mem, (grid 8).zero_mem, le_rfl⟩⟩, ?_⟩
  intro o ho
  rw [(buildOrders_fresh ho).2]
  exact (grid 8).zero_mem

/-! ## The layout of the plan -/

/-- What no command changes about an order. -/
def ExecutionOrder.key (o : ExecutionOrder) : String × OrderRole × Option ℚ :=
  (o.orderId, o.role, o.quantity)

/-- The orders of the books are the planned ones. -/
def Layout (intent : ExecutionIntent) (b : Books) : Prop :=
  b.orders.map (·.key) = (buildOrders intent).map (·.key)

theorem makeOrderId_injective (planId name : String) :
    Function.Injective (makeOrderId planId name) := by
  intro i j h
  simp only [makeOrderId, String.append_right_inj] at h
  exact Nat.repr_injective h

/-- Role names that start with different letters give different identifiers. -/
theorem makeOrderId_ne {planId a b : String} {c d : Char} {i j : ℕ}
    (ha : (toLowerCase a).toList.head? = some c) (hb : (toLowerCase b).toList.head? = some d)
    (hcd : c ≠ d) : makeOrderId planId a i ≠ makeOrderId planId b j := by
  intro h
  simp only [makeOrderId, String.append_right_inj] at h
  -- The identifiers agree up to the role name, so its first letters would be equal.
  have hhead := congrArg (fun t => t.toList.head?) h
  simp only [String.toList_append, List.head?_append, ha, hb, Option.some_or, Option.some.injEq]
    at hhead
  exact hcd hhead

theorem targetIds_eq (intent : ExecutionIntent) (quantity : ℕ → Option ℚ) :
    (intent.targets.mapIdx fun i target =>
      planOrder intent "target" (i + 2) .target .limit (some target) (quantity i)).map
        (·.orderId) =
      (List.range intent.targets.length).map fun i =>
        makeOrderId (makePlanId intent.intentId) "target" (i + 2) := by
  apply List.ext_getElem
  · simp
  · intro i h₁ h₂
    simp [planOrder, makeOrder]

/-- The identifiers of a plan are distinct. -/
theorem buildOrders_nodup (intent : ExecutionIntent) :
    ((buildOrders intent).map (·.orderId)).Nodup := by
  have hhead : (toLowerCase "target").toList.head? = some 't' := by decide
  simp only [buildOrders, List.map_cons, targetIds_eq, List.nodup_cons, List.mem_cons,
    List.mem_map, not_or, not_exists, not_and]
  -- The entry apart from the stop and the targets, the stop apart from the targets, and the targets
  -- from one another by their index.
  refine ⟨⟨?_, ?_⟩, ?_, ?_⟩
  · exact makeOrderId_ne (c := 'e') (d := 's') (by decide) (by decide) (by decide)
  · intro i _
    exact (makeOrderId_ne (c := 'e') (by decide) hhead (by decide)).symm
  · intro i _
    exact (makeOrderId_ne (c := 's') (by decide) hhead (by decide)).symm
  · refine List.nodup_range.map ?_
    intro i j hij
    exact Nat.add_right_cancel (makeOrderId_injective _ _ hij)

theorem Layout.nodup {intent : ExecutionIntent} {b : Books} (h : Layout intent b) :
    (b.orders.map (·.orderId)).Nodup := by
  have hids := congrArg (List.map Prod.fst) h
  rw [List.map_map, List.map_map] at hids
  change b.orders.map (·.orderId) = (buildOrders intent).map (·.orderId) at hids
  rw [hids]
  exact buildOrders_nodup intent

/-- Two orders under one identifier are the same order. -/
theorem Layout.eq_of_orderId {intent : ExecutionIntent} {b : Books} (h : Layout intent b)
    {o o' : ExecutionOrder} (ho : o ∈ b.orders) (ho' : o' ∈ b.orders)
    (hid : o.orderId = o'.orderId) : o = o' :=
  List.inj_on_of_nodup_map h.nodup ho ho' hid

/-- Every order of the books has the identity of a planned one. -/
theorem Layout.planned {intent : ExecutionIntent} {b : Books} (h : Layout intent b)
    {o : ExecutionOrder} (ho : o ∈ b.orders) : ∃ o' ∈ buildOrders intent, o.key = o'.key := by
  have hmem : o.key ∈ (buildOrders intent).map (·.key) := h ▸ List.mem_map_of_mem ho
  obtain ⟨o', ho', heq⟩ := List.mem_map.mp hmem
  exact ⟨o', ho', heq.symm⟩

/-- There is one entry order. -/
theorem buildOrders_entry_unique {intent : ExecutionIntent} {o : ExecutionOrder}
    (ho : o ∈ buildOrders intent) (hrole : o.role = .entry) :
    o.orderId = makeOrderId (makePlanId intent.intentId) "entry" 0 := by
  simp only [buildOrders, List.mem_cons, List.mem_mapIdx] at ho
  rcases ho with rfl | rfl | ⟨i, hi, rfl⟩
  · rfl
  · cases hrole
  · cases hrole

theorem Layout.entry_unique {intent : ExecutionIntent} {b : Books} (h : Layout intent b)
    {o o' : ExecutionOrder} (ho : o ∈ b.orders) (ho' : o' ∈ b.orders) (hrole : o.role = .entry)
    (hrole' : o'.role = .entry) : o = o' := by
  obtain ⟨q, hq, hkey⟩ := h.planned ho
  obtain ⟨q', hq', hkey'⟩ := h.planned ho'
  simp only [ExecutionOrder.key, Prod.mk.injEq] at hkey hkey'
  apply h.eq_of_orderId ho ho'
  rw [hkey.1, hkey'.1, buildOrders_entry_unique hq (hkey.2.1 ▸ hrole),
    buildOrders_entry_unique hq' (hkey'.2.1 ▸ hrole')]

/-- A sweep keeps what no transition of an order changes. -/
theorem map_terminateOrders {α : Type*} {f : ExecutionOrder → α} {dst : OrderStatus} {now : ℤ}
    (hf : ∀ o, f (transitionOrder o dst now) = f o) (orders : List ExecutionOrder) :
    (terminateOrders orders dst now).map f = orders.map f := by
  rw [terminateOrders, List.map_map]
  exact List.map_congr_left fun o _ => hf o

/-- Replacing orders by one that agrees with them in `f` keeps the values of `f`. -/
theorem map_replaceOrder {α : Type*} {f : ExecutionOrder → α} {orders : List ExecutionOrder}
    {order filled : ExecutionOrder}
    (hf : ∀ o ∈ orders, o.orderId = order.orderId → f filled = f o) :
    (replaceOrder orders order filled).map f = orders.map f := by
  rw [replaceOrder, List.map_map]
  apply List.map_congr_left
  intro o ho
  simp only [Function.comp_apply]
  split
  · rename_i hid
    exact hf o ho hid
  · rfl

theorem layout_terminateOrders (orders : List ExecutionOrder) (dst : OrderStatus) (now : ℤ) :
    (terminateOrders orders dst now).map (·.key) = orders.map (·.key) :=
  map_terminateOrders (fun o => by simp [ExecutionOrder.key]) orders

/-- An order of the books is the only one with its identifier. -/
theorem Layout.map_replaceOrder {α : Type*} (f : ExecutionOrder → α) {intent : ExecutionIntent}
    {b : Books} (h : Layout intent b) {order filled : ExecutionOrder} (ho : order ∈ b.orders)
    (hf : f filled = f order) : (replaceOrder b.orders order filled).map f = b.orders.map f := by
  apply ExecutionCore.map_replaceOrder
  intro o ho' hid
  rw [hf, h.eq_of_orderId ho' ho hid]

theorem replaceOrder_of_absent {orders : List ExecutionOrder} {order filled : ExecutionOrder}
    (h : order.orderId ∉ orders.map (·.orderId)) : replaceOrder orders order filled = orders := by
  have hkept : ∀ o ∈ orders, (if o.orderId = order.orderId then filled else o) = o := by
    intro o ho
    have hne : o.orderId ≠ order.orderId := by
      intro hid
      exact h (List.mem_map.mpr ⟨o, ho, hid⟩)
    exact if_neg hne
  exact (List.map_congr_left hkept).trans (List.map_id' orders)

/-- Replacing one order moves a total by the difference of the two. -/
theorem sum_replaceOrder {orders : List ExecutionOrder} {order filled : ExecutionOrder}
    (hnodup : (orders.map (·.orderId)).Nodup) (ho : order ∈ orders) (g : ExecutionOrder → ℚ) :
    ((replaceOrder orders order filled).map g).sum = (orders.map g).sum - g order + g filled := by
  induction orders with
  | nil => cases ho
  | cons a rest ih =>
      rw [List.map_cons, List.nodup_cons] at hnodup
      have hcons : replaceOrder (a :: rest) order filled =
          (if a.orderId = order.orderId then filled else a) :: replaceOrder rest order filled := rfl
      rw [hcons, List.map_cons, List.sum_cons, List.map_cons, List.sum_cons]
      rcases List.mem_cons.mp ho with rfl | htail
      -- No second order has this identifier, so the rest of the list is untouched.
      · rw [if_pos rfl, replaceOrder_of_absent hnodup.1]
        ring
      · have hne : a.orderId ≠ order.orderId := by
          intro hid
          exact hnodup.1 (List.mem_map.mpr ⟨order, htail, hid.symm⟩)
        rw [if_neg hne, ih hnodup.2 htail]
        ring

theorem Accepted.layout {s : ExecutionState} {c : ExecutionCommand} {b : Books}
    (h : Accepted s c b) (hs : Layout s.intent s.books) : Layout s.intent b := by
  have hsame : s.orders.map (·.key) = (buildOrders s.intent).map (·.key) := hs
  have hswept : ∀ dst now, (terminateOrders s.orders dst now).map (·.key) =
      (buildOrders s.intent).map (·.key) := by
    intro dst now
    rw [layout_terminateOrders]; exact hsame
  have hfilled : ∀ {order}, order ∈ s.orders → ∀ price quantity now,
      (replaceOrder s.orders order (applyFillToOrder order price quantity now)).map (·.key) =
        (buildOrders s.intent).map (·.key) := by
    intro order ho price quantity now
    have hkey : (applyFillToOrder order price quantity now).key = order.key := rfl
    exact (hs.map_replaceOrder (·.key) ho hkey).trans hsame
  -- A sweep and a replacement keep identifiers, roles and quantities; nothing else touches the
  -- orders.
  cases h with
  | plan now => exact hsame
  | «open» now => exact hsame
  | reduce now => exact hsame
  | fillEntry now orderId price quantity order hfind =>
      exact hfilled (mem_of_find_orderId hfind).1 price quantity now
  | fillProtective now orderId price quantity order p hfind =>
      exact hfilled (mem_of_find_orderId hfind).1 price quantity now
  | _ => exact hswept _ _

theorem start_layout (intent : ExecutionIntent) : Layout intent (start intent).books := rfl

end NexusQuant.ExecutionCore
