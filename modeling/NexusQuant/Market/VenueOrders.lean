import Mathlib.Data.List.Range
import NexusQuant.Market.DeribitTransport

/-!
# The orders of the venue

A venue is sound after `n` calls when its orders are numbered and each call has sent it at most one.
A new order, a late one and whatever becomes of an open order keep it so, and the orders of the other
calls stay as they are.
-/

namespace NexusQuant.Market

/-- The orders of the venue that came of call `n`. -/
def Venue.ofCall (v : Venue) (n : ℕ) : List VenueOrder := v.orders.filter fun o => o.call = n

def Venue.calls (v : Venue) : List ℕ := v.orders.map VenueOrder.call ++ v.inFlight.map OrderRequest.call

/-- The venue after `n` calls: the orders are numbered, each call has sent at most one, and a rejected
order has no trades. -/
structure Venue.Sound (v : Venue) (n : ℕ) : Prop where
  ids : v.orders.map VenueOrder.id = List.range v.orders.length
  calls_nodup : v.calls.Nodup
  calls_lt : ∀ c ∈ v.calls, c < n
  rejected : ∀ o ∈ v.orders, o.state = "rejected" → o.trades = []

namespace Venue

variable {v : Venue} {n : ℕ}

theorem Sound.mono {m : ℕ} (hv : v.Sound n) (hle : n ≤ m) : v.Sound m :=
  { hv with calls_lt := fun c hc => Nat.lt_of_lt_of_le (hv.calls_lt c hc) hle }

theorem mem_ofCall {o : VenueOrder} : o ∈ v.ofCall n ↔ o ∈ v.orders ∧ o.call = n := by
  simp [ofCall]

theorem ofCall_eq_nil (h : n ∉ v.calls) : v.ofCall n = [] := by
  rw [ofCall, List.filter_eq_nil_iff]
  intro o ho
  rw [decide_eq_true_eq]
  rintro rfl
  exact h (List.mem_append_left _ (List.mem_map_of_mem ho))

theorem Sound.ofCall_fresh (hv : v.Sound n) : v.ofCall n = [] :=
  ofCall_eq_nil fun h => Nat.lt_irrefl n (hv.calls_lt n h)

/-- An order is the only one of its call. -/
theorem Sound.ofCall_eq (hv : v.Sound n) {o : VenueOrder} (ho : o ∈ v.orders) :
    v.ofCall o.call = [o] := by
  have hnodup : (v.orders.map VenueOrder.call).Nodup := hv.calls_nodup.of_append_left
  have hinj : ∀ o' ∈ v.orders, o'.call = o.call → o' = o := fun o' ho' hcall =>
    List.inj_on_of_nodup_map hnodup ho' ho hcall
  have hof : (v.ofCall o.call).Nodup := (hnodup.of_map _).filter _
  refine List.perm_singleton.mp ((List.perm_ext_iff_of_nodup hof (List.nodup_singleton o)).mpr ?_)
  intro o'
  rw [mem_ofCall, List.mem_singleton]
  constructor
  · exact fun h => hinj o' h.1 h.2
  · rintro rfl
    exact ⟨ho, rfl⟩

theorem Sound.id_inj (hv : v.Sound n) {o o' : VenueOrder} (ho : o ∈ v.orders) (ho' : o' ∈ v.orders)
    (h : o.id = o'.id) : o = o' := by
  have hnodup : (v.orders.map VenueOrder.id).Nodup := hv.ids ▸ List.nodup_range
  exact List.inj_on_of_nodup_map hnodup ho ho' h

/-- An order is found under the text of its number. -/
theorem Sound.find?_eq (world : VenueWorld) (hv : v.Sound n) {o : VenueOrder} (ho : o ∈ v.orders) :
    v.find? world (world.idText o.id) = some o := by
  unfold find?
  have hsome : (v.orders.find? fun o' => world.idText o'.id = world.idText o.id).isSome := by
    rw [List.find?_isSome]
    exact ⟨o, ho, by simp⟩
  obtain ⟨o', ho'⟩ := Option.isSome_iff_exists.mp hsome
  have htext : world.idText o'.id = world.idText o.id := by
    simpa using List.find?_some ho'
  rw [ho', hv.id_inj (List.mem_of_find?_eq_some ho') ho (world.idText_injective htext)]

/-! ### A new order -/

theorem ofCall_accept_of_ne {call : ℕ} {label state : String} {trades : List VenueTrade}
    (h : call ≠ n) : (v.accept call label state trades).ofCall n = v.ofCall n := by
  have hnew : ∀ o : VenueOrder, o.call = call → [o].filter (fun o => o.call = n) = [] := by
    rintro o rfl
    exact List.filter_eq_nil_iff.mpr (by simpa using h)
  show List.filter _ (v.orders ++ [_]) = _
  rw [List.filter_append]
  exact (congrArg (v.ofCall n ++ ·) (hnew _ rfl)).trans (List.append_nil _)

theorem ofCall_accept {call : ℕ} {label state : String} {trades : List VenueTrade} :
    (v.accept call label state trades).ofCall call =
      v.ofCall call ++ [⟨v.orders.length, label, call, state, tradesOf state trades⟩] := by
  show List.filter _ (v.orders ++ [_]) = _
  rw [List.filter_append, List.filter_singleton, decide_eq_true rfl]
  rfl

theorem calls_accept {call : ℕ} {label state : String} {trades : List VenueTrade} :
    (v.accept call label state trades).calls.Perm (call :: v.calls) := by
  show (List.map _ (v.orders ++ [_]) ++ v.inFlight.map OrderRequest.call).Perm _
  rw [List.map_append, List.append_assoc]
  exact List.perm_middle

/-- A venue whose calls are, but for their order, those of a sound venue and one more. -/
theorem Sound.accept {w : Venue} {call : ℕ} {label state : String} {trades : List VenueTrade}
    (hv : v.Sound n) (horders : w.orders = v.orders)
    (hnodup : (call :: w.calls).Nodup) (hlt : ∀ c ∈ call :: w.calls, c < n) :
    (w.accept call label state trades).Sound n := by
  constructor
  · show List.map _ (w.orders ++ [_]) = List.range (w.orders ++ [_]).length
    rw [List.map_append, List.length_append, List.length_singleton, List.range_succ, horders, hv.ids]
    rfl
  · exact calls_accept.nodup_iff.mpr hnodup
  · exact fun c hc => hlt c (calls_accept.mem_iff.mp hc)
  · intro o ho hstate
    rcases List.mem_append.mp ho with hold | hnew
    · exact hv.rejected o (horders ▸ hold) hstate
    · obtain rfl := List.mem_singleton.mp hnew
      exact if_pos hstate

/-! ### What becomes of an open order -/

/-- A change that only an open order can undergo, and that does not reject it. -/
structure Grows (f : VenueOrder → VenueOrder) : Prop where
  id_eq : ∀ o, (f o).id = o.id
  call_eq : ∀ o, (f o).call = o.call
  of_not_open : ∀ o, o.state ≠ "open" → f o = o
  not_rejected : ∀ o, o.state = "open" → (f o).state ≠ "rejected"

theorem grows_id : Grows fun o => o :=
  ⟨fun _ => rfl, fun _ => rfl, fun _ _ => rfl, fun o h => by rw [h]; decide⟩

theorem grows_tradeOn (trades : List VenueTrade) : Grows fun o => o.tradeOn trades := by
  constructor
  · intro o
    unfold VenueOrder.tradeOn
    split <;> rfl
  · intro o
    unfold VenueOrder.tradeOn
    split <;> rfl
  · intro o ho
    exact if_neg ho
  · intro o ho
    show (VenueOrder.tradeOn o trades).state ≠ _
    rw [VenueOrder.tradeOn, if_pos ho]
    show o.state ≠ _
    rw [ho]
    decide

theorem grows_close : Grows VenueOrder.close := by
  constructor
  · intro o
    unfold VenueOrder.close
    split <;> rfl
  · intro o
    unfold VenueOrder.close
    split <;> rfl
  · intro o ho
    exact if_neg ho
  · intro o ho
    rw [VenueOrder.close, if_pos ho]
    show "cancelled" ≠ _
    decide

theorem Grows.comp {f g : VenueOrder → VenueOrder} (hg : Grows g) (hf : Grows f) : Grows (g ∘ f) where
  id_eq o := (hg.id_eq _).trans (hf.id_eq o)
  call_eq o := (hg.call_eq _).trans (hf.call_eq o)
  of_not_open o ho := by rw [Function.comp, hf.of_not_open o ho, hg.of_not_open o ho]
  not_rejected o ho := by
    by_cases hopen : (f o).state = "open"
    · exact hg.not_rejected _ hopen
    · rw [Function.comp, hg.of_not_open _ hopen]
      exact hf.not_rejected o ho

theorem update_update {id : ℕ} {f g : VenueOrder → VenueOrder} (hf : Grows f) :
    (v.update id f).update id g = v.update id (g ∘ f) := by
  unfold update
  rw [List.map_map]
  congr 2
  funext o
  by_cases ho : o.id = id
  · simp [ho, hf.id_eq]
  · simp [ho]

theorem update_id (id : ℕ) : v.update id (fun o => o) = v := by
  unfold update
  simp

section Update

variable {id : ℕ} {f : VenueOrder → VenueOrder}

theorem mem_update {o' : VenueOrder} (h : o' ∈ (v.update id f).orders) :
    ∃ o ∈ v.orders, o' = if o.id = id then f o else o := by
  obtain ⟨o, ho, rfl⟩ := List.mem_map.mp h
  exact ⟨o, ho, rfl⟩

theorem calls_update (hf : Grows f) : (v.update id f).calls = v.calls := by
  show List.map _ (List.map _ v.orders) ++ _ = List.map _ v.orders ++ _
  rw [List.map_map]
  congr 2
  funext o
  show VenueOrder.call (if o.id = id then f o else o) = o.call
  split
  · exact hf.call_eq o
  · rfl

theorem Sound.update (hv : v.Sound n) (hf : Grows f) : (v.update id f).Sound n := by
  constructor
  · show List.map _ (List.map _ v.orders) = List.range (List.map _ v.orders).length
    rw [List.map_map, List.length_map, ← hv.ids]
    congr 1
    funext o
    show VenueOrder.id (if o.id = id then f o else o) = o.id
    split
    · exact hf.id_eq o
    · rfl
  · rw [calls_update hf]
    exact hv.calls_nodup
  · rw [calls_update hf]
    exact hv.calls_lt
  · intro o' ho' hstate
    obtain ⟨o, ho, rfl⟩ := mem_update ho'
    by_cases hopen : o.state = "open"
    · split at hstate
      · exact absurd hstate (hf.not_rejected o hopen)
      · rw [hopen] at hstate
        exact absurd hstate (by decide)
    · rw [hf.of_not_open o hopen, ite_self] at hstate ⊢
      exact hv.rejected o ho hstate

theorem ofCall_update (hf : Grows f) (k : ℕ) :
    (v.update id f).ofCall k = (v.ofCall k).map fun o => if o.id = id then f o else o := by
  show List.filter _ (List.map _ v.orders) = List.map _ (List.filter _ v.orders)
  rw [List.filter_map]
  congr 2
  funext o
  show decide (VenueOrder.call (if o.id = id then f o else o) = k) = decide (o.call = k)
  split
  · rw [hf.call_eq o]
  · rfl

/-- What is said of the orders of a call stays so, unless one of them is open and undergoes the
change. -/
theorem ofCall_update_eq (hf : Grows f) {k : ℕ}
    (h : ∀ o ∈ v.ofCall k, o.id = id → f o = o) : (v.update id f).ofCall k = v.ofCall k := by
  rw [ofCall_update hf]
  refine (List.map_congr_left ?_).trans (List.map_id _)
  intro o ho
  by_cases hid : o.id = id
  · rw [if_pos hid]
    exact h o ho hid
  · exact if_neg hid

end Update

end Venue

end NexusQuant.Market
