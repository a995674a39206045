import Mathlib.Algebra.BigOperators.Group.Finset.Basic
import Mathlib.Data.List.Induction
import NexusQuant.Lib.Dict

/-!
# Collecting by a key

`collect key init update l` runs through `l` and updates, for every element, the entry of its key; a
key that is new starts from `init`.  The keys stand in the order of their first element.
-/

namespace Dict

variable {α ι : Type*} (key : ι → String) (init : α) (update : α → ι → α)

def collectStep (d : Dict α) (x : ι) : Dict α :=
  set d (key x) (update ((get? d (key x)).getD init) x)

def collect (l : List ι) : Dict α := l.foldl (collectStep key init update) []

variable {key init update} {l : List ι} {x : ι} {k : String} {a : α}

theorem collect_concat :
    collect key init update (l ++ [x]) = collectStep key init update (collect key init update l) x := by
  rw [collect, List.foldl_append]
  rfl

theorem mem_keys_collect : k ∈ keys (collect key init update l) ↔ ∃ x ∈ l, key x = k := by
  induction l using List.reverseRecOn with
  | nil => simp [collect, keys]
  | append_singleton l x ih =>
      rw [collect_concat, collectStep, mem_keys_set, ih]
      simp only [List.mem_append, List.mem_singleton, or_and_right, exists_or, exists_eq_left]
      rw [or_comm, eq_comm]

theorem nodup_keys_collect : (keys (collect key init update l)).Nodup := by
  induction l using List.reverseRecOn with
  | nil => exact List.nodup_nil
  | append_singleton l x ih =>
      rw [collect_concat]
      exact nodup_keys_set ih

/-- The entry of a key is what its own elements make of the initial value. -/
theorem getD_collect :
    (get? (collect key init update l) k).getD init =
      (l.filter fun x => key x = k).foldl update init := by
  induction l using List.reverseRecOn with
  | nil => rfl
  | append_singleton l x ih =>
      rw [collect_concat, collectStep, List.filter_append, List.foldl_append, ← ih]
      by_cases h : key x = k
      · subst h
        rw [get?_set_self, List.filter_cons_of_pos (by simp)]
        rfl
      · rw [get?_set_of_ne (Ne.symm h), List.filter_cons_of_neg (by simpa using h)]
        rfl

theorem mem_collect :
    (k, a) ∈ collect key init update l ↔
      (∃ x ∈ l, key x = k) ∧ a = (l.filter fun x => key x = k).foldl update init := by
  have hkeys : k ∈ keys (collect key init update l) ↔ ∃ x ∈ l, key x = k := mem_keys_collect
  rw [← getD_collect, ← hkeys]
  constructor
  · intro hmem
    have hget := get?_of_mem nodup_keys_collect hmem
    exact ⟨mem_keys.mpr ⟨a, hget⟩, by rw [hget]; rfl⟩
  · intro h
    obtain ⟨v, hv⟩ := mem_keys.mp h.1
    rw [h.2, hv]
    exact mem_of_get? hv

/-- A key that is there keeps its place. -/
theorem keys_set_of_mem {d : Dict α} (h : k ∈ keys d) : keys (set d k a) = keys d := by
  induction d with
  | nil => cases h
  | cons p d ih =>
      rw [set]
      split
      · rename_i heq
        rw [← heq]
        rfl
      · rename_i hne
        show p.1 :: keys (set d k a) = p.1 :: keys d
        rw [ih ((List.mem_cons.mp h).resolve_left (Ne.symm hne))]

/-- The keys of a list in order are in order. -/
theorem pairwise_keys_collect (h : l.Pairwise fun x y => Utf16.encode (key x) ≤ Utf16.encode (key y)) :
    (keys (collect key init update l)).Pairwise fun k k' => Utf16.encode k < Utf16.encode k' := by
  induction l using List.reverseRecOn with
  | nil => exact List.Pairwise.nil
  | append_singleton l x ih =>
      rw [List.pairwise_append] at h
      rw [collect_concat, collectStep]
      by_cases hmem : key x ∈ keys (collect key init update l)
      · rw [keys_set_of_mem hmem]
        exact ih h.1
      · have hnone : get? (collect key init update l) (key x) = none := by
          by_contra hsome
          exact hmem (mem_keys.mpr (Option.ne_none_iff_exists'.mp hsome))
        rw [set_of_get?_eq_none hnone, keys, List.map_append, List.pairwise_append]
        refine ⟨ih h.1, List.pairwise_singleton _ _, ?_⟩
        intro k hk k' hk'
        rw [List.mem_singleton.mp hk']
        -- The key of an element before, and not that of the new one.
        obtain ⟨y, hy, rfl⟩ := mem_keys_collect.mp hk
        have hle : Utf16.encode (key y) ≤ Utf16.encode (key x) :=
          h.2.2 y hy x (List.mem_singleton_self x)
        apply lt_of_le_of_ne hle
        intro heq
        exact hmem (Utf16.encode_injective heq ▸ hk)

theorem pairwise_collect (h : l.Pairwise fun x y => Utf16.encode (key x) ≤ Utf16.encode (key y)) :
    (collect key init update l).Pairwise fun e e' => Utf16.encode e.1 < Utf16.encode e'.1 := by
  have hkeys := @pairwise_keys_collect _ _ key init update l h
  rwa [keys, List.pairwise_map] at hkeys

/-- A flag each element may raise is raised when one of them does. -/
theorem flag_foldl {flag : α → Bool} {p : ι → Bool} (h : ∀ a x, flag (update a x) = (flag a || p x)) :
    flag (l.foldl update a) = (flag a || l.any p) := by
  induction l generalizing a with
  | nil => exact (Bool.or_false _).symm
  | cons x l ih => rw [List.foldl_cons, ih, h, List.any_cons, Bool.or_assoc]

/-! ## Weights that add up -/

section Weights

variable {β : Type*} [AddCancelCommMonoid β] {w : α → β} {c : ι → β}

theorem weight_foldl (h : ∀ a x, w (update a x) = w a + c x) :
    w (l.foldl update a) = w a + (l.map c).sum := by
  induction l generalizing a with
  | nil => simp
  | cons x l ih => rw [List.foldl_cons, ih, h, List.map_cons, List.sum_cons, add_assoc]

/-- The groups together weigh as much as the elements. -/
theorem total_collect (hinit : w init = 0) (h : ∀ a x, w (update a x) = w a + c x) :
    total w (collect key init update l) = (l.map c).sum := by
  induction l using List.reverseRecOn with
  | nil => rfl
  | append_singleton l x ih =>
      have hold : ((get? (collect key init update l) (key x)).map w).getD 0 =
          w ((get? (collect key init update l) (key x)).getD init) := by
        cases get? (collect key init update l) (key x) with
        | none => exact hinit.symm
        | some a => rfl
      rw [collect_concat, List.map_append, List.sum_append, ← ih, List.map_singleton, List.sum_singleton]
      -- The weight of the old value stands on both sides.
      apply add_right_cancel (b := w ((get? (collect key init update l) (key x)).getD init))
      rw [← hold, collectStep, total_set, h, hold, add_assoc, add_comm (c x)]

/-- The weights of the groups, key by key. -/
theorem total_collect_eq_sum (w : α → β) :
    total w (collect key init update l) =
      ∑ k ∈ (l.map key).toFinset, w ((l.filter fun x => key x = k).foldl update init) := by
  have hkeys : (l.map key).toFinset = (keys (collect key init update l)).toFinset := by
    ext k
    rw [List.mem_toFinset, List.mem_toFinset, mem_keys_collect, List.mem_map]
  rw [hkeys, List.sum_toFinset _ nodup_keys_collect, keys, List.map_map, total]
  congr 1
  apply List.map_congr_left
  intro e he
  rw [(mem_collect.mp he).2]
  rfl

end Weights

end Dict
