import Mathlib.Algebra.BigOperators.Group.List.Basic
import Mathlib.Data.List.Basic
import Mathlib.Data.List.Forall2
import Mathlib.Data.List.Sort
import NexusQuant.Lib.Utf16

/-!
# Dictionaries with string keys

The plain objects of the source used as dictionaries: keys in insertion order, and a write to a key
that is present keeps its place.
-/

abbrev Dict (α : Type*) := List (String × α)

namespace Dict

variable {α : Type*}

def get? (d : Dict α) (key : String) : Option α := d.lookup key

def keys (d : Dict α) : List String := d.map Prod.fst

/-- `Object.keys(d).sort()`, by code units. -/
def sortedKeys (d : Dict α) : List String :=
  d.keys.insertionSort fun s t => Utf16.encode s ≤ Utf16.encode t

/-- The values in the order of their keys. -/
def sortedValues (d : Dict α) : List α := d.sortedKeys.filterMap d.get?

/-- What a plain object has under no key of its own, the members of `Object.prototype`. -/
def inherited : List String :=
  ["__defineGetter__", "__defineSetter__", "__lookupGetter__", "__lookupSetter__", "__proto__",
    "constructor", "hasOwnProperty", "isPrototypeOf", "propertyIsEnumerable", "toLocaleString",
    "toString", "valueOf"]

def set (d : Dict α) (key : String) (value : α) : Dict α :=
  match d with
  | [] => [(key, value)]
  | (k, v) :: d => if k = key then (key, value) :: d else (k, v) :: set d key value

variable {d : Dict α} {key : String} {value : α}

@[simp] theorem get?_nil : get? ([] : Dict α) key = none := rfl

theorem get?_cons (k : String) (v : α) :
    get? ((k, v) :: d) key = if k = key then some v else get? d key := by
  by_cases h : k = key
  · subst h
    simp [get?]
  · rw [if_neg h, get?, List.lookup_cons, get?, beq_false_of_ne (Ne.symm h)]

@[simp] theorem get?_set_self : get? (set d key value) key = some value := by
  induction d with
  | nil => rw [set, get?_cons, if_pos rfl]
  | cons p d ih =>
      obtain ⟨k, v⟩ := p
      rw [set]
      split
      · rw [get?_cons, if_pos rfl]
      · rename_i hne
        rw [get?_cons, if_neg hne, ih]

theorem get?_set_of_ne {other : String} (h : other ≠ key) :
    get? (set d key value) other = get? d other := by
  induction d with
  | nil => rw [set, get?_cons, if_neg (Ne.symm h)]
  | cons p d ih =>
      obtain ⟨k, v⟩ := p
      rw [set]
      split
      · rename_i heq
        rw [get?_cons, if_neg (Ne.symm h), get?_cons, if_neg (by rw [heq]; exact Ne.symm h)]
      · rw [get?_cons, get?_cons, ih]

/-- Writing what is there already changes nothing. -/
theorem set_eq_self (h : get? d key = some value) : set d key value = d := by
  induction d with
  | nil => cases h
  | cons p d ih =>
      obtain ⟨k, v⟩ := p
      rw [get?_cons] at h
      rw [set]
      split at h
      · rename_i heq
        cases h
        rw [if_pos heq, heq]
      · rename_i hne
        rw [if_neg hne, ih h]

/-- A new key comes last. -/
theorem set_of_get?_eq_none (h : get? d key = none) : set d key value = d ++ [(key, value)] := by
  induction d with
  | nil => rfl
  | cons p d ih =>
      obtain ⟨k, v⟩ := p
      rw [get?_cons] at h
      rw [set]
      split at h
      · cases h
      · rename_i hne
        rw [if_neg hne, ih h]
        rfl

/-- What is the same for the old value and the new one is the same for all entries. -/
theorem filterMap_set {β : Type*} {f : String × α → Option β} {old : α} (hold : get? d key = some old)
    (h : f (key, value) = f (key, old)) : (set d key value).filterMap f = d.filterMap f := by
  induction d with
  | nil => cases hold
  | cons p d ih =>
      obtain ⟨k, v⟩ := p
      rw [get?_cons] at hold
      rw [set]
      split at hold
      · rename_i heq
        cases hold
        subst heq
        rw [if_pos rfl, List.filterMap_cons, List.filterMap_cons, h]
      · rename_i hne
        rw [if_neg hne, List.filterMap_cons, List.filterMap_cons, ih hold]

theorem mem_of_get? (h : get? d key = some value) : (key, value) ∈ d := by
  induction d with
  | nil => cases h
  | cons p d ih =>
      obtain ⟨k, v⟩ := p
      rw [get?_cons] at h
      split at h
      · rename_i heq
        cases h
        rw [heq]
        exact List.mem_cons_self
      · exact List.mem_cons_of_mem _ (ih h)

/-- With one entry for a key, an entry is what is found under its key. -/
theorem get?_of_mem (h : (keys d).Nodup) (hmem : (key, value) ∈ d) : get? d key = some value := by
  induction d with
  | nil => cases hmem
  | cons p d ih =>
      obtain ⟨k, v⟩ := p
      have hnotin : k ∉ keys d := (List.nodup_cons.mp h).1
      rw [get?_cons]
      rcases List.mem_cons.mp hmem with heq | hrest
      · cases heq
        exact if_pos rfl
      · rw [if_neg, ih (List.nodup_cons.mp h).2 hrest]
        rintro rfl
        exact hnotin (List.mem_map.mpr ⟨_, hrest, rfl⟩)

theorem mem_keys : key ∈ keys d ↔ ∃ v, get? d key = some v := by
  induction d with
  | nil => simp [keys]
  | cons p d ih =>
      obtain ⟨k, v⟩ := p
      rw [get?_cons]
      rw [keys] at ih ⊢
      rw [List.map_cons, List.mem_cons]
      by_cases h : k = key
      · simp [h]
      · simp [h, Ne.symm h, ih]

theorem pairwise_sortedKeys_le (d : Dict α) :
    (sortedKeys d).Pairwise fun s t => Utf16.encode s ≤ Utf16.encode t := by
  have htotal : Std.Total fun s t : String => Utf16.encode s ≤ Utf16.encode t :=
    ⟨fun _ _ => le_total _ _⟩
  have htrans : IsTrans String fun s t => Utf16.encode s ≤ Utf16.encode t := ⟨fun _ _ _ => le_trans⟩
  exact List.pairwise_insertionSort _ _

/-- The sorted keys depend on the keys alone. -/
theorem sortedKeys_eq_of_perm {β : Type*} {e : Dict β} (h : (sortedKeys d).Perm (sortedKeys e)) :
    sortedKeys d = sortedKeys e :=
  h.eq_of_pairwise (fun _ _ _ _ hst hts => Utf16.encode_injective (le_antisymm hst hts))
    (pairwise_sortedKeys_le d) (pairwise_sortedKeys_le e)

theorem mem_sortedKeys : key ∈ sortedKeys d ↔ key ∈ keys d :=
  (List.perm_insertionSort _ _).mem_iff

theorem mem_keys_set {other : String} : other ∈ keys (set d key value) ↔ other = key ∨ other ∈ keys d := by
  by_cases h : other = key
  · rw [h, mem_keys, get?_set_self]
    simp
  · rw [mem_keys, mem_keys, get?_set_of_ne h]
    simp [h]

theorem nodup_keys_set (h : (keys d).Nodup) : (keys (set d key value)).Nodup := by
  induction d with
  | nil => exact List.nodup_singleton key
  | cons p d ih =>
      obtain ⟨k, v⟩ := p
      have hnotin : k ∉ keys d := (List.nodup_cons.mp h).1
      have hrest : (keys d).Nodup := (List.nodup_cons.mp h).2
      rw [set]
      -- The key is there and keeps its place, or it comes last.
      split
      · rename_i heq
        rw [← heq]
        exact List.nodup_cons.mpr ⟨hnotin, hrest⟩
      · rename_i hne
        refine List.nodup_cons.mpr ⟨?_, ih hrest⟩
        show k ∉ keys (set d key value)
        rw [mem_keys_set]
        simp [hne, hnotin]

/-- What holds of every entry and of the new one holds after the write. -/
theorem forall_set {P : String × α → Prop} (h : ∀ p ∈ d, P p) (hnew : P (key, value)) :
    ∀ p ∈ set d key value, P p := by
  induction d with
  | nil =>
      intro p hp
      rw [List.mem_singleton.mp hp]
      exact hnew
  | cons q d ih =>
      obtain ⟨hq, hd⟩ := List.forall_mem_cons.mp h
      rw [set]
      split
      · exact List.forall_mem_cons.mpr ⟨hnew, hd⟩
      · exact List.forall_mem_cons.mpr ⟨hq, ih hd⟩

/-- Reading the keys in their sorted order meets every value once. -/
theorem sortedValues_perm (h : (keys d).Nodup) : (sortedValues d).Perm (d.map Prod.snd) := by
  -- In the order of insertion first.
  have hvalues : (keys d).filterMap (get? d) = d.map Prod.snd := by
    induction d with
    | nil => rfl
    | cons p d ih =>
        obtain ⟨k, v⟩ := p
        have hnotin : k ∉ keys d := (List.nodup_cons.mp h).1
        have hrest : (keys d).filterMap (get? ((k, v) :: d)) = (keys d).filterMap (get? d) := by
          apply List.filterMap_congr
          intro other hother
          rw [get?_cons, if_neg]
          rintro rfl
          exact hnotin hother
        show (k :: keys d).filterMap (get? ((k, v) :: d)) = _
        rw [List.filterMap_cons, get?_cons, if_pos rfl, hrest, ih (List.nodup_cons.mp h).2]
        rfl
  rw [← hvalues]
  exact (List.perm_insertionSort _ _).filterMap _

/-- A dictionary rebuilt in the order of its keys. -/
theorem get?_sorted {β : Type*} (f : α → β) :
    get? ((sortedKeys d).filterMap fun k => (get? d k).map fun v => (k, f v)) key =
      (get? d key).map f := by
  -- For any list of keys, so that the order does not matter.
  have hlist : ∀ ks : List String, get? (ks.filterMap fun k => (get? d k).map fun v => (k, f v)) key =
      if key ∈ ks then (get? d key).map f else none := by
    intro ks
    induction ks with
    | nil => rfl
    | cons k ks ih =>
        rw [List.filterMap_cons]
        by_cases hk : k = key
        · subst hk
          cases hget : get? d k with
          | none => simp [ih, hget]
          | some v => simp [get?_cons]
        · have hmem : key ∈ k :: ks ↔ key ∈ ks := by simp [Ne.symm hk]
          rw [if_congr hmem rfl rfl, ← ih]
          cases hget : get? d k with
          | none => rfl
          | some v => exact (get?_cons k (f v)).trans (if_neg hk)
  rw [hlist]
  split
  · rfl
  · rename_i hnotin
    cases hget : get? d key with
    | none => rfl
    | some v => exact absurd (mem_sortedKeys.mpr (mem_keys.mpr ⟨v, hget⟩)) hnotin

/-- The entry that a fold collects of the elements with its key. -/
theorem getD_foldl_set {ι : Type*} (k : ι → String) (step : α → ι → α) (zero : α) (l : List ι) :
    (get? (l.foldl (fun d a => set d (k a) (step ((get? d (k a)).getD zero) a)) d) key).getD zero =
      (l.filter fun a => k a = key).foldl step ((get? d key).getD zero) := by
  induction l generalizing d with
  | nil => rfl
  | cons a l ih =>
      rw [List.foldl_cons, ih]
      by_cases h : k a = key
      · rw [List.filter_cons_of_pos (by simpa using h), List.foldl_cons, ← h, get?_set_self]
        rfl
      · rw [List.filter_cons_of_neg (by simpa using h), get?_set_of_ne (Ne.symm h)]

/-! ## What a write does to the keys -/

theorem keys_set_congr (other : α) : keys (set d key value) = keys (set d key other) := by
  induction d with
  | nil => rfl
  | cons p d ih =>
      obtain ⟨k, v⟩ := p
      rw [set, set]
      by_cases h : k = key
      · rw [if_pos h, if_pos h]
        rfl
      · rw [if_neg h, if_neg h]
        exact congrArg (k :: ·) ih

/-- The other keys stay as they are. -/
theorem filter_keys_set : (keys (set d key value)).filter (· ≠ key) = (keys d).filter (· ≠ key) := by
  induction d with
  | nil => simp [set, keys]
  | cons p d ih =>
      obtain ⟨k, v⟩ := p
      rw [set]
      by_cases h : k = key
      · rw [if_pos h, h]
        rfl
      · rw [if_neg h]
        show (k :: keys (set d key value)).filter _ = (k :: keys d).filter _
        rw [List.filter_cons, List.filter_cons, ih]

theorem filter_sortedKeys_set :
    (sortedKeys (set d key value)).filter (· ≠ key) = (sortedKeys d).filter (· ≠ key) := by
  have hperm : ((sortedKeys (set d key value)).filter (· ≠ key)).Perm
      ((sortedKeys d).filter (· ≠ key)) := by
    apply ((List.perm_insertionSort _ _).filter _).trans
    rw [filter_keys_set]
    exact ((List.perm_insertionSort _ _).filter _).symm
  exact hperm.eq_of_pairwise
    (fun _ _ _ _ hst hts => Utf16.encode_injective (le_antisymm hst hts))
    ((pairwise_sortedKeys_le _).filter _) ((pairwise_sortedKeys_le _).filter _)

/-- Two writes to one key leave values that are related one by one. -/
theorem forall₂_sortedValues_set {R : α → α → Prop} (hrefl : ∀ a, R a a) {other : α}
    (h : R value other) :
    List.Forall₂ R (sortedValues (set d key value)) (sortedValues (set d key other)) := by
  have hkeys : sortedKeys (set d key value) = sortedKeys (set d key other) := by
    rw [sortedKeys, sortedKeys, keys_set_congr other]
  have hsame : List.Forall₂ (· = ·) (sortedKeys (set d key other)) (sortedKeys (set d key other)) :=
    List.forall₂_refl _
  rw [sortedValues, sortedValues, hkeys]
  apply List.rel_filterMap _ hsame
  rintro k _ rfl
  by_cases hk : k = key
  · rw [hk, get?_set_self, get?_set_self]
    exact .some h
  · rw [get?_set_of_ne hk, get?_set_of_ne hk]
    cases get? d k with
    | none => exact .none
    | some a => exact .some (hrefl a)

/-- A value outside of a selection only takes from it what it replaces. -/
theorem filter_sortedValues_set_sublist {p : α → Bool} (h : p value = false) :
    ((sortedValues (set d key value)).filter p).Sublist ((sortedValues d).filter p) := by
  have hnew : (sortedKeys (set d key value)).filterMap (fun k => (get? (set d key value) k).filter p) =
      ((sortedKeys (set d key value)).filter (· ≠ key)).filterMap fun k => (get? d k).filter p := by
    rw [List.filterMap_filter]
    apply List.filterMap_congr
    intro k _
    by_cases hk : k = key
    · simp [hk, h]
    · simp [hk, get?_set_of_ne hk]
  rw [sortedValues, sortedValues, List.filter_filterMap, List.filter_filterMap, hnew,
    filter_sortedKeys_set]
  exact List.filter_sublist.filterMap _

/-! ## Sums -/

section Sums

variable {β : Type*} [AddCommMonoid β]

/-- The sum of the weights of the values. -/
def total (w : α → β) (d : Dict α) : β := (d.map fun p => w p.2).sum

/-- A write replaces the weight of the old value. -/
theorem total_set (w : α → β) :
    total w (set d key value) + ((get? d key).map w).getD 0 = total w d + w value := by
  induction d with
  | nil => simp [set, total]
  | cons p d ih =>
      obtain ⟨k, v⟩ := p
      rw [set, get?_cons]
      split
      · show w value + total w d + w v = w v + total w d + w value
        rw [add_right_comm, add_comm (w value), add_right_comm]
      · show w v + total w (set d key value) + _ = w v + total w d + w value
        rw [add_assoc, ih, add_assoc]

end Sums

end Dict
