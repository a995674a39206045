import Mathlib.Data.List.Nodup

/-!
# Tables with a partial unique index

A table numbers its rows as they are created, and has a unique index on some of them: `key` is what
the index reads off a row, nothing off a row it leaves out.  A row whose key is taken is not created.
An update may take rows out of the index; it neither changes a key nor gives one.
-/

variable {ρ κ : Type*}

structure IndexedTable (id : ρ → ℕ) (key : ρ → Option κ) where
  rows : List ρ
  next : ℕ
  numbered : ∀ r ∈ rows, id r < next
  primary : (rows.map id).Nodup
  unique : (rows.filterMap key).Nodup

namespace IndexedTable

variable {id : ρ → ℕ} {key : ρ → Option κ}

def empty : IndexedTable id key := ⟨[], 0, nofun, List.nodup_nil, List.nodup_nil⟩

/-- The keys that are taken. -/
def keys (t : IndexedTable id key) : List κ := t.rows.filterMap key

/-- What an update does to a row. -/
structure Keeps (id : ρ → ℕ) (key : ρ → Option κ) (f : ρ → ρ) : Prop where
  id : ∀ r, id (f r) = id r
  key : ∀ r, key (f r) = key r ∨ key (f r) = none

/-! ## Updates -/

section Update

variable {p : ρ → Bool} {f : ρ → ρ}

theorem filterMap_update_sublist (hkey : ∀ r, key (f r) = key r ∨ key (f r) = none)
    (rows : List ρ) :
    ((rows.map fun r => if p r then f r else r).filterMap key).Sublist (rows.filterMap key) := by
  induction rows with
  | nil => exact List.Sublist.slnil
  | cons r rows ih =>
      rw [List.map_cons]
      by_cases hp : p r = true
      · rw [if_pos hp]
        rcases hkey r with hsame | hnone
        · cases hr : key r with
          | none =>
              rw [List.filterMap_cons_none (hsame.trans hr), List.filterMap_cons_none hr]
              exact ih
          | some k =>
              rw [List.filterMap_cons_some (hsame.trans hr), List.filterMap_cons_some hr]
              exact ih.cons_cons k
        · rw [List.filterMap_cons_none hnone]
          apply ih.trans
          exact (List.sublist_cons_self r rows).filterMap key
      · rw [if_neg hp]
        cases hr : key r with
        | none =>
            rw [List.filterMap_cons_none hr, List.filterMap_cons_none hr]
            exact ih
        | some k =>
            rw [List.filterMap_cons_some hr, List.filterMap_cons_some hr]
            exact ih.cons_cons k

theorem map_update_id (hid : ∀ r, id (f r) = id r) (rows : List ρ) :
    (rows.map fun r => if p r then f r else r).map id = rows.map id := by
  rw [List.map_map]
  apply List.map_congr_left
  intro r _
  show id (if p r then f r else r) = id r
  split
  · exact hid r
  · rfl

def updateMany (t : IndexedTable id key) (p : ρ → Bool) (f : ρ → ρ) (hf : Keeps id key f) :
    IndexedTable id key where
  rows := t.rows.map fun r => if p r then f r else r
  next := t.next
  numbered := by
    intro r hr
    have hmem : id r ∈ t.rows.map id := by
      rw [← map_update_id hf.id t.rows]
      exact List.mem_map_of_mem hr
    obtain ⟨r', hr', hid⟩ := List.mem_map.mp hmem
    rw [← hid]
    exact t.numbered r' hr'
  primary := by
    rw [map_update_id hf.id]
    exact t.primary
  unique := t.unique.sublist (filterMap_update_sublist hf.key t.rows)

end Update

/-! ## Creation -/

/-- The row made from the next number, unless the index refuses it. -/
def create [DecidableEq κ] (t : IndexedTable id key) (make : ℕ → ρ) (hmake : ∀ n, id (make n) = n) :
    Option (IndexedTable id key) :=
  if h : ((t.rows ++ [make t.next]).filterMap key).Nodup then
    some {
      rows := t.rows ++ [make t.next]
      next := t.next + 1
      numbered := by
        intro r hr
        rcases List.mem_append.mp hr with hold | hnew
        · exact Nat.lt_succ_of_lt (t.numbered r hold)
        · rw [List.mem_singleton.mp hnew, hmake]
          exact Nat.lt_succ_self t.next
      primary := by
        rw [List.map_append]
        apply t.primary.append (List.nodup_singleton _)
        intro n hold hnew
        obtain ⟨r, hr, rfl⟩ := List.mem_map.mp hold
        have hlt := t.numbered r hr
        rw [List.mem_singleton.mp hnew, hmake] at hlt
        exact Nat.lt_irrefl t.next hlt
      unique := h }
  else none

/-! ## What the operations leave -/

section Lemmas

variable {t t' : IndexedTable id key} {p : ρ → Bool} {f : ρ → ρ} {hf : Keeps id key f} {r : ρ} {k : κ}
  {make : ℕ → ρ} {hmake : ∀ n, id (make n) = n}

theorem mem_keys : k ∈ t.keys ↔ ∃ r ∈ t.rows, key r = some k := List.mem_filterMap

/-- The primary key tells a row. -/
theorem eq_of_id {r' : ρ} (h : r ∈ t.rows) (h' : r' ∈ t.rows) (hid : id r = id r') : r = r' :=
  List.inj_on_of_nodup_map t.primary h h' hid

theorem mem_updateMany : r ∈ (t.updateMany p f hf).rows ↔
    (∃ r' ∈ t.rows, p r' = true ∧ f r' = r) ∨ (r ∈ t.rows ∧ p r = false) := by
  show r ∈ t.rows.map _ ↔ _
  rw [List.mem_map]
  constructor
  · intro ⟨r', hr', heq⟩
    by_cases hp : p r' = true
    · rw [if_pos hp] at heq
      exact .inl ⟨r', hr', hp, heq⟩
    · rw [if_neg hp] at heq
      exact .inr ⟨heq ▸ hr', heq ▸ Bool.eq_false_iff.mpr hp⟩
  · rintro (⟨r', hr', hp, heq⟩ | ⟨hr, hp⟩)
    · exact ⟨r', hr', (if_pos hp).trans heq⟩
    · exact ⟨r, hr, if_neg (Bool.eq_false_iff.mp hp)⟩

theorem keys_updateMany (hkey : ∀ r, key (f r) = key r) : (t.updateMany p f hf).keys = t.keys := by
  show (t.rows.map _).filterMap key = t.rows.filterMap key
  rw [List.filterMap_map]
  apply List.filterMap_congr
  intro r _
  show key (if p r then f r else r) = key r
  split
  · exact hkey r
  · rfl

variable [DecidableEq κ]

theorem create_eq_some (h : t.create make hmake = some t') :
    t'.rows = t.rows ++ [make t.next] ∧ t'.next = t.next + 1 := by
  unfold create at h
  split at h
  · cases h
    exact ⟨rfl, rfl⟩
  · cases h

theorem mem_keys_create (h : t.create make hmake = some t') :
    k ∈ t'.keys ↔ k ∈ t.keys ∨ key (make t.next) = some k := by
  unfold keys
  rw [(create_eq_some h).1, List.filterMap_append, List.mem_append]
  simp

/-- A key that is taken is not given again. -/
theorem not_mem_keys_of_create (h : t.create make hmake = some t') (hkey : key (make t.next) = some k) :
    k ∉ t.keys := by
  intro hmem
  have hunique := t'.unique
  rw [(create_eq_some h).1, List.filterMap_append, List.filterMap_cons_some hkey] at hunique
  exact (List.nodup_append.mp hunique).2.2 k hmem k List.mem_cons_self rfl

/-- A row is refused for its key only. -/
theorem mem_keys_of_create_eq_none (h : t.create make hmake = none) (hkey : key (make t.next) = some k) :
    k ∈ t.keys := by
  unfold create at h
  split at h
  · cases h
  · rename_i hnot
    by_contra hfree
    apply hnot
    rw [List.filterMap_append, List.filterMap_cons_some hkey, List.filterMap_nil]
    apply t.unique.append (List.nodup_singleton k)
    intro k' hold hnew
    rw [List.mem_singleton.mp hnew] at hold
    exact hfree hold

end Lemmas

end IndexedTable
