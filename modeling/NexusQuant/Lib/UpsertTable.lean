import Mathlib.Data.List.Nodup

/-!
# Tables written by upserts

A table has a primary id and a unique key, and nobody deletes from it.  An upsert inserts its row where
the key is free, and updates the row that has the key otherwise; an insert whose id is taken fails.  An
update changes neither the id nor the key, so a row that is there stays, under both of its names.
-/

variable {ι κ ρ : Type*}

structure UpsertTable (id : ρ → ι) (key : ρ → κ) where
  rows : List ρ
  nodup_ids : (rows.map id).Nodup
  nodup_keys : (rows.map key).Nodup

namespace UpsertTable

/-- An update changes neither name of a row. -/
structure Keeps (id : ρ → ι) (key : ρ → κ) (f : ρ → ρ) : Prop where
  id : ∀ r, id (f r) = id r
  key : ∀ r, key (f r) = key r

variable {id : ρ → ι} {key : ρ → κ}

def empty : UpsertTable id key := ⟨[], List.nodup_nil, List.nodup_nil⟩

theorem eq_of_id {t : UpsertTable id key} {r r' : ρ} (h : r ∈ t.rows) (h' : r' ∈ t.rows)
    (hid : id r = id r') : r = r' :=
  List.inj_on_of_nodup_map t.nodup_ids h h' hid

theorem eq_of_key {t : UpsertTable id key} {r r' : ρ} (h : r ∈ t.rows) (h' : r' ∈ t.rows)
    (hkey : key r = key r') : r = r' :=
  List.inj_on_of_nodup_map t.nodup_keys h h' hkey

def withKey [DecidableEq κ] (t : UpsertTable id key) (k : κ) : Option ρ :=
  t.rows.find? fun r => key r = k

theorem map_update [DecidableEq κ] {β : Type*} {g : ρ → β} {f : ρ → ρ}
    (hf : ∀ r, g (f r) = g r) (k : κ) (rows : List ρ) :
    (rows.map fun r => if key r = k then f r else r).map g = rows.map g := by
  rw [List.map_map]
  apply List.map_congr_left
  intro r _
  show g (if key r = k then f r else r) = g r
  split
  · exact hf r
  · rfl

/-- `INSERT … ON CONFLICT (key) DO UPDATE`. -/
def upsert [DecidableEq ι] [DecidableEq κ] (t : UpsertTable id key) (new : ρ) (f : ρ → ρ)
    (hf : Keeps id key f) : Option (UpsertTable id key) :=
  if hkey : key new ∈ t.rows.map key then
    some
      { rows := t.rows.map fun r => if key r = key new then f r else r
        nodup_ids := by
          rw [map_update hf.id]
          exact t.nodup_ids
        nodup_keys := by
          rw [map_update hf.key]
          exact t.nodup_keys }
  else if hid : id new ∈ t.rows.map id then none
  else
    some
      { rows := t.rows ++ [new]
        nodup_ids := by
          rw [List.map_append]
          exact List.Nodup.append t.nodup_ids (List.nodup_singleton _) (by simpa using hid)
        nodup_keys := by
          rw [List.map_append]
          exact List.Nodup.append t.nodup_keys (List.nodup_singleton _) (by simpa using hkey) }

theorem withKey_eq_some [DecidableEq κ] {t : UpsertTable id key} {r : ρ} {k : κ} :
    t.withKey k = some r ↔ r ∈ t.rows ∧ key r = k := by
  constructor
  · intro h
    exact ⟨List.mem_of_find?_eq_some h, by simpa using List.find?_some h⟩
  · rintro ⟨hr, rfl⟩
    cases hfound : t.withKey (key r) with
    | none => simpa using List.find?_eq_none.mp hfound r hr
    | some other =>
        have hkey : key other = key r := by simpa using List.find?_some hfound
        rw [eq_of_key (List.mem_of_find?_eq_some hfound) hr hkey]

variable [DecidableEq ι] [DecidableEq κ] {t t' : UpsertTable id key} {new r : ρ} {f : ρ → ρ}
  {hf : Keeps id key f}

/-- Where a row of the table comes from after an upsert. -/
theorem mem_of_upsert (h : t.upsert new f hf = some t') (hr : r ∈ t'.rows) :
    r ∈ t.rows ∨ r = new ∨ ∃ old ∈ t.rows, key old = key new ∧ r = f old := by
  unfold upsert at h
  split at h
  · cases h
    obtain ⟨old, hold, rfl⟩ := List.mem_map.mp hr
    split
    · rename_i hkey
      exact .inr (.inr ⟨old, hold, hkey, rfl⟩)
    · exact .inl hold
  · split at h
    · cases h
    · cases h
      rcases List.mem_append.mp hr with hr | hr
      · exact .inl hr
      · exact .inr (.inl (List.mem_singleton.mp hr))

/-- A row that is there is there after an upsert, as it was or updated. -/
theorem upsert_of_mem (h : t.upsert new f hf = some t') (hr : r ∈ t.rows) :
    (if key r = key new then f r else r) ∈ t'.rows := by
  unfold upsert at h
  split at h
  · cases h
    exact List.mem_map.mpr ⟨r, hr, rfl⟩
  · rename_i hkey
    split at h
    · cases h
    · cases h
      have hne : key r ≠ key new := fun heq => hkey (heq ▸ List.mem_map_of_mem hr)
      rw [if_neg hne]
      exact List.mem_append_left _ hr

/-- Both names of a row outlive an upsert, with whatever an update does not touch. -/
theorem exists_same_of_upsert {β : Type*} {g : ρ → β} (h : t.upsert new f hf = some t')
    (hg : ∀ r, g (f r) = g r) (hr : r ∈ t.rows) :
    ∃ r' ∈ t'.rows, id r' = id r ∧ key r' = key r ∧ g r' = g r := by
  refine ⟨_, upsert_of_mem h hr, ?_⟩
  split
  · exact ⟨hf.id r, hf.key r, hg r⟩
  · exact ⟨rfl, rfl, rfl⟩

end UpsertTable
