import NexusQuant.Lib.LiveMap

/-!
# Loops that are suspended in their body

A loop over a keyed collection that gives way to others in each round meets the collection as it is when
the round begins.  Whatever is added and deleted meanwhile, no entry is visited twice, and a key that has
been there throughout is visited exactly once before the loop ends.
-/

namespace LiveMap

variable {κ α : Type*}

/-- A loop between two rounds: the position it has come up to, the entries it has visited, and the keys
that have been there since it began. -/
structure Loop (κ : Type*) where
  pos : ℕ
  visited : List (ℕ × κ)
  throughout : List κ
deriving DecidableEq, Repr

namespace Loop

def start (m : LiveMap κ α) : Loop κ := ⟨0, [], m.cells.map Cell.key⟩

def visit (c : Cell κ α) (l : Loop κ) : Loop κ :=
  { l with pos := c.index + 1, visited := l.visited ++ [(c.index, c.key)] }

/-- The loop after a key was deleted. -/
def forget [DecidableEq κ] (key : κ) (l : Loop κ) : Loop κ :=
  { l with throughout := l.throughout.filter fun k => k ≠ key }

/-- How a loop stands to the collection it runs over. -/
structure Sound (m : LiveMap κ α) (l : Loop κ) : Prop where
  ordered : (l.visited.map Prod.fst).Pairwise (· < ·)
  behind : ∀ v ∈ l.visited, v.1 < l.pos
  present : ∀ key ∈ l.throughout, ∃ c ∈ m.cells, c.key = key ∧
    (c.index < l.pos → (c.index, key) ∈ l.visited)
  kept : ∀ v ∈ l.visited, v.2 ∈ l.throughout → ∃ c ∈ m.cells, c.index = v.1 ∧ c.key = v.2

variable {m : LiveMap κ α} {l : Loop κ}

theorem start_sound (m : LiveMap κ α) : (start m).Sound m where
  ordered := .nil
  behind := List.forall_mem_nil _
  present key hkey := by
    obtain ⟨c, hc, rfl⟩ := List.mem_map.mp hkey
    exact ⟨c, hc, rfl, fun hlt => absurd hlt (Nat.not_lt_zero _)⟩
  kept := List.forall_mem_nil _

/-- A round keeps a loop sound. -/
theorem Sound.visit (h : l.Sound m) {c : Cell κ α} (hc : m.nextCell l.pos = some c) :
    (l.visit c).Sound m := by
  have hpos : l.pos ≤ c.index := by
    unfold nextCell at hc
    simpa using List.find?_some hc
  refine ⟨?_, ?_, ?_, ?_⟩
  · show ((l.visited ++ [(c.index, c.key)]).map Prod.fst).Pairwise (· < ·)
    rw [List.map_append, List.pairwise_append]
    refine ⟨h.ordered, List.pairwise_singleton _ _, ?_⟩
    intro i hi j hj
    obtain ⟨v, hv, rfl⟩ := List.mem_map.mp hi
    have hlt := h.behind v hv
    obtain rfl : j = c.index := by simpa using hj
    omega
  · intro v hv
    show v.1 < c.index + 1
    rcases List.mem_append.mp hv with hv | hv
    · have hlt := h.behind v hv
      omega
    · rw [List.mem_singleton.mp hv]
      exact Nat.lt_succ_self _
  · intro key hkey
    obtain ⟨d, hd, hdkey, hseen⟩ := h.present key hkey
    refine ⟨d, hd, hdkey, fun hlt => ?_⟩
    have hlt' : d.index < c.index + 1 := hlt
    -- Up to the new position lie what lay behind the old one, and the entry of this round.
    by_cases hbefore : d.index < l.pos
    · exact List.mem_append_left _ (hseen hbefore)
    · rcases nextCell_first hc hd (Nat.le_of_not_lt hbefore) with rfl | hafter
      · rw [← hdkey]
        exact List.mem_append_right _ (List.mem_singleton_self _)
      · omega
  · intro v hv hthroughout
    rcases List.mem_append.mp hv with hv | hv
    · exact h.kept v hv hthroughout
    · rw [List.mem_singleton.mp hv]
      exact ⟨c, nextCell_mem hc, rfl, rfl⟩

/-- A write keeps it sound: no entry leaves its index. -/
theorem Sound.set [DecidableEq κ] (h : l.Sound m) (key : κ) (value : α) :
    l.Sound (m.set key value) where
  ordered := h.ordered
  behind := h.behind
  present k hk := by
    obtain ⟨c, hc, rfl, hseen⟩ := h.present k hk
    obtain ⟨d, hd, hdkey, hdindex⟩ := exists_cell_set hc
    exact ⟨d, hd, hdkey, by rw [hdindex]; exact hseen⟩
  kept v hv hthroughout := by
    obtain ⟨c, hc, hindex, hkey⟩ := h.kept v hv hthroughout
    obtain ⟨d, hd, hdkey, hdindex⟩ := exists_cell_set hc
    exact ⟨d, hd, hdindex.trans hindex, hdkey.trans hkey⟩

/-- So does a deletion: the deleted key has not been there throughout. -/
theorem Sound.erase [DecidableEq κ] (h : l.Sound m) (key : κ) : (l.forget key).Sound (m.erase key) where
  ordered := h.ordered
  behind := h.behind
  present k hk := by
    obtain ⟨hmem, hne⟩ := List.mem_filter.mp hk
    obtain ⟨c, hc, hkey, hseen⟩ := h.present k hmem
    refine ⟨c, mem_erase.mpr ⟨hc, ?_⟩, hkey, hseen⟩
    rw [hkey]
    exact of_decide_eq_true hne
  kept v hv hthroughout := by
    obtain ⟨hmem, hne⟩ := List.mem_filter.mp hthroughout
    obtain ⟨c, hc, hindex, hkey⟩ := h.kept v hv hmem
    refine ⟨c, mem_erase.mpr ⟨hc, ?_⟩, hindex, hkey⟩
    rw [hkey]
    exact of_decide_eq_true hne

theorem Sound.nodup_indices (h : l.Sound m) : (l.visited.map Prod.fst).Nodup :=
  h.ordered.imp fun hlt => Nat.ne_of_lt hlt

/-- When the loop ends, it has visited a key that has been there throughout exactly once. -/
theorem Sound.count_eq_one [DecidableEq κ] (h : l.Sound m) (hend : m.nextCell l.pos = none) {key : κ}
    (hkey : key ∈ l.throughout) : (l.visited.map Prod.snd).count key = 1 := by
  obtain ⟨c, hc, hckey, hseen⟩ := h.present key hkey
  have hvisited := hseen (nextCell_eq_none.mp hend c hc)
  -- Every visit of the key was to the one entry it has.
  have honly : ∀ v ∈ l.visited, v.2 = key ↔ v = (c.index, key) := by
    intro v hv
    constructor
    · intro hvkey
      obtain ⟨d, hd, hindex, hdkey⟩ := h.kept v hv (hvkey ▸ hkey)
      have hsame : d = c :=
        List.inj_on_of_nodup_map m.nodup hd hc (hdkey.trans (hvkey.trans hckey.symm))
      rw [← hsame, hindex, ← hvkey]
    · intro heq
      rw [heq]
  have hnodup : l.visited.Nodup := h.nodup_indices.of_map
  calc (l.visited.map Prod.snd).count key
      = l.visited.countP fun v => v.2 = key := by
        rw [List.count_eq_countP, List.countP_map]
        exact List.countP_congr fun v _ => by simp
    _ = l.visited.countP fun v => v = (c.index, key) := List.countP_congr fun v hv => by simp [honly v hv]
    _ = l.visited.count (c.index, key) := by
        rw [List.count_eq_countP]
        exact List.countP_congr fun v _ => by simp
    _ = 1 := List.count_eq_one_of_mem hnodup hvisited

end Loop

end LiveMap
