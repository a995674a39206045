import Mathlib.Data.List.Induction
import Mathlib.Data.List.Nodup

/-!
# Keyed collections iterated while they change

The `Map` and the `Set` of JavaScript keep their entries in the order of insertion, and a loop over
one of them sees what happens to it between two rounds: entries that are added come up, entries that
are deleted do not, and a key that is deleted and added again comes last.  An entry carries the index
it was inserted at; a loop is the index up to which it has come, and its next round is the first
entry from there on.
-/

namespace LiveMap

/-- An entry, with the number of insertions before it. -/
structure Cell (κ α : Type*) where
  index : ℕ
  key : κ
  value : α
deriving DecidableEq, Repr

end LiveMap

/-- Entries in the order of their indices, one for a key, all inserted before `next`. -/
structure LiveMap (κ α : Type*) where
  cells : List (LiveMap.Cell κ α)
  next : ℕ
  sorted : cells.Pairwise fun c d => c.index < d.index
  bounded : ∀ c ∈ cells, c.index < next
  nodup : (cells.map LiveMap.Cell.key).Nodup
deriving DecidableEq, Repr

namespace LiveMap

variable {κ α : Type*}

def empty : LiveMap κ α := ⟨[], 0, .nil, nofun, .nil⟩

/-! ## What a loop meets -/

section Loop

/-- The next round of a loop that has come up to index `pos`. -/
def nextCell (m : LiveMap κ α) (pos : ℕ) : Option (Cell κ α) := m.cells.find? fun c => pos ≤ c.index

variable {m : LiveMap κ α} {c : Cell κ α} {pos : ℕ}

theorem nextCell_eq_none : m.nextCell pos = none ↔ ∀ c ∈ m.cells, c.index < pos := by
  unfold nextCell
  rw [List.find?_eq_none]
  simp

theorem nextCell_mem (h : m.nextCell pos = some c) : c ∈ m.cells :=
  List.mem_of_find?_eq_some h

/-- Nothing between the position of a loop and its next entry is passed over. -/
theorem nextCell_first (h : m.nextCell pos = some c) {d : Cell κ α} (hd : d ∈ m.cells)
    (hpos : pos ≤ d.index) : d = c ∨ c.index < d.index := by
  obtain ⟨-, before, after, heq, hbefore⟩ := List.find?_eq_some_iff_append.mp h
  have hsorted := m.sorted
  rw [heq] at hsorted hd
  rcases List.mem_append.mp hd with hd | hd
  · have hlt := hbefore d hd
    simp at hlt
    omega
  · rcases List.mem_cons.mp hd with rfl | hd
    · exact .inl rfl
    · have hrest := (List.pairwise_append.mp hsorted).2.1
      exact .inr ((List.pairwise_cons.mp hrest).1 d hd)

/-- The next round of a loop that passes over the entries without `p`. -/
def nextWhere (p : α → Bool) (m : LiveMap κ α) (pos : ℕ) : Option (Cell κ α) :=
  m.cells.find? fun c => decide (pos ≤ c.index) && p c.value

variable {p : α → Bool}

theorem nextWhere_eq_none :
    m.nextWhere p pos = none ↔ ∀ c ∈ m.cells, pos ≤ c.index → p c.value = false := by
  unfold nextWhere
  rw [List.find?_eq_none]
  simp

theorem nextWhere_mem (h : m.nextWhere p pos = some c) : c ∈ m.cells :=
  List.mem_of_find?_eq_some h

/-- Nothing with `p` between the position of the loop and its next entry is passed over. -/
theorem nextWhere_first (h : m.nextWhere p pos = some c) {d : Cell κ α} (hd : d ∈ m.cells)
    (hpos : pos ≤ d.index) : p d.value = false ∨ d = c ∨ c.index < d.index := by
  obtain ⟨-, before, after, heq, hbefore⟩ := List.find?_eq_some_iff_append.mp h
  have hsorted := m.sorted
  rw [heq] at hsorted hd
  rcases List.mem_append.mp hd with hd | hd
  · have hnot := hbefore d hd
    refine .inl ?_
    simpa [hpos] using hnot
  · rcases List.mem_cons.mp hd with rfl | hd
    · exact .inr (.inl rfl)
    · have hrest := (List.pairwise_append.mp hsorted).2.1
      exact .inr (.inr ((List.pairwise_cons.mp hrest).1 d hd))

end Loop

/-! ## The operations -/

variable [DecidableEq κ]

def get? (m : LiveMap κ α) (key : κ) : Option α :=
  (m.cells.find? fun c => c.key = key).map Cell.value

def keys (m : LiveMap κ α) : List κ := m.cells.map Cell.key

def values (m : LiveMap κ α) : List α := m.cells.map Cell.value

/-- The entry with another value under its key. -/
def Cell.put (key : κ) (value : α) (c : Cell κ α) : Cell κ α :=
  if c.key = key then ⟨c.index, c.key, value⟩ else c

@[simp] theorem Cell.put_key (key : κ) (value : α) (c : Cell κ α) :
    (c.put key value).key = c.key := by
  unfold Cell.put
  split <;> rfl

@[simp] theorem Cell.put_index (key : κ) (value : α) (c : Cell κ α) :
    (c.put key value).index = c.index := by
  unfold Cell.put
  split <;> rfl

theorem map_put_key (key : κ) (value : α) (cells : List (Cell κ α)) :
    (cells.map (Cell.put key value)).map Cell.key = cells.map Cell.key := by
  rw [List.map_map]
  exact List.map_congr_left fun c _ => c.put_key key value

/-- A key that is there keeps its place; a new one comes last. -/
def set (m : LiveMap κ α) (key : κ) (value : α) : LiveMap κ α :=
  if hkey : key ∈ m.keys then
    { cells := m.cells.map (Cell.put key value)
      next := m.next
      sorted := by
        rw [List.pairwise_map]
        exact m.sorted.imp fun h => by simpa using h
      bounded := by
        intro c hc
        obtain ⟨d, hd, rfl⟩ := List.mem_map.mp hc
        rw [Cell.put_index]
        exact m.bounded d hd
      nodup := by
        rw [map_put_key]
        exact m.nodup }
  else
    { cells := m.cells ++ [⟨m.next, key, value⟩]
      next := m.next + 1
      sorted := by
        rw [List.pairwise_append]
        refine ⟨m.sorted, List.pairwise_singleton _ _, fun c hc d hd => ?_⟩
        rw [List.mem_singleton.mp hd]
        exact m.bounded c hc
      bounded := by
        intro c hc
        rcases List.mem_append.mp hc with hc | hc
        · exact Nat.lt_succ_of_lt (m.bounded c hc)
        · rw [List.mem_singleton.mp hc]
          exact Nat.lt_succ_self _
      nodup := by
        rw [List.map_append, List.nodup_append]
        refine ⟨m.nodup, List.nodup_singleton _, fun k hk l hl => ?_⟩
        rw [List.mem_singleton.mp hl]
        rintro rfl
        exact hkey hk }

def erase (m : LiveMap κ α) (key : κ) : LiveMap κ α where
  cells := m.cells.filter fun c => c.key ≠ key
  next := m.next
  sorted := m.sorted.filter _
  bounded c hc := m.bounded c (List.mem_of_mem_filter hc)
  nodup := m.nodup.sublist (List.filter_sublist.map _)

def clear (m : LiveMap κ α) : LiveMap κ α := ⟨[], m.next, .nil, nofun, .nil⟩

def size (m : LiveMap κ α) : ℕ := m.cells.length

/-- A loop that deletes every entry it meets whose value satisfies `p`. -/
def eraseWhere (p : α → Bool) (m : LiveMap κ α) : LiveMap κ α :=
  m.cells.foldl (fun m c => if p c.value then m.erase c.key else m) m

variable {m : LiveMap κ α} {key : κ} {value : α} {c : Cell κ α}

/-! ## What the operations do to the entries -/

theorem mem_set : c ∈ (m.set key value).cells ↔
    (c ∈ m.cells ∧ c.key ≠ key) ∨ (c.key = key ∧ c.value = value ∧
      ((∃ d ∈ m.cells, d.key = key ∧ d.index = c.index) ∨ (key ∉ m.keys ∧ c.index = m.next))) := by
  unfold set
  by_cases hkey : key ∈ m.keys
  · rw [dif_pos hkey, List.mem_map]
    constructor
    · rintro ⟨d, hd, rfl⟩
      by_cases hdk : d.key = key
      · refine .inr ⟨by rw [Cell.put_key, hdk], by rw [Cell.put, if_pos hdk], .inl ⟨d, hd, hdk, ?_⟩⟩
        rw [Cell.put_index]
      · rw [Cell.put, if_neg hdk]
        exact .inl ⟨hd, hdk⟩
    · rintro (⟨hc, hne⟩ | ⟨hk, hv, ⟨d, hd, hdk, hdi⟩ | ⟨hnot, -⟩⟩)
      · exact ⟨c, hc, by rw [Cell.put, if_neg hne]⟩
      · refine ⟨d, hd, ?_⟩
        rw [Cell.put, if_pos hdk, hdi, hdk, ← hk, ← hv]
      · exact absurd hkey hnot
  · rw [dif_neg hkey, List.mem_append, List.mem_singleton]
    constructor
    · rintro (hc | rfl)
      · exact .inl ⟨hc, fun heq => hkey (heq ▸ List.mem_map_of_mem hc)⟩
      · exact .inr ⟨rfl, rfl, .inr ⟨hkey, rfl⟩⟩
    · rintro (⟨hc, -⟩ | ⟨hk, hv, ⟨d, hd, hdk, -⟩ | ⟨-, hi⟩⟩)
      · exact .inl hc
      · exact absurd (hdk ▸ List.mem_map_of_mem hd) hkey
      · exact .inr (by rw [← hk, ← hv, ← hi])

theorem mem_erase : c ∈ (m.erase key).cells ↔ c ∈ m.cells ∧ c.key ≠ key := by
  show c ∈ m.cells.filter _ ↔ _
  rw [List.mem_filter, decide_eq_true_iff]

/-- A write leaves every entry at its index. -/
theorem exists_cell_set (hc : c ∈ m.cells) :
    ∃ d ∈ (m.set key value).cells, d.key = c.key ∧ d.index = c.index := by
  by_cases hkey : c.key = key
  · exact ⟨⟨c.index, key, value⟩, mem_set.mpr (.inr ⟨rfl, rfl, .inl ⟨c, hc, hkey, rfl⟩⟩), hkey.symm,
      rfl⟩
  · exact ⟨c, mem_set.mpr (.inl ⟨hc, hkey⟩), rfl, rfl⟩

/-! ## Reading by key -/

theorem get?_eq_some : m.get? key = some value ↔ ∃ c ∈ m.cells, c.key = key ∧ c.value = value := by
  unfold get?
  rw [Option.map_eq_some_iff]
  constructor
  · rintro ⟨c, hc, hvalue⟩
    have hkey := List.find?_some hc
    exact ⟨c, List.mem_of_find?_eq_some hc, by simpa using hkey, hvalue⟩
  · rintro ⟨c, hc, hkey, hvalue⟩
    cases hfind : m.cells.find? fun c => decide (c.key = key) with
    | none => exact absurd hkey (by simpa using List.find?_eq_none.mp hfind c hc)
    | some d =>
        -- A key has one entry, so the first one found is this one.
        have hdkey : d.key = key := by simpa using List.find?_some hfind
        have hsame := List.inj_on_of_nodup_map m.nodup (List.mem_of_find?_eq_some hfind) hc
          (hdkey.trans hkey.symm)
        exact ⟨d, rfl, by rw [hsame, hvalue]⟩

theorem get?_set (other : κ) :
    (m.set key value).get? other = if other = key then some value else m.get? other := by
  apply Option.ext
  intro v
  by_cases hkey : other = key
  · rw [if_pos hkey, get?_eq_some, hkey]
    constructor
    · rintro ⟨c, hc, hck, rfl⟩
      rcases mem_set.mp hc with ⟨-, hne⟩ | ⟨-, hv, -⟩
      · exact absurd hck hne
      · rw [hv]
    · intro hv
      rw [← Option.some.inj hv]
      by_cases hmem : key ∈ m.keys
      · obtain ⟨d, hd, hdk⟩ := List.mem_map.mp hmem
        exact ⟨⟨d.index, key, value⟩, mem_set.mpr (.inr ⟨rfl, rfl, .inl ⟨d, hd, hdk, rfl⟩⟩), rfl, rfl⟩
      · exact ⟨⟨m.next, key, value⟩, mem_set.mpr (.inr ⟨rfl, rfl, .inr ⟨hmem, rfl⟩⟩), rfl, rfl⟩
  · rw [if_neg hkey, get?_eq_some, get?_eq_some]
    constructor
    · rintro ⟨c, hc, hck, hv⟩
      rcases mem_set.mp hc with ⟨hold, -⟩ | ⟨hck', -⟩
      · exact ⟨c, hold, hck, hv⟩
      · exact absurd (hck.symm.trans hck') hkey
    · rintro ⟨c, hc, hck, hv⟩
      exact ⟨c, mem_set.mpr (.inl ⟨hc, fun h => hkey (hck.symm.trans h)⟩), hck, hv⟩

/-- What an entry is found to be: what was written, or what it was. -/
theorem get?_set_eq_some {other : κ} {v : α} :
    (m.set key value).get? other = some v ↔
      other = key ∧ v = value ∨ other ≠ key ∧ m.get? other = some v := by
  rw [get?_set]
  by_cases hkey : other = key
  · simp [hkey, eq_comm]
  · simp [hkey]

theorem get?_erase (other : κ) :
    (m.erase key).get? other = if other = key then none else m.get? other := by
  apply Option.ext
  intro v
  rw [get?_eq_some]
  by_cases hkey : other = key
  · rw [if_pos hkey]
    constructor
    · rintro ⟨c, hc, hck, -⟩
      exact absurd (hck.trans hkey) (mem_erase.mp hc).2
    · intro hv
      cases hv
  · rw [if_neg hkey, get?_eq_some]
    constructor
    · rintro ⟨c, hc, hck, hv⟩
      exact ⟨c, (mem_erase.mp hc).1, hck, hv⟩
    · rintro ⟨c, hc, hck, hv⟩
      exact ⟨c, mem_erase.mpr ⟨hc, fun h => hkey (hck.symm.trans h)⟩, hck, hv⟩

/-- After the loop the entries are those that it has not deleted. -/
theorem mem_eraseWhere {p : α → Bool} :
    c ∈ (m.eraseWhere p).cells ↔ c ∈ m.cells ∧ p c.value = false := by
  have hloop (l : List (Cell κ α)) (m : LiveMap κ α) :
      c ∈ (l.foldl (fun m d => if p d.value then m.erase d.key else m) m).cells ↔
        c ∈ m.cells ∧ ∀ d ∈ l, p d.value → d.key ≠ c.key := by
    induction l generalizing m with
    | nil => simp
    | cons d l ih =>
        rw [List.foldl_cons, ih]
        by_cases hp : p d.value
        · rw [if_pos hp, mem_erase, List.forall_mem_cons, and_assoc]
          apply and_congr_right
          exact fun _ => and_congr_left fun _ => ⟨fun h _ => h.symm, fun h => (h hp).symm⟩
        · simp [hp]
  unfold eraseWhere
  rw [hloop]
  apply and_congr_right
  intro hc
  constructor
  · intro h
    by_contra hp
    exact h c hc (by simpa using hp) rfl
  · intro hp d hd hpd hkey
    have hsame := List.inj_on_of_nodup_map m.nodup hd hc hkey
    rw [hsame, hp] at hpd
    cases hpd

theorem get?_eraseWhere {p : α → Bool} :
    (m.eraseWhere p).get? key = (m.get? key).filter fun v => !p v := by
  apply Option.ext
  intro v
  rw [get?_eq_some, Option.filter_eq_some_iff, get?_eq_some]
  constructor
  · rintro ⟨c, hc, hkey, hv⟩
    obtain ⟨hmem, hp⟩ := mem_eraseWhere.mp hc
    rw [hv] at hp
    exact ⟨⟨c, hmem, hkey, hv⟩, by simpa using hp⟩
  · rintro ⟨⟨c, hmem, hkey, hv⟩, hp⟩
    exact ⟨c, mem_eraseWhere.mpr ⟨hmem, by rw [hv]; simpa using hp⟩, hkey, hv⟩

theorem size_set_le : (m.set key value).size ≤ m.size + 1 := by
  unfold set size
  by_cases hkey : key ∈ m.keys
  · rw [dif_pos hkey, List.length_map]
    exact Nat.le_succ _
  · rw [dif_neg hkey]
    exact Nat.le_of_eq List.length_append

theorem size_set_of_get? {old : α} (h : m.get? key = some old) :
    (m.set key value).size = m.size := by
  obtain ⟨c, hc, hkey, -⟩ := get?_eq_some.mp h
  have hmem : key ∈ m.keys := hkey ▸ List.mem_map_of_mem hc
  unfold set size
  rw [dif_pos hmem, List.length_map]

theorem size_erase_le : (m.erase key).size ≤ m.size := List.length_filter_le _ _

/-- After writes in order a key holds what the last one for it wrote. -/
theorem get?_foldl_set {ι : Type*} (k : ι → κ) (v : ι → α) (l : List ι) (m : LiveMap κ α) :
    (l.foldl (fun m a => m.set (k a) (v a)) m).get? key =
      ((l.reverse.find? fun a => k a = key).map v).or (m.get? key) := by
  induction l using List.reverseRecOn with
  | nil => rfl
  | append_singleton l a ih =>
      rw [List.foldl_append, List.foldl_cons, List.foldl_nil, get?_set, ih, List.reverse_append,
        List.reverse_singleton, List.singleton_append, List.find?_cons]
      by_cases hkey : key = k a
      · simp [hkey]
      · simp [hkey, Ne.symm hkey]

theorem set_of_not_mem (h : key ∉ m.keys) :
    (m.set key value).keys = m.keys ++ [key] ∧ (m.set key value).values = m.values ++ [value] := by
  unfold set
  rw [dif_neg h]
  exact ⟨List.map_append, List.map_append⟩

/-- A write trades the old value for the new one. -/
theorem perm_values_set {old : α} (h : m.get? key = some old) :
    (old :: (m.set key value).values).Perm (value :: m.values) := by
  obtain ⟨c, hc, rfl, rfl⟩ := get?_eq_some.mp h
  have hput : ∀ cells : List (Cell κ α), (cells.map Cell.key).Nodup → c ∈ cells →
      (c.value :: (cells.map (Cell.put c.key value)).map Cell.value).Perm
        (value :: cells.map Cell.value) := by
    intro cells hnodup hmem
    induction cells with
    | nil => cases hmem
    | cons d cells ih =>
        obtain ⟨hnotin, hrest⟩ := List.nodup_cons.mp hnodup
        rcases List.mem_cons.mp hmem with rfl | hmem
        · have hsame : cells.map (Cell.put c.key value) = cells := by
            conv_rhs => rw [← List.map_id cells]
            apply List.map_congr_left
            intro e he
            show Cell.put c.key value e = e
            rw [Cell.put, if_neg]
            intro heq
            exact hnotin (heq ▸ List.mem_map_of_mem he)
          have hhead : (Cell.put c.key value c).value = value := by rw [Cell.put, if_pos rfl]
          rw [List.map_cons, List.map_cons, List.map_cons, hsame, hhead]
          exact List.Perm.swap _ _ _
        · have hhead : Cell.put c.key value d = d := by
            rw [Cell.put, if_neg]
            intro heq
            exact hnotin (heq ▸ List.mem_map_of_mem hmem)
          rw [List.map_cons, List.map_cons, List.map_cons, hhead]
          exact (List.Perm.swap _ _ _).trans
            (((ih hrest hmem).cons d.value).trans (List.Perm.swap _ _ _))
  have hkey : c.key ∈ m.keys := List.mem_map_of_mem hc
  unfold set
  rw [dif_pos hkey]
  exact hput m.cells m.nodup hc

/-- Writes to distinct new keys stand in their order. -/
theorem values_foldl_set {ι : Type*} {k : ι → κ} {v : ι → α} {l : List ι} {m : LiveMap κ α}
    (hnodup : (l.map k).Nodup) (hnew : ∀ a ∈ l, k a ∉ m.keys) :
    (l.foldl (fun m a => m.set (k a) (v a)) m).values = m.values ++ l.map v := by
  induction l generalizing m with
  | nil => exact (List.append_nil _).symm
  | cons a l ih =>
      obtain ⟨hnotin, hrest⟩ := List.nodup_cons.mp hnodup
      obtain ⟨hkeys, hvalues⟩ := @set_of_not_mem _ _ _ m (k a) (v a) (hnew a List.mem_cons_self)
      have hlater : ∀ b ∈ l, k b ∉ (m.set (k a) (v a)).keys := by
        intro b hb hmem
        rw [hkeys] at hmem
        rcases List.mem_append.mp hmem with hold | hone
        · exact hnew b (List.mem_cons_of_mem a hb) hold
        · rw [← List.mem_singleton.mp hone] at hnotin
          exact hnotin (List.mem_map_of_mem hb)
      show (List.foldl _ (m.set (k a) (v a)) l).values = _
      rw [ih hrest hlater, hvalues, List.append_assoc]
      rfl

/-! ## Changing every value -/

section MapValues

variable {β : Type*} {f : α → β}

def mapValues {κ : Type*} (f : α → β) (m : LiveMap κ α) : LiveMap κ β where
  cells := m.cells.map fun c => ⟨c.index, c.key, f c.value⟩
  next := m.next
  sorted := List.pairwise_map.mpr m.sorted
  bounded c hc := by
    obtain ⟨d, hd, rfl⟩ := List.mem_map.mp hc
    exact m.bounded d hd
  nodup := by
    rw [List.map_map]
    exact m.nodup

theorem keys_mapValues {κ : Type*} {m : LiveMap κ α} : (m.mapValues f).keys = m.keys := List.map_map

theorem ext_cells {κ : Type*} {m n : LiveMap κ α} (hcells : m.cells = n.cells) (hnext : m.next = n.next) :
    m = n := by
  cases m
  cases n
  cases hcells
  cases hnext
  rfl

theorem mapValues_set : (m.set key value).mapValues f = (m.mapValues f).set key (f value) := by
  unfold set
  by_cases hkey : key ∈ m.keys
  · rw [dif_pos hkey, dif_pos (by rw [keys_mapValues]; exact hkey)]
    refine ext_cells ?_ rfl
    show (m.cells.map _).map _ = (m.cells.map _).map _
    rw [List.map_map, List.map_map]
    apply List.map_congr_left
    intro c _
    show LiveMap.Cell.mk _ _ _ = Cell.put key (f value) _
    unfold Cell.put
    by_cases hc : c.key = key
    · simp [hc]
    · simp [hc]
  · rw [dif_neg hkey, dif_neg (by rw [keys_mapValues]; exact hkey)]
    refine ext_cells ?_ rfl
    show (m.cells ++ [_]).map _ = m.cells.map _ ++ [_]
    rw [List.map_append]
    rfl

theorem get?_mapValues : (m.mapValues f).get? key = (m.get? key).map f := by
  apply Option.ext
  intro v
  rw [get?_eq_some, Option.map_eq_some_iff]
  constructor
  · rintro ⟨c, hc, hkey, rfl⟩
    obtain ⟨d, hd, rfl⟩ := List.mem_map.mp hc
    exact ⟨d.value, get?_eq_some.mpr ⟨d, hd, hkey, rfl⟩, rfl⟩
  · rintro ⟨w, hw, rfl⟩
    obtain ⟨d, hd, hkey, rfl⟩ := get?_eq_some.mp hw
    exact ⟨_, List.mem_map_of_mem hd, hkey, rfl⟩

end MapValues

end LiveMap
