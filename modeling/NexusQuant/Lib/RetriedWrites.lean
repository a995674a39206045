import NexusQuant.Lib.LiveMap
import NexusQuant.Lib.Run

/-!
# Writes that are retried

Calls write rows to one table, a call in batches of which each is committed as a whole.  A call may fail
between two batches and be made again from its start, also when it has come to its end before, and the
calls are interleaved in any way.  A row of a kept key is written only where there is none, any other
row in any case.  Where all calls agree on the row of a key, the table is the same in the end whatever
has failed in between, and every new row was reported once.
-/

namespace RetriedWrites

open Run

variable {κ ν : Type*} [DecidableEq κ]

/-- What a call is to write, in batches. -/
abbrev Call (κ ν : Type*) := List (List (κ × ν))

structure Writers (κ ν : Type*) where
  table : LiveMap κ ν
  /-- The next batch of each call. -/
  cursors : List ℕ
  /-- The calls that have come to their end. -/
  ended : List ℕ
  /-- The rows that were reported as new, of those that are kept. -/
  inserted : ℕ

inductive Event where
  | advance (call : ℕ)
  | restart (call : ℕ)
deriving DecidableEq, Repr

/-- Whether a row of the key is there already, and stays. -/
def taken (kept : κ → Bool) (table : LiveMap κ ν) (key : κ) : Bool :=
  kept key && (table.get? key).isSome

def write (kept : κ → Bool) (table : LiveMap κ ν) (row : κ × ν) : LiveMap κ ν :=
  if taken kept table row.1 then table else table.set row.1 row.2

def commit (kept : κ → Bool) (table : LiveMap κ ν) (batch : List (κ × ν)) : LiveMap κ ν :=
  batch.foldl (write kept) table

/-- The kept rows of a batch that are new. -/
def newRows (kept : κ → Bool) : LiveMap κ ν → List (κ × ν) → ℕ
  | _, [] => 0
  | table, row :: rows =>
      (if kept row.1 && (table.get? row.1).isNone then 1 else 0) + newRows kept (write kept table row) rows

def keptKeys (kept : κ → Bool) (table : LiveMap κ ν) : ℕ := table.keys.countP kept

/-- A call advances by a batch, or returns. -/
def step (kept : κ → Bool) (calls : List (Call κ ν)) (s : Writers κ ν) : Event → Writers κ ν
  | .advance i =>
      match calls[i]?, s.cursors[i]? with
      | some batches, some pos =>
          match batches[pos]? with
          | some batch =>
              { s with
                table := commit kept s.table batch
                cursors := s.cursors.set i (pos + 1)
                inserted := s.inserted + newRows kept s.table batch }
          | none => { s with ended := s.ended ++ [i] }
      | _, _ => s
  | .restart i => { s with cursors := s.cursors.set i 0 }

def begin (calls : List (Call κ ν)) (table : LiveMap κ ν) : Writers κ ν :=
  ⟨table, calls.map fun _ => 0, [], 0⟩

/-! ## What is to come of it -/

def rowsOf (calls : List (Call κ ν)) : List (κ × ν) := (calls.map List.flatten).flatten

/-- No two calls, and no two rows of a call, write different values under one key. -/
def Agreeing (calls : List (Call κ ν)) : Prop :=
  ∀ key v v', (key, v) ∈ rowsOf calls → (key, v') ∈ rowsOf calls → v = v'

/-- What a key holds in the end. -/
def outcome (kept : κ → Bool) (table : LiveMap κ ν) (calls : List (Call κ ν)) (key : κ) : Option ν :=
  match (rowsOf calls).lookup key with
  | none => table.get? key
  | some v => some (if kept key then (table.get? key).getD v else v)

/-! ## One write -/

section Write

variable {kept : κ → Bool} {table start : LiveMap κ ν} {calls : List (Call κ ν)} {row : κ × ν} {key : κ}
  {v : ν}

/-- What a key holds once its row has been written. -/
def Written (kept : κ → Bool) (start table : LiveMap κ ν) (row : κ × ν) : Prop :=
  table.get? row.1 = some (if kept row.1 then (start.get? row.1).getD row.2 else row.2)

/-- What a key holds: what it held, or what some row wrote. -/
def Explained (kept : κ → Bool) (start : LiveMap κ ν) (calls : List (Call κ ν)) (table : LiveMap κ ν)
    (key : κ) : Prop :=
  table.get? key = start.get? key ∨ ∃ v, (key, v) ∈ rowsOf calls ∧ Written kept start table (key, v)

theorem get?_write (table : LiveMap κ ν) (row : κ × ν) (other : κ) :
    (write kept table row).get? other =
      if other = row.1 ∧ taken kept table row.1 = false then some row.2 else table.get? other := by
  unfold write
  cases htaken : taken kept table row.1 with
  | true => simp
  | false =>
      rw [if_neg Bool.false_ne_true, LiveMap.get?_set]
      simp

/-- A kept row gives way to none, any other to the row that is written. -/
theorem written_write_self (hexplained : Explained kept start calls table row.1)
    (hagree : Agreeing calls) (hrow : row ∈ rowsOf calls) :
    Written kept start (write kept table row) row := by
  unfold Written
  rw [get?_write]
  by_cases hkept : kept row.1 = true
  · rw [if_pos hkept]
    rcases hexplained with hsame | ⟨v, hv, hwritten⟩
    · cases hstart : start.get? row.1 with
      | none => simp [taken, hsame, hstart]
      | some old => simp [taken, hkept, hsame, hstart]
    · have hvalue : v = row.2 := hagree row.1 v row.2 hv hrow
      have hthere : table.get? row.1 = some ((start.get? row.1).getD row.2) := by
        rw [← hvalue]
        simpa [Written, hkept] using hwritten
      simp [taken, hkept, hthere]
  · simp [taken, hkept]

/-- A row that has been written stays, whatever is written after it. -/
theorem written_write (h : Written kept start table (key, v)) (hv : (key, v) ∈ rowsOf calls)
    (hagree : Agreeing calls) (hrow : row ∈ rowsOf calls) :
    Written kept start (write kept table row) (key, v) := by
  unfold Written at h ⊢
  rw [get?_write]
  split
  · rename_i hsame
    obtain ⟨rfl, hfree⟩ := hsame
    have hvalue : v = row.2 := hagree row.1 v row.2 hv hrow
    have hkept : ¬kept row.1 = true := by
      intro hkept
      simp [taken, hkept, h] at hfree
    rw [if_neg hkept, hvalue]
  · exact h

theorem explained_write (h : ∀ key, Explained kept start calls table key) (hagree : Agreeing calls)
    (hrow : row ∈ rowsOf calls) (key : κ) : Explained kept start calls (write kept table row) key := by
  by_cases hkey : key = row.1
  · subst hkey
    exact .inr ⟨row.2, hrow, written_write_self (h row.1) hagree hrow⟩
  · have hother : (write kept table row).get? key = table.get? key := by
      rw [get?_write, if_neg fun hsame => hkey hsame.1]
    rcases h key with hsame | ⟨v, hv, hwritten⟩
    · exact .inl (hother.trans hsame)
    · exact .inr ⟨v, hv, written_write hwritten hv hagree hrow⟩

theorem mem_keys_iff {table : LiveMap κ ν} : key ∈ table.keys ↔ (table.get? key).isSome := by
  rw [Option.isSome_iff_exists]
  constructor
  · intro hkey
    obtain ⟨c, hc, rfl⟩ := List.mem_map.mp hkey
    exact ⟨c.value, LiveMap.get?_eq_some.mpr ⟨c, hc, rfl, rfl⟩⟩
  · rintro ⟨v, hv⟩
    obtain ⟨c, hc, rfl, -⟩ := LiveMap.get?_eq_some.mp hv
    exact List.mem_map_of_mem hc

/-- A write adds its key where that is new. -/
theorem keptKeys_write (table : LiveMap κ ν) (row : κ × ν) :
    keptKeys kept (write kept table row) = keptKeys kept table +
      (if kept row.1 && (table.get? row.1).isNone then 1 else 0) := by
  unfold write keptKeys
  by_cases hmem : row.1 ∈ table.keys
  · have hthere := mem_keys_iff.mp hmem
    have hsame : (table.set row.1 row.2).keys = table.keys := by
      unfold LiveMap.set
      rw [dif_pos hmem]
      exact LiveMap.map_put_key row.1 row.2 table.cells
    cases hvalue : table.get? row.1 with
    | none =>
        rw [hvalue] at hthere
        cases hthere
    | some old =>
        split
        · simp
        · rw [hsame]
          simp
  · have hnone : table.get? row.1 = none := by
      by_contra hsome
      exact hmem (mem_keys_iff.mpr (Option.isSome_iff_ne_none.mpr hsome))
    have hfree : taken kept table row.1 = false := by simp [taken, hnone]
    rw [hfree, if_neg Bool.false_ne_true, (LiveMap.set_of_not_mem hmem).1, List.countP_append, hnone]
    simp [List.countP_singleton]

end Write

/-! ## Batches -/

section Batch

variable {kept : κ → Bool} {table start : LiveMap κ ν} {calls : List (Call κ ν)} {batch : List (κ × ν)}

theorem explained_commit (h : ∀ key, Explained kept start calls table key) (hagree : Agreeing calls)
    (hbatch : ∀ row ∈ batch, row ∈ rowsOf calls) :
    ∀ key, Explained kept start calls (commit kept table batch) key := by
  induction batch generalizing table with
  | nil => exact h
  | cons row batch ih =>
      have hrow : row ∈ rowsOf calls := hbatch row List.mem_cons_self
      exact ih (explained_write h hagree hrow) fun r hr => hbatch r (List.mem_cons_of_mem _ hr)

theorem written_commit {row : κ × ν} (h : Written kept start table row) (hrow : row ∈ rowsOf calls)
    (hagree : Agreeing calls) (hbatch : ∀ r ∈ batch, r ∈ rowsOf calls) :
    Written kept start (commit kept table batch) row := by
  induction batch generalizing table with
  | nil => exact h
  | cons first batch ih =>
      have hfirst : first ∈ rowsOf calls := hbatch first List.mem_cons_self
      exact ih (written_write h hrow hagree hfirst) fun r hr => hbatch r (List.mem_cons_of_mem _ hr)

theorem written_of_mem_batch (h : ∀ key, Explained kept start calls table key) (hagree : Agreeing calls)
    (hbatch : ∀ row ∈ batch, row ∈ rowsOf calls) :
    ∀ row ∈ batch, Written kept start (commit kept table batch) row := by
  induction batch generalizing table with
  | nil => exact fun row hrow => nomatch hrow
  | cons first batch ih =>
      have hfirst : first ∈ rowsOf calls := hbatch first List.mem_cons_self
      have hrest : ∀ r ∈ batch, r ∈ rowsOf calls := fun r hr => hbatch r (List.mem_cons_of_mem _ hr)
      intro row hrow
      rcases List.mem_cons.mp hrow with rfl | hrow
      · show Written kept start (commit kept (write kept table row) batch) row
        exact written_commit (written_write_self (h row.1) hagree hfirst) hfirst hagree hrest
      · exact ih (explained_write h hagree hfirst) hrest row hrow

theorem keptKeys_commit (table : LiveMap κ ν) (batch : List (κ × ν)) :
    keptKeys kept (commit kept table batch) = keptKeys kept table + newRows kept table batch := by
  induction batch generalizing table with
  | nil => rfl
  | cons row batch ih =>
      show keptKeys kept (commit kept (write kept table row) batch) = _
      rw [ih, keptKeys_write, newRows, Nat.add_assoc]

end Batch

/-! ## Runs -/

section Runs

variable {kept : κ → Bool} {start : LiveMap κ ν} {calls : List (Call κ ν)} {s : Writers κ ν}

structure Writers.Sound (kept : κ → Bool) (start : LiveMap κ ν) (calls : List (Call κ ν))
    (s : Writers κ ν) : Prop where
  explained : ∀ key, Explained kept start calls s.table key
  past : ∀ (i : ℕ) (batches : Call κ ν) (pos : ℕ), calls[i]? = some batches →
    s.cursors[i]? = some pos → ∀ row ∈ (batches.take pos).flatten, Written kept start s.table row
  ended : ∀ i ∈ s.ended, ∀ batches : Call κ ν, calls[i]? = some batches →
    ∀ row ∈ batches.flatten, Written kept start s.table row
  counted : keptKeys kept s.table = keptKeys kept start + s.inserted

omit [DecidableEq κ] in
theorem mem_rowsOf {i : ℕ} {batches : Call κ ν} (hcall : calls[i]? = some batches) {row : κ × ν}
    (hrow : row ∈ batches.flatten) : row ∈ rowsOf calls := by
  unfold rowsOf
  exact List.mem_flatten.mpr ⟨batches.flatten, List.mem_map_of_mem (List.mem_of_getElem? hcall), hrow⟩

theorem begin_sound : (begin calls start).Sound kept start calls where
  explained _ := .inl rfl
  past := by
    intro i batches pos hcall hpos row hrow
    have hzero : pos = 0 := by
      unfold begin at hpos
      rw [List.getElem?_map, hcall] at hpos
      exact (Option.some.inj hpos).symm
    rw [hzero, List.take_zero] at hrow
    cases hrow
  ended i hi := nomatch hi
  counted := rfl

/-- A batch that is committed writes its rows, and leaves written what was. -/
theorem advance_sound (hagree : Agreeing calls) (h : s.Sound kept start calls) {i pos : ℕ}
    {batches : Call κ ν} {batch : List (κ × ν)} (hcall : calls[i]? = some batches)
    (hpos : s.cursors[i]? = some pos) (hbatch : batches[pos]? = some batch) :
    Writers.Sound kept start calls { s with
      table := commit kept s.table batch
      cursors := s.cursors.set i (pos + 1)
      inserted := s.inserted + newRows kept s.table batch } := by
  have hrows : ∀ row ∈ batch, row ∈ rowsOf calls := by
    intro row hrow
    exact mem_rowsOf hcall (List.mem_flatten.mpr ⟨batch, List.mem_of_getElem? hbatch, hrow⟩)
  have hkeep : ∀ (j : ℕ) (other : Call κ ν), calls[j]? = some other → ∀ row ∈ other.flatten,
      Written kept start s.table row → Written kept start (commit kept s.table batch) row := by
    intro j other hother row hrow hwritten
    exact written_commit hwritten (mem_rowsOf hother hrow) hagree hrows
  constructor
  · exact explained_commit h.explained hagree hrows
  · intro j other pos' hother hpos' row hrow
    have hmem : row ∈ other.flatten := by
      obtain ⟨b, hb, hrow⟩ := List.mem_flatten.mp hrow
      exact List.mem_flatten.mpr ⟨b, List.mem_of_mem_take hb, hrow⟩
    by_cases hij : i = j
    · subst hij
      rw [hcall] at hother
      cases hother
      have hnext : pos' = pos + 1 := by
        dsimp only at hpos'
        rw [List.getElem?_set_self (List.getElem?_eq_some_iff.mp hpos).1] at hpos'
        exact (Option.some.inj hpos').symm
      rw [hnext, List.take_add_one, hbatch, List.flatten_append] at hrow
      rcases List.mem_append.mp hrow with hpast | hlast
      · exact hkeep i batches hcall row hmem (h.past i batches pos hcall hpos row hpast)
      · have hlast : row ∈ batch := by simpa using hlast
        exact written_of_mem_batch h.explained hagree hrows row hlast
    · dsimp only at hpos'
      rw [List.getElem?_set_ne hij] at hpos'
      exact hkeep j other hother row hmem (h.past j other pos' hother hpos' row hrow)
  · intro j hj other hother row hrow
    exact hkeep j other hother row hrow (h.ended j hj other hother row hrow)
  · show keptKeys kept (commit kept s.table batch) = _
    rw [keptKeys_commit, h.counted, Nat.add_assoc]

theorem step_sound (hagree : Agreeing calls) (h : s.Sound kept start calls) (event : Event) :
    (step kept calls s event).Sound kept start calls := by
  cases event with
  | advance i =>
      unfold step
      dsimp only
      split
      · rename_i batches pos hcall hpos
        split
        · rename_i batch hbatch
          exact advance_sound hagree h hcall hpos hbatch
        · rename_i hend
          refine ⟨h.explained, h.past, fun j hj other hother row hrow => ?_, h.counted⟩
          rcases List.mem_append.mp hj with hold | hnew
          · exact h.ended j hold other hother row hrow
          · rw [List.mem_singleton.mp hnew, hcall] at hother
            cases hother
            have hlength : batches.length ≤ pos := List.getElem?_eq_none_iff.mp hend
            apply h.past i batches pos hcall hpos
            rw [List.take_of_length_le hlength]
            exact hrow
      · exact h
  | restart i =>
      refine ⟨h.explained, fun j other pos hother hpos row hrow => ?_, h.ended, h.counted⟩
      dsimp only [step] at hpos
      by_cases hij : i = j
      · subst hij
        have hzero : pos = 0 := by
          by_cases hlt : i < s.cursors.length
          · rw [List.getElem?_set_self hlt] at hpos
            exact (Option.some.inj hpos).symm
          · rw [List.getElem?_eq_none (by simpa using hlt)] at hpos
            cases hpos
        rw [hzero, List.take_zero] at hrow
        cases hrow
      · rw [List.getElem?_set_ne hij] at hpos
        exact h.past j other pos hother hpos row hrow

theorem mem_of_lookup {rows : List (κ × ν)} {key : κ} {v : ν} (h : rows.lookup key = some v) :
    (key, v) ∈ rows := by
  induction rows with
  | nil => cases h
  | cons row rows ih =>
      rw [List.lookup_cons] at h
      split at h
      · rename_i hkey
        cases h
        rw [eq_of_beq hkey]
        exact List.mem_cons_self
      · exact List.mem_cons_of_mem _ (ih h)

theorem not_mem_of_lookup {rows : List (κ × ν)} {key : κ} (h : rows.lookup key = none) (v : ν) :
    (key, v) ∉ rows := by
  induction rows with
  | nil => exact List.not_mem_nil
  | cons row rows ih =>
      rw [List.lookup_cons] at h
      split at h
      · cases h
      · rename_i hkey
        intro hmem
        rcases List.mem_cons.mp hmem with rfl | hmem
        · simp at hkey
        · exact ih h hmem

/-- The run rule: whatever fails and whoever is first, once every call has come to its end the table
holds the rows of all of them, and every row that is kept was reported as new once. -/
theorem run_outcome (hagree : Agreeing calls) (events : List Event)
    (hended : ∀ i < calls.length, i ∈ (run (step kept calls) (begin calls start) events).ended) :
    (∀ key, (run (step kept calls) (begin calls start) events).table.get? key =
      outcome kept start calls key) ∧
    keptKeys kept (run (step kept calls) (begin calls start) events).table =
      keptKeys kept start + (run (step kept calls) (begin calls start) events).inserted := by
  have hstep : ∀ (s : Writers κ ν) (event : Event), s.Sound kept start calls →
      (step kept calls s event).Sound kept start calls := fun _ event h => step_sound hagree h event
  have hsound := run_keeps hstep begin_sound events
  refine ⟨fun key => ?_, hsound.counted⟩
  unfold outcome
  split
  · rename_i hnone
    rcases hsound.explained key with hsame | ⟨v, hv, -⟩
    · exact hsame
    · exact absurd hv (not_mem_of_lookup hnone v)
  · rename_i v hlookup
    have hrow := mem_of_lookup hlookup
    obtain ⟨rows, hrows, hmem⟩ := List.mem_flatten.mp hrow
    obtain ⟨batches, hcall, rfl⟩ := List.mem_map.mp hrows
    obtain ⟨i, hi, hget⟩ := List.mem_iff_getElem.mp hcall
    exact hsound.ended i (hended i hi) batches (List.getElem?_eq_some_iff.mpr ⟨hi, hget⟩) (key, v) hmem

end Runs

end RetriedWrites
