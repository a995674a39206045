import Mathlib.Data.Int.Log
import Mathlib.Data.List.Sort
import Mathlib.Tactic.Linarith
import NexusQuant.Ingestion.Types
import NexusQuant.Lib.Rounding
import NexusQuant.Lib.Run
import NexusQuant.Lib.Series

/-!
# The open-interest delta chain

`upsertOpenInterest` of `services/ingestion/src/persistence/index.ts`.  A batch is grouped by exchange
and symbol and sorted by time; the first row of a group is diffed against the row stored before it,
every other one against the row sorted before it.  Amounts are the decimals their texts denote, of the
precision of their columns.  `toPrecision` is what `Prisma.Decimal` makes of the result of an operation,
which it rounds to its significant digits.

`Consistent` is the chain over the whole table, `ChainKept` says when a batch keeps it, and
`chain_consistent_iff` that over a sequence of calls whose results no rounding changes the two are the
same.
-/

namespace NexusQuant.Ingestion

open Rounding Run

/-! ## Rows -/

structure NormalizedOpenInterest where
  exchange : Exchange
  symbol : String
  ts : ℤ
  openInterest : grid 8
  openInterestValue : grid 2

/-- The stored columns of a row; exchange, symbol and timestamp are its key. -/
structure OpenInterestSnapshot where
  openInterest : grid 8
  openInterestValue : grid 2
  oiDelta : Option (grid 8)
  oiDeltaPct : Option (grid 6)

abbrev SnapshotKey := (Exchange × String) × ℤ

abbrev OpenInterestTable := LiveMap SnapshotKey OpenInterestSnapshot

def NormalizedOpenInterest.key (row : NormalizedOpenInterest) : SnapshotKey :=
  ((row.exchange, row.symbol), row.ts)

structure PreparedOiRow where
  row : NormalizedOpenInterest
  oiDelta : Option (grid 8)
  oiDeltaPct : Option (grid 6)

/-! ## The call -/

def groupKey (row : NormalizedOpenInterest) : String := row.exchange.text ++ ":" ++ row.symbol

def groupRows (rows : List NormalizedOpenInterest) : LiveMap String (List NormalizedOpenInterest) :=
  rows.foldl (fun groups row =>
    groups.set (groupKey row) ((groups.get? (groupKey row)).getD [] ++ [row])) .empty

/-- Stable, so rows with one timestamp keep the order of the batch. -/
def sortRows (group : List NormalizedOpenInterest) : List NormalizedOpenInterest :=
  group.insertionSort fun a b => a.ts ≤ b.ts

section Call

variable (toPrecision : ℚ → ℚ)

/-- `current.minus(prev)`. -/
def deltaOf (current prev : ℚ) : ℚ := toPrecision (current - prev)

/-- `delta.div(prev).times(100)`. -/
def pctOf (current prev : ℚ) : ℚ :=
  toPrecision (toPrecision (deltaOf toPrecision current prev / prev) * 100)

/-- A row diffed against `prev`, in the decimals of the columns. -/
def prepare (row : NormalizedOpenInterest) (prev : Option (grid 8)) : PreparedOiRow where
  row := row
  oiDelta := prev.map fun prev =>
    ⟨roundTo 8 (deltaOf toPrecision row.openInterest prev), roundTo_mem_grid 8 _⟩
  oiDeltaPct := prev.bind fun prev =>
    if (prev : ℚ) = 0 then none
    else some ⟨roundTo 6 (pctOf toPrecision row.openInterest prev), roundTo_mem_grid 6 _⟩

def prepareGroup : Option (grid 8) → List NormalizedOpenInterest → List PreparedOiRow
  | _, [] => []
  | prev, row :: rest => prepare toPrecision row prev :: prepareGroup (some row.openInterest) rest

/-- The open interest of the row stored last before `first`. -/
def priorOpenInterest (table : OpenInterestTable) (first : NormalizedOpenInterest) :
    Option (grid 8) :=
  (table.latestBefore (first.exchange, first.symbol) first.ts).map
    OpenInterestSnapshot.openInterest

def prepareSorted (table : OpenInterestTable) : List NormalizedOpenInterest → List PreparedOiRow
  | [] => []
  | first :: rest => prepareGroup toPrecision (priorOpenInterest table first) (first :: rest)

def prepareRows (table : OpenInterestTable) (rows : List NormalizedOpenInterest) :
    List PreparedOiRow :=
  (groupRows rows).values.flatMap fun group => prepareSorted toPrecision table (sortRows group)

def PreparedOiRow.snapshot (p : PreparedOiRow) : OpenInterestSnapshot :=
  ⟨p.row.openInterest, p.row.openInterestValue, p.oiDelta, p.oiDeltaPct⟩

def upsertRow (table : OpenInterestTable) (p : PreparedOiRow) : OpenInterestTable :=
  table.set p.row.key p.snapshot

def upsertChunkSize : ℕ := 500

/-- `chunk` of `persistence/util.ts`. -/
def chunk {α : Type*} (items : List α) (size : ℕ) : List (List α) :=
  (List.range ((items.length + size - 1) / size)).map fun i => (items.drop (i * size)).take size

/-- The table after a call that did not throw, and the number of rows it reports. -/
def upsertOpenInterest (table : OpenInterestTable) (rows : List NormalizedOpenInterest) :
    OpenInterestTable × ℕ :=
  if rows.length = 0 then (table, 0)
  else
    let prepared := prepareRows toPrecision table rows
    ((chunk prepared upsertChunkSize).foldl (fun table batch => batch.foldl upsertRow table) table,
      prepared.length)

/-- The table after one more call. -/
def upsertStep (table : OpenInterestTable) (rows : List NormalizedOpenInterest) :
    OpenInterestTable := (upsertOpenInterest toPrecision table rows).1

end Call

/-! ## The chain over the table -/

/-- What a stored row says about itself, when the row before it has the open interest `prev`. -/
structure Diffs (r : OpenInterestSnapshot) (prev : Option (grid 8)) : Prop where
  delta : r.oiDelta = prev.map fun prev => r.openInterest - prev
  pct : r.oiDeltaPct.map Subtype.val = prev.bind fun prev =>
    if (prev : ℚ) = 0 then none
    else some (roundTo 6 (100 * ((r.openInterest : ℚ) - prev) / prev))

/-- Every stored row is diffed against the row at the greatest smaller timestamp stored for its
exchange and symbol. -/
def Consistent (table : OpenInterestTable) : Prop :=
  ∀ scope ts r, table.get? (scope, ts) = some r →
    Diffs r ((table.latestBefore scope ts).map OpenInterestSnapshot.openInterest)

/-- The delta tells what a row was diffed against. -/
theorem Diffs.unique {r : OpenInterestSnapshot} {p q : Option (grid 8)} (hp : Diffs r p)
    (hq : Diffs r q) : p = q := by
  have h := hp.delta.symm.trans hq.delta
  cases p with
  | none =>
      cases q with
      | none => rfl
      | some q => cases h
  | some p =>
      cases q with
      | none => cases h
      | some q => rw [sub_right_injective (Option.some.inj h)]

/-! ## What a call writes -/

/-- A row of a batch and what the call diffs it against. -/
structure Diffed where
  row : NormalizedOpenInterest
  prev : Option (grid 8)

def chain : Option (grid 8) → List NormalizedOpenInterest → List Diffed
  | _, [] => []
  | prev, row :: rest => ⟨row, prev⟩ :: chain (some row.openInterest) rest

def chainSorted (table : OpenInterestTable) : List NormalizedOpenInterest → List Diffed
  | [] => []
  | first :: rest => chain (priorOpenInterest table first) (first :: rest)

/-- The rows of a batch in the order they are written, each with the row sorted before it in its
group, the first of a group with the row stored before it. -/
def diffed (table : OpenInterestTable) (rows : List NormalizedOpenInterest) : List Diffed :=
  (groupRows rows).values.flatMap fun group => chainSorted table (sortRows group)

section Written

variable (toPrecision : ℚ → ℚ)

def Diffed.prepared (d : Diffed) : PreparedOiRow := prepare toPrecision d.row d.prev

/-- The rounding of the results leaves the delta as it is, and moves the percentage over no midpoint of
six decimals. -/
def Diffed.Unrounded (d : Diffed) : Prop :=
  ∀ prev ∈ d.prev, roundTo 8 (deltaOf toPrecision d.row.openInterest prev) = d.row.openInterest - prev ∧
    ((prev : ℚ) ≠ 0 → roundTo 6 (pctOf toPrecision d.row.openInterest prev) =
      roundTo 6 (100 * ((d.row.openInterest : ℚ) - prev) / prev))

/-- What is prepared from an unrounded row is its difference. -/
theorem Diffed.Unrounded.diffs {d : Diffed} (h : d.Unrounded toPrecision) :
    Diffs (d.prepared toPrecision).snapshot d.prev := by
  obtain ⟨row, prev⟩ := d
  cases prev with
  | none => exact ⟨rfl, rfl⟩
  | some prev =>
      obtain ⟨hdelta, hpct⟩ := h prev rfl
      constructor
      · show some _ = some _
        exact congrArg some (Subtype.ext hdelta)
      · show Option.map _ (if (prev : ℚ) = 0 then _ else _) = if (prev : ℚ) = 0 then _ else _
        split
        · rfl
        · rename_i hne
          exact congrArg some (hpct hne)

theorem prepareGroup_eq (prev : Option (grid 8)) (rows : List NormalizedOpenInterest) :
    prepareGroup toPrecision prev rows = (chain prev rows).map (Diffed.prepared toPrecision) := by
  induction rows generalizing prev with
  | nil => rfl
  | cons row rest ih =>
      rw [prepareGroup, ih, chain, List.map_cons]
      rfl

theorem prepareRows_eq (table : OpenInterestTable) (rows : List NormalizedOpenInterest) :
    prepareRows toPrecision table rows = (diffed table rows).map (Diffed.prepared toPrecision) := by
  unfold prepareRows diffed
  rw [List.map_flatMap]
  congr 1
  funext group
  cases sortRows group with
  | nil => rfl
  | cons first rest => exact prepareGroup_eq toPrecision _ _

end Written

theorem map_row_chain (prev : Option (grid 8)) (rows : List NormalizedOpenInterest) :
    (chain prev rows).map Diffed.row = rows := by
  induction rows generalizing prev with
  | nil => rfl
  | cons row rest ih => rw [chain, List.map_cons, ih]

theorem map_row_chainSorted (table : OpenInterestTable) (sorted : List NormalizedOpenInterest) :
    (chainSorted table sorted).map Diffed.row = sorted := by
  cases sorted with
  | nil => rfl
  | cons first rest => exact map_row_chain _ _

theorem flatten_chunk {α : Type*} (items : List α) {size : ℕ} (hsize : 0 < size) :
    (chunk items size).flatten = items := by
  -- The first slices are the items up to their end.
  have hslices : ∀ n, ((List.range n).map fun i => (items.drop (i * size)).take size).flatten =
      items.take (n * size) := by
    intro n
    induction n with
    | zero => simp
    | succ n ih =>
        rw [List.range_succ, List.map_append, List.flatten_append, ih, List.map_singleton,
          List.flatten_singleton, Nat.succ_mul, List.take_add]
  rw [chunk, hslices]
  apply List.take_of_length_le
  have hdiv := Nat.div_add_mod (items.length + size - 1) size
  have hmod := Nat.mod_lt (items.length + size - 1) hsize
  rw [Nat.mul_comm] at hdiv
  omega

theorem upsertStep_eq (toPrecision : ℚ → ℚ) (table : OpenInterestTable)
    (rows : List NormalizedOpenInterest) : upsertStep toPrecision table rows = (diffed table rows).foldl
      (fun table d => table.set d.row.key (d.prepared toPrecision).snapshot) table := by
  unfold upsertStep upsertOpenInterest
  by_cases hempty : rows.length = 0
  · rw [if_pos hempty, List.length_eq_zero_iff.mp hempty]
    rfl
  · rw [if_neg hempty]
    show List.foldl _ table (chunk (prepareRows toPrecision table rows) upsertChunkSize) = _
    rw [← List.foldl_flatten, flatten_chunk _ (by decide), prepareRows_eq, List.foldl_map]
    rfl

/-! ## The rows of a batch -/

theorem groupRows_concat (rows : List NormalizedOpenInterest) (row : NormalizedOpenInterest) :
    groupRows (rows ++ [row]) = (groupRows rows).set (groupKey row)
      (((groupRows rows).get? (groupKey row)).getD [] ++ [row]) := List.foldl_append

/-- A group has the rows of its key, in the order of the batch. -/
theorem getD_groupRows (rows : List NormalizedOpenInterest) (key : String) :
    ((groupRows rows).get? key).getD [] = rows.filter fun row => groupKey row = key := by
  induction rows using List.reverseRecOn with
  | nil => rfl
  | append_singleton rows row ih =>
      rw [groupRows_concat, LiveMap.get?_set, List.filter_append]
      by_cases hkey : key = groupKey row
      · rw [if_pos hkey, ← hkey, ih, hkey]
        simp
      · rw [if_neg hkey, ih]
        simp [Ne.symm hkey]

theorem mem_groups {rows : List NormalizedOpenInterest} {row : NormalizedOpenInterest} :
    (∃ group ∈ (groupRows rows).values, row ∈ group) ↔ row ∈ rows := by
  constructor
  · rintro ⟨group, hgroup, hrow⟩
    obtain ⟨c, hc, rfl⟩ := List.mem_map.mp hgroup
    have hget := LiveMap.get?_eq_some.mpr ⟨c, hc, rfl, rfl⟩
    have hfilter := getD_groupRows rows c.key
    rw [hget, Option.getD_some] at hfilter
    rw [hfilter] at hrow
    exact List.mem_of_mem_filter hrow
  · intro hrow
    have hmem : row ∈ ((groupRows rows).get? (groupKey row)).getD [] := by
      rw [getD_groupRows]
      exact List.mem_filter.mpr ⟨hrow, by simp⟩
    cases hget : (groupRows rows).get? (groupKey row) with
    | none =>
        rw [hget] at hmem
        cases hmem
    | some group =>
        rw [hget] at hmem
        obtain ⟨c, hc, -, rfl⟩ := LiveMap.get?_eq_some.mp hget
        exact ⟨c.value, List.mem_map_of_mem hc, hmem⟩

/-- Every row of the batch is written. -/
theorem mem_diffed {table : OpenInterestTable} {rows : List NormalizedOpenInterest}
    {row : NormalizedOpenInterest} : row ∈ (diffed table rows).map Diffed.row ↔ row ∈ rows := by
  unfold diffed
  rw [List.map_flatMap, List.mem_flatMap, ← mem_groups]
  simp only [map_row_chainSorted]
  constructor
  · rintro ⟨group, hmem, hrow⟩
    exact ⟨group, hmem, (List.perm_insertionSort _ group).mem_iff.mp hrow⟩
  · rintro ⟨group, hmem, hrow⟩
    exact ⟨group, hmem, (List.perm_insertionSort _ group).mem_iff.mpr hrow⟩

/-! ## When a batch keeps the chain -/

/-- The open interests of a table. -/
def openInterests (table : OpenInterestTable) : LiveMap SnapshotKey (grid 8) :=
  table.mapValues OpenInterestSnapshot.openInterest

/-- The open interests once the batch is in. -/
def merged (table : OpenInterestTable) (rows : List NormalizedOpenInterest) :
    LiveMap SnapshotKey (grid 8) :=
  (diffed table rows).foldl (fun m d => m.set d.row.key d.row.openInterest) (openInterests table)

/-- The row that is written last for a key. -/
def lastWritten (table : OpenInterestTable) (rows : List NormalizedOpenInterest)
    (key : SnapshotKey) : Option Diffed :=
  (diffed table rows).reverse.find? fun d => d.row.key = key

/-- Before every stored row the batch leaves alone stands the open interest that stood there, and
before every row of the batch stands what it is diffed against. -/
structure ChainKept (table : OpenInterestTable) (rows : List NormalizedOpenInterest) : Prop where
  untouched : ∀ scope ts r, table.get? (scope, ts) = some r → (∀ row ∈ rows, row.key ≠ (scope, ts)) →
    (merged table rows).latestBefore scope ts = (openInterests table).latestBefore scope ts
  written : ∀ scope ts d, lastWritten table rows (scope, ts) = some d →
    (merged table rows).latestBefore scope ts = d.prev

/-- No result of the rows that stay written is changed by rounding. -/
def Unrounded (toPrecision : ℚ → ℚ) (table : OpenInterestTable) (rows : List NormalizedOpenInterest) :
    Prop :=
  ∀ key d, lastWritten table rows key = some d → d.Unrounded toPrecision

variable {toPrecision : ℚ → ℚ} {table : OpenInterestTable} {rows : List NormalizedOpenInterest}

theorem openInterests_upsertStep (table : OpenInterestTable) (rows : List NormalizedOpenInterest) :
    openInterests (upsertStep toPrecision table rows) = merged table rows := by
  rw [upsertStep_eq, merged]
  generalize diffed table rows = ds
  induction ds using List.reverseRecOn with
  | nil => rfl
  | append_singleton ds d ih =>
      rw [List.foldl_append, List.foldl_append, ← ih]
      exact LiveMap.mapValues_set

theorem get?_upsertStep (table : OpenInterestTable) (rows : List NormalizedOpenInterest)
    (key : SnapshotKey) : (upsertStep toPrecision table rows).get? key =
      ((lastWritten table rows key).map fun d => (d.prepared toPrecision).snapshot).or
        (table.get? key) := by
  rw [upsertStep_eq, LiveMap.get?_foldl_set]
  rfl

theorem lastWritten_eq_none {key : SnapshotKey} :
    lastWritten table rows key = none ↔ ∀ row ∈ rows, row.key ≠ key := by
  unfold lastWritten
  rw [List.find?_eq_none]
  constructor
  · intro h row hrow heq
    have hdiffed : row ∈ (diffed table rows).map Diffed.row := mem_diffed.mpr hrow
    obtain ⟨d, hd, rfl⟩ := List.mem_map.mp hdiffed
    exact h d (List.mem_reverse.mpr hd) (by simpa using heq)
  · intro h d hd heq
    exact h d.row (mem_diffed.mp (List.mem_map_of_mem (List.mem_reverse.mp hd))) (by simpa using heq)

/-- What a stored row has to be diffed against, in terms of the open interests alone. -/
theorem consistent_iff : Consistent table ↔ ∀ scope ts r, table.get? (scope, ts) = some r →
    Diffs r ((openInterests table).latestBefore scope ts) := by
  unfold Consistent openInterests
  simp only [LiveMap.latestBefore_mapValues]

/-- A call whose results are not rounded keeps a consistent chain exactly when it keeps what stands before
every row. -/
theorem consistent_upsertStep_iff (h : Consistent table) (hexact : Unrounded toPrecision table rows) :
    Consistent (upsertStep toPrecision table rows) ↔ ChainKept table rows := by
  rw [consistent_iff, openInterests_upsertStep]
  constructor
  · intro hafter
    constructor
    · intro scope ts r hget hrows
      have hlast : lastWritten table rows (scope, ts) = none := lastWritten_eq_none.mpr hrows
      have hkept : (upsertStep toPrecision table rows).get? (scope, ts) = some r := by
        rw [get?_upsertStep, hlast, hget]
        rfl
      exact (hafter scope ts r hkept).unique (consistent_iff.mp h scope ts r hget)
    · intro scope ts d hlast
      have hwritten : (upsertStep toPrecision table rows).get? (scope, ts) =
          some (d.prepared toPrecision).snapshot := by
        rw [get?_upsertStep, hlast]
        rfl
      exact (hafter scope ts _ hwritten).unique (hexact _ d hlast).diffs
  · intro hkept scope ts r hget
    rw [get?_upsertStep] at hget
    cases hlast : lastWritten table rows (scope, ts) with
    | none =>
        rw [hlast] at hget
        have hold : table.get? (scope, ts) = some r := hget
        rw [hkept.untouched scope ts r hold (lastWritten_eq_none.mp hlast)]
        exact consistent_iff.mp h scope ts r hold
    | some d =>
        rw [hlast] at hget
        rw [hkept.written scope ts d hlast, ← Option.some.inj hget]
        exact (hexact _ d hlast).diffs

/-- Over a sequence of calls whose results are not rounded, the chain is consistent after every call exactly
when every call keeps it. -/
theorem chain_consistent_iff (toPrecision : ℚ → ℚ) (calls : List (List NormalizedOpenInterest))
    (hexact : RunMeets (upsertStep toPrecision) (Unrounded toPrecision) .empty calls) :
    (∀ done, done <+: calls → Consistent (run (upsertStep toPrecision) .empty done)) ↔
      RunMeets (upsertStep toPrecision) ChainKept .empty calls := by
  apply hexact.forall_prefix_iff
  · rintro scope ts r ⟨⟩
  · exact fun table rows h => consistent_upsertStep_iff h

/-- Twenty significant digits, ties away from zero. -/
def twentyDigits (q : ℚ) : ℚ :=
  let unit : ℚ := 10 ^ (Int.log 10 |q| - 19)
  roundTo 0 (q / unit) * unit

/-- An open interest of `n` on Deribit. -/
def sampleRow (ts : ℤ) (n : ℕ) : NormalizedOpenInterest :=
  ⟨.deribit, "BTC-PERP", ts, ⟨n, natCast_mem_grid 8 n⟩, ⟨n, natCast_mem_grid 2 n⟩⟩

-- A difference of twenty-one digits loses its last one.
example : deltaOf twentyDigits (123456789012312345677 / 10 ^ 8) 0 = 12345678901231234568 / 10 ^ 7 := by
  decide +kernel

/-- Two rows whose difference and percentage fit into twenty digits keep the chain. -/
theorem chain_consistent_iff_pair :
    RunMeets (upsertStep twentyDigits) (Unrounded twentyDigits) .empty
        [[sampleRow 1 100, sampleRow 3 130]] ∧
      ((∀ done, done <+: [[sampleRow 1 100, sampleRow 3 130]] →
          Consistent (run (upsertStep twentyDigits) .empty done)) ↔
        RunMeets (upsertStep twentyDigits) ChainKept .empty [[sampleRow 1 100, sampleRow 3 130]]) := by
  have hexact : RunMeets (upsertStep twentyDigits) (Unrounded twentyDigits) .empty
      [[sampleRow 1 100, sampleRow 3 130]] := by
    refine ⟨?_, trivial⟩
    intro key d hlast
    have hd : d ∈ (diffed .empty [sampleRow 1 100, sampleRow 3 130]) :=
      List.mem_reverse.mp (List.mem_of_find?_eq_some hlast)
    have hpair : diffed .empty [sampleRow 1 100, sampleRow 3 130] =
        [⟨sampleRow 1 100, none⟩, ⟨sampleRow 3 130, some (sampleRow 1 100).openInterest⟩] := rfl
    rw [hpair, List.mem_cons, List.mem_singleton] at hd
    rcases hd with rfl | rfl
    · rintro prev ⟨⟩
    · rintro prev hprev
      cases hprev
      exact ⟨by decide +kernel, fun _ => by decide +kernel⟩
  exact ⟨hexact, chain_consistent_iff twentyDigits _ hexact⟩

/-- A backfilled row lands between two stored ones, and the later one keeps its delta to the
earlier. -/
theorem backfill_breaks_chain :
    ¬∀ calls : List (List NormalizedOpenInterest),
      ∀ done, done <+: calls → Consistent (run (upsertStep twentyDigits) .empty done) := by
  intro h
  have hafter := h [[sampleRow 1 100, sampleRow 3 130], [sampleRow 2 110]] _ (List.prefix_refl _)
  have hdelta := (hafter (.deribit, "BTC-PERP") 3
    ((prepare twentyDigits (sampleRow 3 130) (some (sampleRow 1 100).openInterest)).snapshot) rfl).delta
  have hvalue := congrArg Subtype.val (Option.some.inj hdelta)
  revert hvalue
  decide +kernel

end NexusQuant.Ingestion
