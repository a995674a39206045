import Mathlib.Data.Finset.Max
import Mathlib.Data.List.Pairwise
import Mathlib.Order.Monotone.Basic

/-!
# The greatest of keyed values

`IsGreatestKey ord S figure k` says that the figure of `k` is the greatest over `S`, and `k` the least key
that has it, keys being told apart and compared by `ord`.  A scan keeps the best key so far, and next to
it a displayed value `ρ x` of its figure `x`; a later entry replaces it when its own figure exceeds the
displayed value.  Where `ρ` is a rounding, the scan ends with the greatest key exactly where no smaller
key is displayed too high and no greater one is above the displayed value of the greatest.
-/

namespace Superlative

variable {κ O R : Type*} [LinearOrder O] [LinearOrder R] (ord : κ → O)

structure IsGreatestKey (S : Finset κ) (figure : κ → R) (k : κ) : Prop where
  mem : k ∈ S
  le : ∀ j ∈ S, figure j < figure k ∨ (figure j = figure k ∧ ord k ≤ ord j)

/-- The greatest key is named, and none where there is no key. -/
structure NamesGreatest (S : Finset κ) (figure : κ → R) (named : Option κ) : Prop where
  of_none : named = none → S = ∅
  of_some : ∀ k, named = some k → IsGreatestKey ord S figure k

/-- Smaller keys are displayed below the greatest figure, and greater ones are at most its display. -/
structure Clear (ρ : R → R) (S : Finset κ) (figure : κ → R) (k : κ) : Prop where
  below : ∀ j ∈ S, ord j < ord k → ρ (figure j) < figure k
  above : ∀ j ∈ S, ord k < ord j → figure j ≤ ρ (figure k)

def scanStep (ρ : R → R) (best : Option (κ × R)) (e : κ × R) : Option (κ × R) :=
  match best with
  | none => some (e.1, ρ e.2)
  | some b => if b.2 < e.2 ∨ (e.2 = b.2 ∧ ord e.1 < ord b.1) then some (e.1, ρ e.2) else some b

def scan (ρ : R → R) (l : List (κ × R)) : Option (κ × R) := l.foldl (scanStep ord ρ) none

/-- A list of entries that holds the figures of a set of keys, in order. -/
structure Enumerates (l : List (κ × R)) (S : Finset κ) (figure : κ → R) : Prop where
  sorted : l.Pairwise fun e e' => ord e.1 < ord e'.1
  mem_iff : ∀ k x, (k, x) ∈ l ↔ k ∈ S ∧ x = figure k

variable {ord} {S : Finset κ} {figure : κ → R} {j k : κ}

theorem IsGreatestKey.unique (hord : Function.Injective ord) (hj : IsGreatestKey ord S figure j)
    (hk : IsGreatestKey ord S figure k) : j = k := by
  rcases hj.le k hk.mem with h | h
  · rcases hk.le j hj.mem with h' | h'
    · exact absurd h h'.not_gt
    · exact absurd h'.1 h.ne'
  · rcases hk.le j hj.mem with h' | h'
    · exact absurd h.1 h'.ne'
    · exact hord (le_antisymm h.2 h'.2)

theorem exists_isGreatestKey (h : S.Nonempty) : ∃ k, IsGreatestKey ord S figure k := by
  obtain ⟨i, hi, hmax⟩ := S.exists_max_image figure h
  -- The least of the keys that have the greatest figure.
  have hne : (S.filter fun j => figure j = figure i).Nonempty :=
    ⟨i, Finset.mem_filter.mpr ⟨hi, rfl⟩⟩
  obtain ⟨k, hk, hmin⟩ := (S.filter fun j => figure j = figure i).exists_min_image ord hne
  obtain ⟨hkS, hfigure⟩ := Finset.mem_filter.mp hk
  refine ⟨k, hkS, ?_⟩
  intro j hj
  rw [hfigure]
  rcases (hmax j hj).lt_or_eq with hlt | heq
  · exact .inl hlt
  · exact .inr ⟨heq, hmin j (Finset.mem_filter.mpr ⟨hj, heq⟩)⟩

/-- Compared as they are, the figures are always clear. -/
theorem IsGreatestKey.clear (h : IsGreatestKey ord S figure k) : Clear ord id S figure k := by
  constructor
  · intro j hj hlt
    rcases h.le j hj with hle | ⟨-, hle⟩
    · exact hle
    · exact absurd hlt hle.not_gt
  · intro j hj _
    rcases h.le j hj with hle | ⟨heq, -⟩
    · exact hle.le
    · exact heq.le

/-! ## The scan -/

variable {ρ : R → R} {l : List (κ × R)} {b c e : κ × R} {best : Option (κ × R)}

theorem scanStep_some_of_lt (h : b.2 < e.2) : scanStep ord ρ (some b) e = some (e.1, ρ e.2) :=
  if_pos (.inl h)

theorem scanStep_some_of_le (hkey : ord b.1 < ord e.1) (h : e.2 ≤ b.2) : scanStep ord ρ (some b) e = some b := by
  apply if_neg
  rintro (hlt | ⟨-, hlt⟩)
  · exact absurd hlt h.not_gt
  · exact absurd hlt hkey.not_gt

/-- The best is one of the entries, on display. -/
theorem key_of_foldl (h : l.foldl (scanStep ord ρ) best = some c) :
    best = some c ∨ ∃ e ∈ l, c = (e.1, ρ e.2) := by
  induction l generalizing best with
  | nil => exact .inl h
  | cons e l ih =>
      rcases ih h with hstep | ⟨e', he', heq⟩
      · cases best with
        | none => exact .inr ⟨e, List.mem_cons_self, (Option.some.inj hstep).symm⟩
        | some b =>
            unfold scanStep at hstep
            dsimp only at hstep
            split_ifs at hstep
            · exact .inr ⟨e, List.mem_cons_self, (Option.some.inj hstep).symm⟩
            · exact .inl hstep
      · exact .inr ⟨e', List.mem_cons_of_mem _ he', heq⟩

theorem foldl_isSome (h : best.isSome = true) : (l.foldl (scanStep ord ρ) best).isSome = true := by
  induction l generalizing best with
  | nil => exact h
  | cons e l ih =>
      apply ih
      cases best with
      | none => rfl
      | some b =>
          unfold scanStep
          dsimp only
          split_ifs <;> rfl

theorem scan_eq_none_iff : scan ord ρ l = none ↔ l = [] := by
  cases l with
  | nil => simp [scan]
  | cons e l =>
      have hsome : (l.foldl (scanStep ord ρ) (some (e.1, ρ e.2))).isSome = true := foldl_isSome rfl
      rw [scan, List.foldl_cons]
      simp only [reduceCtorEq, iff_false]
      exact Option.isSome_iff_ne_none.mp hsome

section Rounding

variable (hmono : Monotone ρ) (hidem : ∀ x, ρ (ρ x) = ρ x)

include hmono hidem

/-- What is on display is at least the display of every entry that was met. -/
theorem le_of_foldl (hbest : ∀ b, best = some b → ρ b.2 = b.2) (h : l.foldl (scanStep ord ρ) best = some c) :
    (∀ b, best = some b → b.2 ≤ c.2) ∧ ∀ e ∈ l, ρ e.2 ≤ c.2 := by
  induction l generalizing best with
  | nil =>
      constructor
      · intro b hb
        rw [hb] at h
        rw [Option.some.inj h]
      · intro e he
        cases he
  | cons e l ih =>
      -- One step raises the display to that of the entry at least.
      have hstep : ∃ b', scanStep ord ρ best e = some b' ∧ ρ b'.2 = b'.2 ∧ ρ e.2 ≤ b'.2 ∧
          ∀ b, best = some b → b.2 ≤ b'.2 := by
        cases best with
        | none => exact ⟨_, rfl, hidem e.2, le_refl _, fun b hb => nomatch hb⟩
        | some b =>
            have hb := hbest b rfl
            unfold scanStep
            dsimp only
            split_ifs with hcond
            · refine ⟨_, rfl, hidem e.2, le_refl _, ?_⟩
              intro b' hb'
              rw [← Option.some.inj hb', ← hb]
              apply hmono
              rcases hcond with hlt | ⟨heq, -⟩
              · exact hlt.le
              · exact heq.ge
            · have hle : e.2 ≤ b.2 := not_lt.mp fun hlt => hcond (.inl hlt)
              refine ⟨b, rfl, hb, ?_, ?_⟩
              · rw [← hb]
                exact hmono hle
              · intro b' hb'
                rw [Option.some.inj hb']
      obtain ⟨b', hb', hdisplay, hentry, hold⟩ := hstep
      rw [List.foldl_cons, hb'] at h
      obtain ⟨hfirst, hrest⟩ := ih (fun b hb => by rw [← Option.some.inj hb]; exact hdisplay) h
      have hle := hfirst b' rfl
      constructor
      · intro b hb
        exact (hold b hb).trans hle
      · intro e' he'
        rcases List.mem_cons.mp he' with rfl | he'
        · exact hentry.trans hle
        · exact hrest e' he'

end Rounding

/-- A best key stays while no entry is above its display. -/
theorem foldl_stays_iff (hkeys : ∀ e ∈ l, ord b.1 < ord e.1) :
    (l.foldl (scanStep ord ρ) (some b)).map Prod.fst = some b.1 ↔ ∀ e ∈ l, e.2 ≤ b.2 := by
  constructor
  · intro h
    induction l with
    | nil => exact fun e he => nomatch he
    | cons e l ih =>
        obtain ⟨hkey, hkeys⟩ := List.forall_mem_cons.mp hkeys
        rcases le_or_gt e.2 b.2 with hle | hlt
        · rw [List.foldl_cons, scanStep_some_of_le hkey hle] at h
          exact List.forall_mem_cons.mpr ⟨hle, ih hkeys h⟩
        · -- Replaced once, the key does not come back.
          rw [List.foldl_cons, scanStep_some_of_lt hlt, Option.map_eq_some_iff] at h
          obtain ⟨c, hc, hfst⟩ := h
          rcases key_of_foldl hc with heq | ⟨e', he', rfl⟩
          · cases heq
            exact absurd (congrArg ord hfst) hkey.ne'
          · exact absurd (congrArg ord hfst) (hkeys e' he').ne'
  · intro h
    induction l with
    | nil => rfl
    | cons e l ih =>
        obtain ⟨hkey, hkeys⟩ := List.forall_mem_cons.mp hkeys
        obtain ⟨hle, hrest⟩ := List.forall_mem_cons.mp h
        rw [List.foldl_cons, scanStep_some_of_le hkey hle]
        exact ih hkeys hrest

omit [LinearOrder R] in
theorem Enumerates.before_lt {before after : List (κ × R)}
    (h : Enumerates ord (before ++ (k, figure k) :: after) S figure) :
    ∀ e ∈ before, ord e.1 < ord k :=
  fun e he => (List.pairwise_append.mp h.sorted).2.2 e he _ List.mem_cons_self

omit [LinearOrder R] in
theorem Enumerates.lt_after {before after : List (κ × R)}
    (h : Enumerates ord (before ++ (k, figure k) :: after) S figure) :
    ∀ e ∈ after, ord k < ord e.1 :=
  (List.pairwise_cons.mp (List.pairwise_append.mp h.sorted).2.1).1

/-- What is before and after a key in the list are the smaller and the greater keys. -/
theorem Enumerates.clear_iff {before after : List (κ × R)}
    (h : Enumerates ord (before ++ (k, figure k) :: after) S figure) :
    Clear ord ρ S figure k ↔
      (∀ e ∈ before, ρ e.2 < figure k) ∧ ∀ e ∈ after, e.2 ≤ ρ (figure k) := by
  have hfigure : ∀ e ∈ before ++ (k, figure k) :: after, e.1 ∈ S ∧ e.2 = figure e.1 :=
    fun e he => (h.mem_iff e.1 e.2).mp he
  have hentry : ∀ j ∈ S, (j, figure j) ∈ before ++ (k, figure k) :: after :=
    fun j hj => (h.mem_iff j (figure j)).mpr ⟨hj, rfl⟩
  constructor
  · intro hclear
    constructor
    · intro e he
      have hmem := hfigure e (List.mem_append_left _ he)
      rw [hmem.2]
      exact hclear.below e.1 hmem.1 (h.before_lt e he)
    · intro e he
      have hmem := hfigure e (List.mem_append_right _ (List.mem_cons_of_mem _ he))
      rw [hmem.2]
      exact hclear.above e.1 hmem.1 (h.lt_after e he)
  · intro hlists
    constructor
    · intro j hj hlt
      rcases List.mem_append.mp (hentry j hj) with hmem | hmem
      · exact hlists.1 _ hmem
      · rcases List.mem_cons.mp hmem with heq | hmem
        · exact absurd (congrArg (fun e : κ × R => ord e.1) heq) hlt.ne
        · exact absurd hlt (h.lt_after _ hmem).not_gt
    · intro j hj hlt
      rcases List.mem_append.mp (hentry j hj) with hmem | hmem
      · exact absurd hlt (h.before_lt _ hmem).not_gt
      · rcases List.mem_cons.mp hmem with heq | hmem
        · exact absurd (congrArg (fun e : κ × R => ord e.1) heq) hlt.ne'
        · exact hlists.2 _ hmem

/-- The display is that of one of the entries, and the greatest of them. -/
theorem display_lt_iff (hmono : Monotone ρ) (hidem : ∀ x, ρ (ρ x) = ρ x) {x : R}
    (h : l.foldl (scanStep ord ρ) none = some b) : b.2 < x ↔ ∀ e ∈ l, ρ e.2 < x := by
  have hbounds := (le_of_foldl hmono hidem (fun b hb => by cases hb) h).2
  constructor
  · intro hlt e he
    exact (hbounds e he).trans_lt hlt
  · intro hall
    rcases key_of_foldl h with hnone | ⟨e, he, rfl⟩
    · cases hnone
    · exact hall e he

/-- The scan ends with a key exactly where the figures are clear for it. -/
theorem scan_eq_iff (hmono : Monotone ρ) (hidem : ∀ x, ρ (ρ x) = ρ x) (h : Enumerates ord l S figure)
    (hk : k ∈ S) : (scan ord ρ l).map Prod.fst = some k ↔ Clear ord ρ S figure k := by
  obtain ⟨before, after, rfl⟩ := List.append_of_mem ((h.mem_iff k (figure k)).mpr ⟨hk, rfl⟩)
  rw [h.clear_iff, scan, List.foldl_append, List.foldl_cons]
  cases hbest : before.foldl (scanStep ord ρ) none with
  | none =>
      have hnil : before = [] := scan_eq_none_iff.mp hbest
      have hafter := h.lt_after
      rw [hnil]
      show (after.foldl (scanStep ord ρ) (some (k, ρ (figure k)))).map Prod.fst = some k ↔ _
      rw [foldl_stays_iff hafter]
      simp
  | some b =>
      have hkey : ord b.1 < ord k := by
        rcases key_of_foldl hbest with hnone | ⟨e, he, rfl⟩
        · cases hnone
        · exact h.before_lt e he
      rw [← display_lt_iff hmono hidem hbest]
      rcases lt_or_ge b.2 (figure k) with hlt | hge
      · rw [scanStep_some_of_lt hlt, foldl_stays_iff h.lt_after]
        exact (and_iff_right hlt).symm
      · rw [scanStep_some_of_le hkey hge]
        constructor
        · intro hend
          obtain ⟨c, hc, hfst⟩ := Option.map_eq_some_iff.mp hend
          rcases key_of_foldl hc with heq | ⟨e, he, rfl⟩
          · cases heq
            exact absurd (congrArg ord hfst) hkey.ne
          · exact absurd (congrArg ord hfst) (h.lt_after e he).ne'
        · intro hboth
          exact absurd hboth.1 hge.not_gt

/-- The scan names the greatest key exactly where the figures are clear for it. -/
theorem namesGreatest_scan_iff (hord : Function.Injective ord) (hmono : Monotone ρ) (hidem : ∀ x, ρ (ρ x) = ρ x)
    (h : Enumerates ord l S figure) :
    NamesGreatest ord S figure ((scan ord ρ l).map Prod.fst) ↔
      ∀ k, IsGreatestKey ord S figure k → Clear ord ρ S figure k := by
  constructor
  · intro hnames k hk
    rw [← scan_eq_iff hmono hidem h hk.mem]
    cases hscan : (scan ord ρ l).map Prod.fst with
    | none =>
        have hempty := hnames.of_none hscan
        rw [hempty] at hk
        exact absurd hk.mem (Finset.notMem_empty k)
    | some j => rw [(hnames.of_some j hscan).unique hord hk]
  · intro hclear
    constructor
    · intro hnone
      rw [Option.map_eq_none_iff, scan_eq_none_iff] at hnone
      rw [Finset.eq_empty_iff_forall_notMem]
      intro j hj
      have hmem := (h.mem_iff j (figure j)).mpr ⟨hj, rfl⟩
      rw [hnone] at hmem
      cases hmem
    · intro j hj
      obtain ⟨c, hc, hfst⟩ := Option.map_eq_some_iff.mp hj
      have hmem : j ∈ S := by
        rcases key_of_foldl hc with hnone | ⟨e, he, rfl⟩
        · cases hnone
        · rw [← hfst]
          exact ((h.mem_iff e.1 e.2).mp he).1
      obtain ⟨k, hk⟩ := @exists_isGreatestKey _ _ _ _ _ ord S figure ⟨j, hmem⟩
      have hend := (scan_eq_iff hmono hidem h hk.mem).mpr (hclear k hk)
      rw [hj] at hend
      rw [Option.some.inj hend]
      exact hk

/-- Without rounding the scan names the greatest key. -/
theorem namesGreatest_scan (hord : Function.Injective ord) (h : Enumerates ord l S figure) :
    NamesGreatest ord S figure ((scan ord id l).map Prod.fst) :=
  (namesGreatest_scan_iff hord monotone_id (fun _ => rfl) h).mpr fun _ hk => hk.clear

end Superlative
