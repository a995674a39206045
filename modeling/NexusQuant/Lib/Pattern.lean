import Mathlib.Data.List.TakeWhile

/-!
# Patterns with groups

The patterns that match a whole text: a character of a class, a class repeated, one pattern after
another, an optional one, and a group whose text is kept.  `exec` tries the ways to match in the order
of a backtracking matcher, the longest first; `Matches` is what a pattern means.  Where a text matches
in one way only, the two agree (`exec_eq_some_iff`).
-/

/-- A pattern over the classes of characters. -/
inductive Pattern where
  | char (p : Char → Bool)
  /-- From `lo` to `hi` characters of a class, without an upper bound where there is none. -/
  | repeated (p : Char → Bool) (lo : ℕ) (hi : Option ℕ)
  | seq (r s : Pattern)
  | optional (r : Pattern)
  | group (r : Pattern)

namespace Pattern

instance : Append Pattern := ⟨.seq⟩

/-- The texts of the groups, in order, nothing for a group that took no part. -/
abbrev Groups := List (Option (List Char))

/-- One character, as itself. -/
def literal (c : Char) : Pattern := .char (· == c)

def groupCount : Pattern → ℕ
  | .char _ => 0
  | .repeated _ _ _ => 0
  | .seq r s => groupCount r + groupCount s
  | .optional r => groupCount r
  | .group r => groupCount r + 1

/-- A way to match a prefix of a text. -/
structure Way where
  used : List Char
  groups : Groups
  rest : List Char
deriving DecidableEq, Repr

def Way.andThen (w w' : Way) : Way := ⟨w.used ++ w'.used, w.groups ++ w'.groups, w'.rest⟩

/-- The ways to match a prefix, in the order in which they are tried. -/
def ways : Pattern → List Char → List Way
  | .char p, cs =>
      match cs with
      | [] => []
      | c :: rest => if p c then [⟨[c], [], rest⟩] else []
  | .repeated p lo hi, cs =>
      let most := (cs.takeWhile p).length
      let top := hi.elim most (min most)
      ((List.range (top + 1)).reverse.filter (lo ≤ ·)).map fun k => ⟨cs.take k, [], cs.drop k⟩
  | .seq r s, cs => (ways r cs).flatMap fun w => (ways s w.rest).map w.andThen
  | .optional r, cs =>
      -- A repetition that takes no character is not tried.
      (ways r cs).filter (·.used ≠ []) ++ [⟨[], List.replicate (groupCount r) none, cs⟩]
  | .group r, cs => (ways r cs).map fun w => ⟨w.used, some w.used :: w.groups, w.rest⟩

/-- The groups of the first way that takes the whole text. -/
def exec (r : Pattern) (cs : List Char) : Option Groups :=
  ((ways r cs).find? (·.rest = [])).map (·.groups)

/-! ## Meaning -/

/-- A text matches a pattern with these groups. -/
def Matches : Pattern → List Char → Groups → Prop
  | .char p, u, g => ∃ c, u = [c] ∧ p c ∧ g = []
  | .repeated p lo hi, u, g => (∀ c ∈ u, p c) ∧ lo ≤ u.length ∧ (∀ h ∈ hi, u.length ≤ h) ∧ g = []
  | .seq r s, u, g => ∃ u₁ g₁ u₂ g₂, Matches r u₁ g₁ ∧ Matches s u₂ g₂ ∧ u = u₁ ++ u₂ ∧ g = g₁ ++ g₂
  | .optional r, u, g => (u ≠ [] ∧ Matches r u g) ∨ (u = [] ∧ g = List.replicate (groupCount r) none)
  | .group r, u, g => ∃ g', Matches r u g' ∧ g = some u :: g'

theorem matches_literal {c : Char} {u : List Char} {g : Groups} :
    Matches (literal c) u g ↔ u = [c] ∧ g = [] := by
  constructor
  · rintro ⟨d, rfl, hd, rfl⟩
    rw [eq_of_beq hd]
    exact ⟨rfl, rfl⟩
  · rintro ⟨rfl, rfl⟩
    exact ⟨c, rfl, beq_self_eq_true c, rfl⟩

theorem matches_group_repeated {p : Char → Bool} {lo : ℕ} {hi : Option ℕ} {u : List Char} {g : Groups} :
    Matches (.group (.repeated p lo hi)) u g ↔
      ((∀ c ∈ u, p c) ∧ lo ≤ u.length ∧ ∀ h ∈ hi, u.length ≤ h) ∧ g = [some u] := by
  constructor
  · rintro ⟨g', ⟨hall, hlo, hhi, rfl⟩, rfl⟩
    exact ⟨⟨hall, hlo, hhi⟩, rfl⟩
  · rintro ⟨⟨hall, hlo, hhi⟩, rfl⟩
    exact ⟨[], ⟨hall, hlo, hhi, rfl⟩, rfl⟩

theorem Matches.append {r s : Pattern} {u v : List Char} {g h : Groups} (hr : Matches r u g)
    (hs : Matches s v h) : Matches (r ++ s) (u ++ v) (g ++ h) :=
  ⟨u, g, v, h, hr, hs, rfl, rfl⟩

theorem Matches.append_literal {r : Pattern} {u : List Char} {g : Groups} (hr : Matches r u g)
    (c : Char) : Matches (r ++ literal c) (u ++ [c]) g :=
  ⟨u, g, [c], [], hr, matches_literal.mpr ⟨rfl, rfl⟩, rfl, (List.append_nil g).symm⟩

theorem Matches.append_group {r : Pattern} {p : Char → Bool} {lo : ℕ} {hi : Option ℕ} {u v : List Char}
    {g : Groups} (hr : Matches r u g) (hv : (∀ c ∈ v, p c) ∧ lo ≤ v.length ∧ ∀ k ∈ hi, v.length ≤ k) :
    Matches (r ++ .group (.repeated p lo hi)) (u ++ v) (g ++ [some v]) :=
  hr.append (matches_group_repeated.mpr ⟨hv, rfl⟩)

/-- A character between two parts leaves no group. -/
theorem matches_append_literal {r : Pattern} {c : Char} {u : List Char} {g : Groups} :
    Matches (r ++ literal c) u g ↔ ∃ v, Matches r v g ∧ u = v ++ [c] := by
  constructor
  · rintro ⟨v, h, w, h', hr, hc, rfl, rfl⟩
    obtain ⟨rfl, rfl⟩ := matches_literal.mp hc
    rw [List.append_nil]
    exact ⟨v, hr, rfl⟩
  · rintro ⟨v, hr, rfl⟩
    exact hr.append_literal c

/-- A group of a class behind a pattern. -/
theorem matches_append_group {r : Pattern} {p : Char → Bool} {lo : ℕ} {hi : Option ℕ} {u : List Char}
    {g : Groups} : Matches (r ++ .group (.repeated p lo hi)) u g ↔
      ∃ v h w, Matches r v h ∧ ((∀ c ∈ w, p c) ∧ lo ≤ w.length ∧ ∀ k ∈ hi, w.length ≤ k) ∧
        u = v ++ w ∧ g = h ++ [some w] := by
  constructor
  · rintro ⟨v, h, w, h', hr, hw, rfl, rfl⟩
    obtain ⟨hclass, rfl⟩ := matches_group_repeated.mp hw
    exact ⟨v, h, w, hr, hclass, rfl, rfl⟩
  · rintro ⟨v, h, w, hr, hclass, rfl, rfl⟩
    exact hr.append_group hclass

/-! ## The matcher -/

/-- A prefix lies in a class when the longest prefix of the class reaches over it. -/
theorem forall_mem_iff_le_takeWhile {p : Char → Bool} {u rest : List Char} :
    (∀ c ∈ u, p c) ↔ u.length ≤ ((u ++ rest).takeWhile p).length := by
  induction u with
  | nil => simp
  | cons c u ih =>
      rw [List.forall_mem_cons, List.cons_append, List.takeWhile_cons]
      by_cases hc : p c
      · rw [if_pos hc, List.length_cons, List.length_cons, ih]
        simp [hc]
      · rw [if_neg hc]
        simp [hc]

theorem mem_ways_repeated {p : Char → Bool} {lo : ℕ} {hi : Option ℕ} {cs : List Char} {w : Way} :
    w ∈ ways (.repeated p lo hi) cs ↔
      cs = w.used ++ w.rest ∧ Matches (.repeated p lo hi) w.used w.groups := by
  have htop : ∀ k, k ∈ List.range (hi.elim (cs.takeWhile p).length (min (cs.takeWhile p).length) + 1) ↔
      k ≤ (cs.takeWhile p).length ∧ ∀ h ∈ hi, k ≤ h := by
    intro k
    rw [List.mem_range, Nat.lt_succ_iff]
    cases hi with
    | none => simp
    | some h =>
        rw [Option.elim_some, Nat.le_min]
        simp
  simp only [ways, List.mem_map, List.mem_filter, List.mem_reverse, htop, decide_eq_true_eq]
  constructor
  · rintro ⟨k, ⟨⟨hmost, hhi⟩, hlo⟩, rfl⟩
    have hlen : (cs.take k).length = k :=
      List.length_take_of_le (hmost.trans (List.takeWhile_sublist p).length_le)
    have hclass : ∀ c ∈ cs.take k, p c := by
      apply (@forall_mem_iff_le_takeWhile p (cs.take k) (cs.drop k)).mpr
      rwa [List.take_append_drop, hlen]
    exact ⟨(List.take_append_drop k cs).symm, hclass, hlen.symm ▸ hlo, hlen.symm ▸ hhi, rfl⟩
  · obtain ⟨used, groups, rest⟩ := w
    rintro ⟨rfl, hclass, hlo, hhi, hgroups⟩
    dsimp only at hgroups
    subst hgroups
    refine ⟨used.length, ⟨⟨forall_mem_iff_le_takeWhile.mp hclass, hhi⟩, hlo⟩, ?_⟩
    simp

theorem mem_ways_char {p : Char → Bool} {cs : List Char} {w : Way} :
    w ∈ ways (.char p) cs ↔ cs = w.used ++ w.rest ∧ Matches (.char p) w.used w.groups := by
  obtain ⟨used, groups, rest⟩ := w
  cases cs with
  | nil =>
      apply iff_of_false
      · intro h
        cases h
      · rintro ⟨h, c, rfl, -⟩
        cases h
  | cons c cs =>
      simp only [ways]
      constructor
      · intro h
        split at h
        · rename_i hc
          cases List.mem_singleton.mp h
          exact ⟨rfl, c, rfl, hc, rfl⟩
        · cases h
      · rintro ⟨h, d, rfl, hd, rfl⟩
        obtain ⟨rfl, rfl⟩ := List.cons.inj h
        rw [if_pos hd]
        exact List.mem_singleton_self _

/-- The matcher finds every way to match a prefix and no other. -/
theorem mem_ways {r : Pattern} {cs : List Char} {w : Way} :
    w ∈ ways r cs ↔ cs = w.used ++ w.rest ∧ Matches r w.used w.groups := by
  induction r generalizing cs w with
  | char p => exact mem_ways_char
  | repeated p lo hi => exact mem_ways_repeated
  | seq r s ihr ihs =>
      simp only [ways, List.mem_flatMap, List.mem_map, ihr, ihs]
      constructor
      · rintro ⟨a, ⟨rfl, hr⟩, b, ⟨hrest, hs⟩, rfl⟩
        refine ⟨?_, a.used, a.groups, b.used, b.groups, hr, hs, rfl, rfl⟩
        rw [hrest, Way.andThen, List.append_assoc]
      · obtain ⟨used, groups, rest⟩ := w
        rintro ⟨rfl, u₁, g₁, u₂, g₂, hr, hs, rfl, rfl⟩
        refine ⟨⟨u₁, g₁, u₂ ++ rest⟩, ⟨?_, hr⟩, ⟨u₂, g₂, rest⟩, ⟨rfl, hs⟩, rfl⟩
        exact List.append_assoc _ _ _
  | optional r ih =>
      obtain ⟨used, groups, rest⟩ := w
      simp only [ways, List.mem_append, List.mem_filter, ih, List.mem_singleton, Matches,
        decide_eq_true_eq]
      constructor
      · rintro (⟨⟨hcs, hr⟩, hne⟩ | h)
        · exact ⟨hcs, .inl ⟨hne, hr⟩⟩
        · cases h
          exact ⟨rfl, .inr ⟨rfl, rfl⟩⟩
      · rintro ⟨rfl, ⟨hne, hr⟩ | ⟨rfl, rfl⟩⟩
        · exact .inl ⟨⟨rfl, hr⟩, hne⟩
        · exact .inr rfl
  | group r ih =>
      simp only [ways, List.mem_map, ih]
      constructor
      · rintro ⟨a, ⟨rfl, hr⟩, rfl⟩
        exact ⟨rfl, a.groups, hr, rfl⟩
      · obtain ⟨used, groups, rest⟩ := w
        rintro ⟨rfl, g, hr, hg⟩
        dsimp only at hg
        subst hg
        exact ⟨⟨used, g, rest⟩, ⟨rfl, hr⟩, rfl⟩

theorem matches_of_exec {r : Pattern} {cs : List Char} {g : Groups} (h : exec r cs = some g) :
    Matches r cs g := by
  obtain ⟨w, hfind, rfl⟩ := Option.map_eq_some_iff.mp h
  obtain ⟨hcs, hmatch⟩ := mem_ways.mp (List.mem_of_find?_eq_some hfind)
  have hrest : w.rest = [] := by simpa using List.find?_some hfind
  rwa [hcs, hrest, List.append_nil]

theorem exec_isSome {r : Pattern} {cs : List Char} {g : Groups} (h : Matches r cs g) :
    (exec r cs).isSome := by
  rw [exec, Option.isSome_map, List.find?_isSome]
  refine ⟨⟨cs, g, []⟩, mem_ways.mpr ⟨(List.append_nil cs).symm, h⟩, ?_⟩
  exact decide_eq_true rfl

/-- Where a text matches in one way, the groups of the match are those of the matcher. -/
theorem exec_eq_some_iff {r : Pattern} {cs : List Char} {g : Groups}
    (hunique : ∀ g g', Matches r cs g → Matches r cs g' → g = g') :
    exec r cs = some g ↔ Matches r cs g := by
  refine ⟨matches_of_exec, ?_⟩
  intro h
  obtain ⟨g', hg'⟩ := Option.isSome_iff_exists.mp (exec_isSome h)
  rw [hg', hunique g' g (matches_of_exec hg') h]

/-! ## One way to match -/

/-- A text is taken apart in one way where the first part lies in a class and the character behind it,
if there is one, does not. -/
theorem span_unique {p : Char → Bool} {u u' v v' : List Char} (hu : ∀ c ∈ u, p c)
    (hu' : ∀ c ∈ u', p c) (hv : ∀ c ∈ v.head?, p c = false) (hv' : ∀ c ∈ v'.head?, p c = false)
    (h : u ++ v = u' ++ v') : u = u' ∧ v = v' := by
  have htake : ∀ w z : List Char, (∀ c ∈ w, p c) → (∀ c ∈ z.head?, p c = false) →
      (w ++ z).takeWhile p = w := by
    intro w z hw hz
    rw [List.takeWhile_append_of_pos hw]
    cases z with
    | nil => exact List.append_nil w
    | cons c z => rw [List.takeWhile_cons_of_neg (by simp [hz c rfl]), List.append_nil]
  have heq : u = u' := by
    rw [← htake u v hu hv, h, htake u' v' hu' hv']
  subst heq
  exact ⟨rfl, List.append_cancel_left h⟩

end Pattern
