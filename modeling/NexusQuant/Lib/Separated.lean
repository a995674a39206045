import Mathlib.Data.List.Basic

/-!
# Separated lists

The items of a list are written with a separator between them and a closing token behind the last one.  A
reader of one item gives a reader of such lists, which reads back what was written.
-/

namespace Separated

variable {τ α β : Type}

/-- The texts of the items, separated and closed. -/
def closeList (comma close : τ) : List (List τ) → List τ
  | [] => [close]
  | [item] => item ++ [close]
  | item :: items => item ++ comma :: closeList comma close items

section Reading

variable [DecidableEq τ] (skip : List τ → List τ) (item : List τ → Option (α × List τ)) (comma close : τ)

/-- One item, then either the closing token or a separator and more items. -/
def readItems : ℕ → List τ → Option (List α × List τ)
  | 0, _ => none
  | fuel + 1, ts =>
      (item ts).bind fun r =>
        -- The fuel is spent on items, and there are at most as many as tokens.
        match skip r.2 with
        | [] => none
        | t :: rest =>
            if t = close then some ([r.1], rest)
            else if t = comma then (readItems fuel rest).map fun rs => (r.1 :: rs.1, rs.2)
            else none

def readList (ts : List τ) : Option (List α × List τ) :=
  match skip ts with
  | [] => none
  | t :: rest => if t = close then some ([], rest) else readItems skip item comma close ts.length ts

end Reading

section Writing

variable {comma close : τ} {items : List (List τ)} {item : List τ}

theorem closeList_cons_cons (i j : List τ) (is : List (List τ)) :
    closeList comma close (i :: j :: is) = i ++ comma :: closeList comma close (j :: is) := rfl

theorem length_lt_closeList (h : item ∈ items) : item.length < (closeList comma close items).length := by
  -- Each item has at least a separator or the closing token behind it.
  induction items with
  | nil => cases h
  | cons i is ih =>
      cases is with
      | nil =>
          rw [List.mem_singleton.mp h, closeList, List.length_append]
          exact Nat.lt_succ_self _
      | cons j js =>
          rw [closeList_cons_cons, List.length_append, List.length_cons]
          rcases List.mem_cons.mp h with rfl | h
          · omega
          · have := ih h
            omega

theorem length_le_length_closeList (items : List (List τ)) :
    items.length ≤ (closeList comma close items).length := by
  induction items with
  | nil => exact Nat.zero_le _
  | cons i is ih =>
      cases is with
      | nil => rw [closeList, List.length_append]; exact Nat.le_add_left _ _
      | cons j js =>
          simp only [List.length_cons, closeList_cons_cons, List.length_append] at ih ⊢
          omega

theorem closeList_eq_append (items : List (List τ)) : ∃ ts, closeList comma close items = ts ++ [close] := by
  induction items with
  | nil => exact ⟨[], rfl⟩
  | cons i is ih =>
      cases is with
      | nil => exact ⟨i, rfl⟩
      | cons j js =>
          obtain ⟨ts, hts⟩ := ih
          exact ⟨i ++ comma :: ts, by rw [closeList_cons_cons, hts, List.append_assoc]; rfl⟩

theorem notMem_closeList {t : τ} (hcomma : t ≠ comma) (hclose : t ≠ close)
    (h : ∀ item ∈ items, t ∉ item) : t ∉ closeList comma close items := by
  induction items with
  | nil => exact fun hmem => hclose (List.mem_singleton.mp hmem)
  | cons i is ih =>
      have hi := h i List.mem_cons_self
      cases is with
      | nil =>
          intro hmem
          rcases List.mem_append.mp hmem with hmem | hmem
          · exact hi hmem
          · exact hclose (List.mem_singleton.mp hmem)
      | cons j js =>
          rw [closeList_cons_cons]
          intro hmem
          rcases List.mem_append.mp hmem with hmem | hmem
          · exact hi hmem
          · rcases List.mem_cons.mp hmem with hmem | hmem
            · exact hcomma hmem
            · exact ih (fun k hk => h k (List.mem_cons_of_mem i hk)) hmem

end Writing

/-! ## Reading what was written -/

section RoundTrip

variable [DecidableEq τ] {skip : List τ → List τ} {item : List τ → Option (α × List τ)} {comma close : τ}
  {write : β → List τ} {value : β → α} {follows : List τ → Prop}

theorem readItems_closeList (hclose : ∀ r, skip (close :: r) = close :: r)
    (hcomma : ∀ r, skip (comma :: r) = comma :: r) (hne : close ≠ comma) (hends : ∀ r, follows (close :: r))
    (hgoes : ∀ r, follows (comma :: r)) {xs : List β} (hxs : xs ≠ [])
    (hitem : ∀ x ∈ xs, ∀ r, follows r → item (write x ++ r) = some (value x, r)) (r : List τ) {fuel : ℕ}
    (hfuel : xs.length ≤ fuel) :
    readItems skip item comma close fuel (closeList comma close (xs.map write) ++ r) =
      some (xs.map value, r) := by
  induction xs generalizing fuel with
  | nil => exact absurd rfl hxs
  | cons x xs ih =>
      obtain ⟨fuel, rfl⟩ : ∃ k, fuel = k + 1 := ⟨fuel - 1, by simp at hfuel; omega⟩
      have hx := hitem x List.mem_cons_self
      cases xs with
      | nil =>
          rw [readItems, List.map_singleton, closeList, List.append_assoc, List.singleton_append,
            hx _ (hends r), Option.bind_some]
          dsimp only
          rw [hclose]
          exact if_pos rfl
      -- After an item comes the separator; after the last one the closing token.
      | cons y ys =>
          have hrest := ih (List.cons_ne_nil y ys) (fun z hz => hitem z (List.mem_cons_of_mem x hz))
            (Nat.le_of_succ_le_succ hfuel)
          rw [readItems, List.map_cons, List.map_cons, closeList_cons_cons, ← List.map_cons,
            List.append_assoc, List.cons_append, hx _ (hgoes _), Option.bind_some]
          dsimp only
          rw [hcomma]
          dsimp only
          rw [if_neg hne.symm, if_pos rfl, hrest]
          rfl

/-- Where no text of an item begins with white space or the closing token. -/
theorem readList_closeList (hclose : ∀ r, skip (close :: r) = close :: r)
    (hcomma : ∀ r, skip (comma :: r) = comma :: r) (hne : close ≠ comma) (hends : ∀ r, follows (close :: r))
    (hgoes : ∀ r, follows (comma :: r)) {xs : List β}
    (hitem : ∀ x ∈ xs, ∀ r, follows r → item (write x ++ r) = some (value x, r))
    (hopens : ∀ x ∈ xs, ∃ t ts, write x = t :: ts ∧ t ≠ close ∧ ∀ r, skip (t :: r) = t :: r) (r : List τ) :
    readList skip item comma close (closeList comma close (xs.map write) ++ r) = some (xs.map value, r) := by
  cases xs with
  | nil =>
      rw [List.map_nil, closeList, List.singleton_append, readList, hclose]
      exact if_pos rfl
  | cons x xs =>
      have hlen : (x :: xs).length ≤ (closeList comma close ((x :: xs).map write) ++ r).length := by
        have hcount := @length_le_length_closeList τ comma close ((x :: xs).map write)
        rw [List.length_map] at hcount
        rw [List.length_append]
        omega
      have hread := readItems_closeList hclose hcomma hne hends hgoes (List.cons_ne_nil x xs) hitem r hlen
      -- The text of the first item decides the branch.
      obtain ⟨t, ts, htext, hopen, hskip⟩ := hopens x List.mem_cons_self
      have hhead : ∃ ts', closeList comma close ((x :: xs).map write) ++ r = t :: ts' := by
        cases xs with
        | nil => exact ⟨_, by rw [List.map_singleton, closeList, htext]; rfl⟩
        | cons y ys => exact ⟨_, by rw [List.map_cons, List.map_cons, closeList_cons_cons, htext]; rfl⟩
      obtain ⟨ts', hts'⟩ := hhead
      rw [hts'] at hread ⊢
      rw [readList, hskip]
      exact (if_neg hopen).trans hread

end RoundTrip

end Separated
