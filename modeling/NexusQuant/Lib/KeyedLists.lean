import Mathlib.Data.List.Nodup

/-!
# Lists of named results

A list whose entries have distinct names, each giving at most one result that carries its name: the
list of the results says what every entry gave.
-/

namespace KeyedLists

variable {α β γ κ : Type*} {name : α → κ} {other : γ → κ}

section Image

variable {δ : Type*} {f : α → δ} {g : γ → δ} {as : List α} {bs : List γ}

/-- Where the image tells the name, two lists with one image have the same names. -/
theorem names_eq_of_map_eq (hname : ∀ a b, f a = g b → name a = other b)
    (h : as.map f = bs.map g) : as.map name = bs.map other := by
  induction as generalizing bs with
  | nil =>
      rw [List.map_nil, eq_comm, List.map_eq_nil_iff] at h
      rw [h]
      rfl
  | cons a as ih =>
      cases bs with
      | nil => cases h
      | cons b bs =>
          rw [List.map_cons, List.map_cons] at h
          obtain ⟨hhead, htail⟩ := List.cons.inj h
          rw [List.map_cons, List.map_cons, hname a b hhead, ih htail]

/-- Two lists with one image agree in it at every name. -/
theorem eq_of_map_eq (hname : ∀ a b, f a = g b → name a = other b) (hnodup : (as.map name).Nodup)
    (h : as.map f = bs.map g) : ∀ a ∈ as, ∀ b ∈ bs, name a = other b → f a = g b := by
  intro a ha b hb hab
  have hmem : g b ∈ as.map f := by
    rw [h]
    exact List.mem_map_of_mem hb
  obtain ⟨a', ha', heq⟩ := List.mem_map.mp hmem
  have hsame : a = a' := List.inj_on_of_nodup_map hnodup ha ha' (hab.trans (hname a' b heq).symm)
  rw [hsame, heq]

end Image

variable {f : α → Option β} {g : γ → Option β} {label : β → κ}

/-- No entry of a list gives a result under a name the list does not have. -/
theorem not_mem_filterMap {as : List α} (hf : ∀ a ∈ as, ∀ r ∈ f a, label r = name a) {r : β}
    (hr : label r ∉ as.map name) : r ∉ as.filterMap f := by
  intro hmem
  obtain ⟨a, ha, hfa⟩ := List.mem_filterMap.mp hmem
  apply hr
  rw [hf a ha r hfa]
  exact List.mem_map_of_mem ha

/-- Two lists with the same distinct names give one list of results exactly where entries of one name
give one result. -/
theorem filterMap_eq_iff {as : List α} {bs : List γ} (hnames : as.map name = bs.map other)
    (hnodup : (as.map name).Nodup) (hf : ∀ a ∈ as, ∀ r ∈ f a, label r = name a)
    (hg : ∀ b ∈ bs, ∀ r ∈ g b, label r = other b) :
    as.filterMap f = bs.filterMap g ↔ ∀ a ∈ as, ∀ b ∈ bs, name a = other b → f a = g b := by
  induction as generalizing bs with
  | nil =>
      rw [List.map_nil, eq_comm, List.map_eq_nil_iff] at hnames
      simp [hnames]
  | cons a as ih =>
      cases bs with
      | nil => cases hnames
      | cons b bs =>
          rw [List.map_cons, List.map_cons] at hnames
          obtain ⟨hhead, htail⟩ := List.cons.inj hnames
          rw [List.map_cons, List.nodup_cons] at hnodup
          have hf' := fun x hx => hf x (List.mem_cons_of_mem a hx)
          have hg' := fun x hx => hg x (List.mem_cons_of_mem b hx)
          have hrest := ih htail hnodup.2 hf' hg'
          -- A result that only one head has would have to reappear further down.
          have hnotf : ∀ r ∈ g b, r ∉ as.filterMap f := fun r hr =>
            not_mem_filterMap hf' (by rw [hg b List.mem_cons_self r hr, ← hhead]; exact hnodup.1)
          have hnotg : ∀ r ∈ f a, r ∉ bs.filterMap g := fun r hr =>
            not_mem_filterMap hg' (by rw [hf a List.mem_cons_self r hr, ← htail]; exact hnodup.1)
          have hcons : (a :: as).filterMap f = (b :: bs).filterMap g ↔
              f a = g b ∧ as.filterMap f = bs.filterMap g := by
            cases hfa : f a with
            | none =>
                rw [List.filterMap_cons_none hfa]
                cases hgb : g b with
                | none => simp [List.filterMap_cons_none hgb]
                | some r =>
                    rw [List.filterMap_cons_some hgb]
                    apply iff_of_false
                    · intro heq
                      exact hnotf r hgb (heq ▸ List.mem_cons_self)
                    · exact fun h => nomatch h.1
            | some r =>
                rw [List.filterMap_cons_some hfa]
                cases hgb : g b with
                | none =>
                    rw [List.filterMap_cons_none hgb]
                    apply iff_of_false
                    · intro heq
                      exact hnotg r hfa (heq ▸ List.mem_cons_self)
                    · exact fun h => nomatch h.1
                | some s => simp [List.filterMap_cons_some hgb]
          rw [hcons, hrest]
          constructor
          · rintro ⟨hab, h⟩ x hx y hy hname
            rcases List.mem_cons.mp hx with rfl | hx
            · rcases List.mem_cons.mp hy with rfl | hy
              · exact hab
              · exact absurd (List.mem_map.mpr ⟨y, hy, hname.symm⟩) (htail ▸ hnodup.1)
            · rcases List.mem_cons.mp hy with rfl | hy
              · exact absurd (List.mem_map.mpr ⟨x, hx, hname.trans hhead.symm⟩) hnodup.1
              · exact h x hx y hy hname
          · intro h
            exact ⟨h a List.mem_cons_self b List.mem_cons_self hhead,
              fun x hx y hy => h x (List.mem_cons_of_mem a hx) y (List.mem_cons_of_mem b hy)⟩

end KeyedLists
