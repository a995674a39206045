import Mathlib.Data.List.Lex
import Mathlib.Tactic.NormNum

/-!
# UTF-16

The code units of a text, which is what a string of JavaScript is made of and compared by.  Two texts with
the same code units are the same text.
-/

namespace Utf16

/-- The code units of a character, two of them beyond the basic plane. -/
def units (c : Char) : List ℕ :=
  if c.toNat < 0x10000 then [c.toNat]
  else [0xd800 + (c.toNat - 0x10000) / 0x400, 0xdc00 + (c.toNat - 0x10000) % 0x400]

def encode (text : String) : List ℕ := text.toList.flatMap units

/-- `text.length`. -/
def length (text : String) : ℕ := (encode text).length

/-- A character is no surrogate. -/
theorem toNat_cases (c : Char) : c.toNat < 0xd800 ∨ 0xdfff < c.toNat ∧ c.toNat < 0x110000 := c.valid

theorem units_append_inj {c d : Char} {cs ds : List ℕ} (h : units c ++ cs = units d ++ ds) :
    c = d ∧ cs = ds := by
  have hc := toNat_cases c
  have hd := toNat_cases d
  have hsame : c.toNat = d.toNat → c = d := fun heq => Char.toNat_inj.mp heq
  unfold units at h
  split at h
  · split at h
    · simp only [List.cons_append, List.nil_append, List.cons.injEq] at h
      exact ⟨hsame h.1, h.2⟩
    · simp only [List.cons_append, List.nil_append, List.cons.injEq] at h
      omega
  · split at h
    · simp only [List.cons_append, List.nil_append, List.cons.injEq] at h
      omega
    · simp only [List.cons_append, List.nil_append, List.cons.injEq] at h
      obtain ⟨hhigh, hlow, hrest⟩ := h
      refine ⟨hsame ?_, hrest⟩
      have hcdiv := Nat.div_add_mod (c.toNat - 0x10000) 0x400
      have hddiv := Nat.div_add_mod (d.toNat - 0x10000) 0x400
      omega

theorem units_ne_nil (c : Char) : units c ≠ [] := by
  unfold units
  split
  · exact List.cons_ne_nil _ _
  · exact List.cons_ne_nil _ _

theorem encode_injective {s t : String} (h : encode s = encode t) : s = t := by
  have hlists : ∀ cs ds : List Char, cs.flatMap units = ds.flatMap units → cs = ds := by
    intro cs
    induction cs with
    | nil =>
        intro ds hds
        cases ds with
        | nil => rfl
        | cons d ds =>
            rw [List.flatMap_cons, List.flatMap_nil, eq_comm, List.append_eq_nil_iff] at hds
            exact absurd hds.1 (units_ne_nil d)
    | cons c cs ih =>
        intro ds hds
        cases ds with
        | nil =>
            rw [List.flatMap_cons, List.flatMap_nil, List.append_eq_nil_iff] at hds
            exact absurd hds.1 (units_ne_nil c)
        | cons d ds =>
            rw [List.flatMap_cons, List.flatMap_cons] at hds
            obtain ⟨rfl, hrest⟩ := units_append_inj hds
            rw [ih ds hrest]
  exact String.toList_injective (hlists _ _ h)

end Utf16
