import Mathlib.Data.List.Basic

/-!
# Runs of a deterministic step function

A system is a step function `σ → ι → σ`.  `run` feeds it a list of inputs, `RunMeets` says that
every input of a run met a condition on the state it was applied to, and `run_invariant` is the one
induction every safety result about a system goes through.
-/

namespace Run

variable {σ ι : Type*}

/-- The state a system reaches from `s` on the inputs `is`. -/
def run (step : σ → ι → σ) (s : σ) (is : List ι) : σ :=
  is.foldl step s

/-- Every input of the run meets `P` in the state it is applied to. -/
def RunMeets (step : σ → ι → σ) (P : σ → ι → Prop) : σ → List ι → Prop
  | _, [] => True
  | s, i :: is => P s i ∧ RunMeets step P (step s i) is

instance instDecidableRunMeets (step : σ → ι → σ) (P : σ → ι → Prop) [∀ s i, Decidable (P s i)] :
    ∀ (s : σ) (is : List ι), Decidable (RunMeets step P s is)
  | _, [] => .isTrue trivial
  | s, i :: is =>
      have := instDecidableRunMeets step P (step s i) is
      inferInstanceAs (Decidable (P s i ∧ RunMeets step P (step s i) is))

variable {step : σ → ι → σ} {P Q : σ → ι → Prop} {s : σ}

@[simp] theorem run_nil : run step s [] = s := rfl

@[simp] theorem run_cons (i : ι) (is : List ι) : run step s (i :: is) = run step (step s i) is := rfl

theorem run_append (is js : List ι) : run step s (is ++ js) = run step (run step s is) js :=
  List.foldl_append

theorem RunMeets.of_append {is js : List ι} (h : RunMeets step P s (is ++ js)) :
    RunMeets step P s is := by
  induction is generalizing s with
  | nil => trivial
  | cons i is ih => exact ⟨h.1, ih h.2⟩

theorem RunMeets.of_append_right {is js : List ι} (h : RunMeets step P s (is ++ js)) :
    RunMeets step P (run step s is) js := by
  induction is generalizing s with
  | nil => exact h
  | cons i is ih => exact ih h.2

theorem runMeets_append {is js : List ι} :
    RunMeets step P s (is ++ js) ↔ RunMeets step P s is ∧ RunMeets step P (run step s is) js := by
  constructor
  · exact fun h => ⟨h.of_append, h.of_append_right⟩
  · rintro ⟨his, hjs⟩
    induction is generalizing s with
    | nil => exact hjs
    | cons i is ih => exact ⟨his.1, ih his.2 hjs⟩

theorem RunMeets.and {is : List ι} (hp : RunMeets step P s is) (hq : RunMeets step Q s is) :
    RunMeets step (fun s i => P s i ∧ Q s i) s is := by
  induction is generalizing s with
  | nil => trivial
  | cons i is ih => exact ⟨⟨hp.1, hq.1⟩, ih hp.2 hq.2⟩

theorem runMeets_of_forall {is : List ι} (h : ∀ i ∈ is, ∀ s, P s i) : RunMeets step P s is := by
  induction is generalizing s with
  | nil => trivial
  | cons i is ih =>
      exact ⟨h i List.mem_cons_self s, ih fun j hj => h j (List.mem_cons_of_mem i hj)⟩

/-- What every admissible step keeps holds at the end of every admissible run. -/
theorem run_invariant {Inv : σ → Prop} (hstep : ∀ s i, Inv s → P s i → Inv (step s i))
    {is : List ι} (h0 : Inv s) (h : RunMeets step P s is) : Inv (run step s is) := by
  induction is generalizing s with
  | nil => exact h0
  | cons i is ih => exact ih (hstep s i h0 h.1) h.2

/-- What every step keeps holds at the end of every run. -/
theorem run_keeps {Inv : σ → Prop} (hstep : ∀ s i, Inv s → Inv (step s i)) (h0 : Inv s)
    (is : List ι) : Inv (run step s is) :=
  run_invariant (P := fun _ _ => True) (fun s i h _ => hstep s i h) h0
    (runMeets_of_forall fun _ _ _ => trivial)

/-- Two conditions that agree wherever an invariant holds are met by the same runs. -/
theorem runMeets_congr {Inv : σ → Prop} (hstep : ∀ s i, Inv s → Inv (step s i))
    (hiff : ∀ s i, Inv s → (P s i ↔ Q s i)) {is : List ι} (h0 : Inv s) :
    RunMeets step P s is ↔ RunMeets step Q s is := by
  induction is generalizing s with
  | nil => exact Iff.rfl
  | cons i is ih => exact and_congr (hiff s i h0) (ih (hstep s i h0))

/-- Where an admissible step keeps an invariant exactly when it meets a condition, the invariant holds
after every part of an admissible run exactly when the run meets the condition. -/
theorem RunMeets.forall_prefix_iff {Inv : σ → Prop} {is : List ι} (hmeets : RunMeets step Q s is)
    (h0 : Inv s) (hstep : ∀ s i, Inv s → Q s i → (Inv (step s i) ↔ P s i)) :
    (∀ done, done <+: is → Inv (run step s done)) ↔ RunMeets step P s is := by
  induction is generalizing s with
  | nil =>
      refine ⟨fun _ => trivial, fun _ done hdone => ?_⟩
      rw [List.prefix_nil.mp hdone]
      exact h0
  | cons i is ih =>
      constructor
      · intro h
        have hnext : Inv (step s i) := h [i] ⟨is, rfl⟩
        refine ⟨(hstep s i h0 hmeets.1).mp hnext, (ih hmeets.2 hnext).mp fun done hdone => ?_⟩
        exact h (i :: done) (List.cons_prefix_cons.mpr ⟨rfl, hdone⟩)
      · intro h done hdone
        have hnext := (hstep s i h0 hmeets.1).mpr h.1
        cases done with
        | nil => exact h0
        | cons j done =>
            obtain ⟨rfl, hrest⟩ := List.cons_prefix_cons.mp hdone
            exact (ih hmeets.2 hnext).mpr h.2 done hrest

/-- Where a step keeps an invariant exactly when it meets a condition, the invariant holds after every
part of a run exactly when the run meets the condition. -/
theorem forall_prefix_iff {Inv : σ → Prop} (h0 : Inv s)
    (hstep : ∀ s i, Inv s → (Inv (step s i) ↔ P s i)) {is : List ι} :
    (∀ done, done <+: is → Inv (run step s done)) ↔ RunMeets step P s is :=
  RunMeets.forall_prefix_iff (Q := fun _ _ => True) (runMeets_of_forall fun _ _ _ => trivial) h0
    fun s i h _ => hstep s i h

/-! ## Relations along a run -/

section Relation

variable {R : σ → σ → Prop}

/-- What relates a state to the next one at every step relates the first state to the last. -/
theorem RunMeets.rel_run (hrefl : ∀ a, R a a) (htrans : ∀ a b c, R a b → R b c → R a c)
    {is : List ι} (h : RunMeets step (fun a i => R a (step a i)) s is) : R s (run step s is) := by
  induction is generalizing s with
  | nil => exact hrefl s
  | cons i is ih => exact htrans _ _ _ h.1 (ih h.2)

/-- A preorder holds between any two states of a run, the earlier one first, exactly when every step
keeps it. -/
theorem forall_prefixes_rel_iff (hrefl : ∀ a, R a a) (htrans : ∀ a b c, R a b → R b c → R a c)
    {is : List ι} :
    (∀ earlier later, earlier <+: later → later <+: is →
      R (run step s earlier) (run step s later)) ↔
    RunMeets step (fun a i => R a (step a i)) s is := by
  constructor
  · intro h
    induction is generalizing s with
    | nil => trivial
    | cons i is ih =>
        refine ⟨h [] [i] List.nil_prefix ⟨is, rfl⟩, ih fun earlier later hle hpart => ?_⟩
        exact h (i :: earlier) (i :: later) (List.cons_prefix_cons.mpr ⟨rfl, hle⟩)
          (List.cons_prefix_cons.mpr ⟨rfl, hpart⟩)
  · intro h earlier later hle hpart
    obtain ⟨between, rfl⟩ := hle
    obtain ⟨rest, rfl⟩ := hpart
    rw [run_append]
    exact RunMeets.rel_run hrefl htrans h.of_append.of_append_right

end Relation

/-! ## What once held -/

/-- `P` held after some part of the run. -/
def Past (step : σ → ι → σ) (s : σ) (is : List ι) (P : σ → Prop) : Prop :=
  ∃ done, done <+: is ∧ P (run step s done)

theorem Past.append {is : List ι} {P : σ → Prop} (h : Past step s is P) (js : List ι) :
    Past step s (is ++ js) P := by
  obtain ⟨done, hdone, h⟩ := h
  exact ⟨done, hdone.trans (List.prefix_append is js), h⟩

/-- What every step keeps, given what the run has been so far, holds at the end of every run. -/
theorem run_history {Inv : List ι → σ → Prop} (h0 : Inv [] s)
    (hstep : ∀ done i, Inv done (run step s done) →
      Inv (done ++ [i]) (step (run step s done) i))
    (is : List ι) : Inv is (run step s is) := by
  have hfrom : ∀ rest done, Inv done (run step s done) →
      Inv (done ++ rest) (run step s (done ++ rest)) := by
    intro rest
    induction rest with
    | nil =>
        intro done h
        rwa [List.append_nil]
    | cons i rest ih =>
        intro done h
        have hnext := hstep done i h
        rw [List.append_cons]
        exact ih (done ++ [i]) (by rwa [run_append])
  exact hfrom is [] h0

/-! ## Histories -/

/-- What holds at every position of a history, of the entry and of what came before it, holds after
one more entry. -/
theorem forall_getElem?_concat {α : Type*} {P : ℕ → α → List α → Prop} {visited : List α} {a : α}
    (hold : ∀ (k : ℕ) (b : α), visited[k]? = some b → P k b (visited.take k))
    (hnew : P visited.length a visited) :
    ∀ (k : ℕ) (b : α), (visited ++ [a])[k]? = some b → P k b ((visited ++ [a]).take k) := by
  intro k b hk
  by_cases hlt : k < visited.length
  · rw [List.getElem?_append_left hlt] at hk
    rw [List.take_append_of_le_length (Nat.le_of_lt hlt)]
    exact hold k b hk
  · have hlen : k < (visited ++ [a]).length := (List.getElem?_eq_some_iff.mp hk).1
    rw [List.length_append, List.length_singleton] at hlen
    obtain rfl : k = visited.length := by omega
    rw [List.getElem?_append_right (Nat.le_refl _), Nat.sub_self] at hk
    rw [List.take_left, ← Option.some.inj hk]
    exact hnew

end Run
