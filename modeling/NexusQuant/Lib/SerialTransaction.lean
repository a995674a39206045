import NexusQuant.Lib.ReadCommitted

/-!
# Transactions one after another

A transaction that runs alone sees the rows as they are and its own writes, and nothing is kept of
it when it throws.  `ensures` is the program logic of such runs: one rule for each statement.
-/

namespace Transaction

variable {τ : Type} {Row : τ → Type} {Entry ε α β : Type}

/-- What a transaction that commits returns and leaves. -/
structure Commit (Row : τ → Type) (Entry α : Type) where
  result : α
  rows : Store Row
  entries : List Entry

/-- Whether another row has `key`. -/
def Store.taken (uniqueKey : (t : τ) → Row t → Option String) (rows : Store Row) (t : τ)
    (id key : String) : Bool :=
  (rows t).any fun row => row.1 ≠ id ∧ uniqueKey t row.2 = some key

namespace Program

variable [DecidableEq τ] (uniqueKey : (t : τ) → Row t → Option String) (raise : Failure → ε)

/-- The program run alone. -/
def exec : Program Row Entry ε α → Store Row → List Entry → Except ε (Commit Row Entry α)
  | .done a, rows, entries => .ok ⟨a, rows, entries⟩
  | .fail e, _, _ => .error e
  | .find t id next, rows, entries => (next (rows.get? t id)).exec rows entries
  | .findMany t p next, rows, entries =>
      (next ((rows t).filter fun row => p row.1 row.2)).exec rows entries
  | .update t id f next, rows, entries =>
      match rows.get? t id with
      | none => .error (raise .missingRow)
      | some old =>
          if (uniqueKey t (f old)).any (rows.taken uniqueKey t id) then
            .error (raise .uniqueViolation)
          else next.exec (rows.set t id (f old)) entries
  | .record entry next, rows, entries => next.exec rows (entries ++ [entry])

/-- If the program commits, `post` holds of what it returns and leaves. -/
def ensures (p : Program Row Entry ε α) (post : α → Store Row → List Entry → Prop)
    (rows : Store Row) (entries : List Entry) : Prop :=
  ∀ c, p.exec uniqueKey raise rows entries = .ok c → post c.result c.rows c.entries

variable {uniqueKey raise} {rows : Store Row} {entries : List Entry}
  {post : β → Store Row → List Entry → Prop}

theorem exec_bind (p : Program Row Entry ε α) (q : α → Program Row Entry ε β) :
    (p >>= q).exec uniqueKey raise rows entries =
      (p.exec uniqueKey raise rows entries).bind fun c =>
        (q c.result).exec uniqueKey raise c.rows c.entries := by
  show (p.bind q).exec uniqueKey raise rows entries = _
  -- On the program, one case for each statement.
  induction p generalizing rows entries with
  | done a => rfl
  | fail e => rfl
  | find t id next ih => exact ih _
  | findMany t p next ih => exact ih _
  | update t id f next ih =>
      simp only [bind, exec]
      split
      · rfl
      · split
        · rfl
        · exact ih
  | record entry next ih => exact ih

theorem ensures_bind {p : Program Row Entry ε α} {q : α → Program Row Entry ε β}
    (h : p.ensures uniqueKey raise
      (fun a rows entries => (q a).ensures uniqueKey raise post rows entries) rows entries) :
    (p >>= q).ensures uniqueKey raise post rows entries := by
  intro c hc
  rw [exec_bind] at hc
  cases hp : p.exec uniqueKey raise rows entries with
  | error e =>
      rw [hp] at hc
      cases hc
  | ok c' =>
      rw [hp] at hc
      exact h c' hp c hc

theorem ensures_mono {p : Program Row Entry ε β} {post' : β → Store Row → List Entry → Prop}
    (hp : p.ensures uniqueKey raise post rows entries)
    (h : ∀ b rows entries, post b rows entries → post' b rows entries) :
    p.ensures uniqueKey raise post' rows entries :=
  fun c hc => h _ _ _ (hp c hc)

theorem ensures_pure {b : β} (h : post b rows entries) :
    (pure b : Program Row Entry ε β).ensures uniqueKey raise post rows entries := by
  rintro c ⟨⟩
  exact h

theorem ensures_fail {e : ε} :
    (.fail e : Program Row Entry ε β).ensures uniqueKey raise post rows entries := by
  rintro c ⟨⟩

theorem ensures_ofExcept {result : Except ε β} (h : ∀ b, result = .ok b → post b rows entries) :
    (ofExcept result : Program Row Entry ε β).ensures uniqueKey raise post rows entries := by
  cases result with
  | ok b => exact ensures_pure (h b rfl)
  | error e => exact ensures_fail

theorem ensures_failIf {c : Prop} [Decidable c] {e : ε} {post : Unit → Store Row → List Entry → Prop}
    (h : ¬c → post () rows entries) :
    (failIf c e : Program Row Entry ε Unit).ensures uniqueKey raise post rows entries := by
  unfold failIf
  split
  · exact ensures_fail
  · rename_i hc
    exact ensures_pure (h hc)

theorem ensures_findUnique {t : τ} {id : String}
    {post : Option (Row t) → Store Row → List Entry → Prop}
    (h : post (rows.get? t id) rows entries) :
    (findUnique t id : Program Row Entry ε _).ensures uniqueKey raise post rows entries := by
  rintro c ⟨⟩
  exact h

theorem ensures_findAll {t : τ} {p : String → Row t → Bool}
    {post : List (String × Row t) → Store Row → List Entry → Prop}
    (h : post ((rows t).filter fun row => p row.1 row.2) rows entries) :
    (findAll t p : Program Row Entry ε _).ensures uniqueKey raise post rows entries := by
  rintro c ⟨⟩
  exact h

theorem ensures_create {entry : Entry} {post : Unit → Store Row → List Entry → Prop}
    (h : post () rows (entries ++ [entry])) :
    (create entry : Program Row Entry ε Unit).ensures uniqueKey raise post rows entries := by
  rintro c ⟨⟩
  exact h

/-- An update finds its row, and no other row has the key of the new one. -/
theorem ensures_modify {t : τ} {id : String} {f : Row t → Row t}
    {post : Unit → Store Row → List Entry → Prop}
    (h : ∀ old, rows.get? t id = some old →
      (∀ key, uniqueKey t (f old) = some key → rows.taken uniqueKey t id key = false) →
      post () (rows.set t id (f old)) entries) :
    (modify t id f : Program Row Entry ε Unit).ensures uniqueKey raise post rows entries := by
  intro c hc
  simp only [modify, exec] at hc
  split at hc
  · cases hc
  · rename_i old hold
    split at hc
    · cases hc
    · rename_i hfree
      cases hc
      apply h old hold
      intro key hkey
      rw [hkey, Option.any_some, Bool.not_eq_true] at hfree
      exact hfree

/-- The loop rule: `Inv` is about what is still to be done. -/
theorem ensures_forM {ι : Type} {f : ι → Program Row Entry ε PUnit}
    {Inv : List ι → Store Row → List Entry → Prop}
    (hround : ∀ i l rows entries, Inv (i :: l) rows entries →
      (f i).ensures uniqueKey raise (fun _ rows entries => Inv l rows entries) rows entries)
    {l : List ι} (h : Inv l rows entries) :
    (l.forM f).ensures uniqueKey raise (fun _ rows entries => Inv [] rows entries) rows entries := by
  induction l generalizing rows entries with
  | nil => exact ensures_pure h
  | cons i l ih =>
      show (f i >>= fun _ => l.forM f).ensures uniqueKey raise _ rows entries
      apply ensures_bind
      exact ensures_mono (hround i l rows entries h) fun _ _ _ hinv => ih hinv

end Program

end Transaction
