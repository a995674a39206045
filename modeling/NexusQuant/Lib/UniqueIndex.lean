import NexusQuant.Lib.ReadCommitted

/-!
# The unique index

The index is checked when an update runs, against the rows in sight and against what other open
transactions have written.  That is enough for every committed state: no two rows have one key, in
any run, whatever the programs do.
-/

namespace Transaction

variable {τ : Type} {Row : τ → Type} {Entry ε α : Type}

/-- A key of a row here is, over there, at most the key of the row with the same primary key. -/
def Apart (uniqueKey : (t : τ) → Row t → Option String) (rows rows' : Store Row) : Prop :=
  ∀ t id id' row row' key, rows.get? t id = some row → rows'.get? t id' = some row' →
    uniqueKey t row = some key → uniqueKey t row' = some key → id = id'

/-- No two rows of a table have the same key. -/
def Unique (uniqueKey : (t : τ) → Row t → Option String) (rows : Store Row) : Prop :=
  Apart uniqueKey rows rows

structure IndexKept (uniqueKey : (t : τ) → Row t → Option String) (s : System Row Entry ε α) :
    Prop where
  committed : Unique uniqueKey s.committed
  view : ∀ i c, s.sessionAt i = some c → Unique uniqueKey (c.view s.committed)
  apart : ∀ i j c d, i ≠ j → s.sessionAt i = some c → s.sessionAt j = some d →
    Apart uniqueKey c.writes d.writes

variable {uniqueKey : (t : τ) → Row t → Option String}
variable {s : System Row Entry ε α} {i : ℕ} {c d : Session Row Entry ε α}

theorem Apart.symm {writes writes' : Store Row} (h : Apart uniqueKey writes writes') :
    Apart uniqueKey writes' writes :=
  fun t id id' row row' key hrow hrow' hkey hkey' =>
    (h t id' id row' row key hrow' hrow hkey' hkey).symm

/-- What another transaction sees after a commit is unique: a key it wrote itself is in nobody
else's writes, and without its own writes it sees what the committed transaction saw. -/
theorem Unique.commit {committed : Store Row} (hc : Unique uniqueKey (c.view committed))
    (hd : Unique uniqueKey (d.view committed)) (hapart : Apart uniqueKey c.writes d.writes) :
    Unique uniqueKey (d.view (c.view committed)) := by
  have hmixed : ∀ t id id' row row' key, d.writes.get? t id = some row →
      d.writes.get? t id' = none → (c.view committed).get? t id' = some row' →
      uniqueKey t row = some key → uniqueKey t row' = some key → id = id' := by
    intro t id id' row row' key hrow hnone hrow' hkey hkey'
    cases hw : c.writes.get? t id' with
    | some written =>
        rw [Session.view, Store.get?_overlay_of_some hw] at hrow'
        cases hrow'
        exact hapart.symm t id id' row _ key hrow hw hkey hkey'
    | none =>
        rw [Session.view, Store.get?_overlay_of_none hw] at hrow'
        exact hd t id id' row row' key (Store.get?_overlay_of_some hrow)
          (by rw [Session.view, Store.get?_overlay_of_none hnone, hrow']) hkey hkey'
  intro t id id' row row' key hrow hrow' hkey hkey'
  rw [Session.view] at hrow hrow'
  -- Where either row comes from: the writes of `d`, or what `c` saw.
  cases hw : d.writes.get? t id with
  | some written =>
      rw [Store.get?_overlay_of_some hw] at hrow
      cases hrow
      cases hw' : d.writes.get? t id' with
      | some written' =>
          rw [Store.get?_overlay_of_some hw'] at hrow'
          cases hrow'
          exact hd t id id' _ _ key (Store.get?_overlay_of_some hw) (Store.get?_overlay_of_some hw')
            hkey hkey'
      | none =>
          rw [Store.get?_overlay_of_none hw'] at hrow'
          exact hmixed t id id' _ row' key hw hw' hrow' hkey hkey'
  | none =>
      rw [Store.get?_overlay_of_none hw] at hrow
      cases hw' : d.writes.get? t id' with
      | some written' =>
          rw [Store.get?_overlay_of_some hw'] at hrow'
          cases hrow'
          exact (hmixed t id' id _ row key hw' hw hrow hkey' hkey).symm
      | none =>
          rw [Store.get?_overlay_of_none hw'] at hrow'
          exact hc t id id' row row' key hrow hrow' hkey hkey'

/-- A transaction's own move that keeps its view unique and its writes apart from the others'. -/
theorem IndexKept.put {tx : Tx Row Entry ε α} (h : IndexKept uniqueKey s)
    (hc : s.sessionAt i = some c)
    (hview : ∀ c', tx.session? = some c' → Unique uniqueKey (c'.view s.committed))
    (hapart : ∀ c' j d, tx.session? = some c' → j ≠ i → s.sessionAt j = some d →
      Apart uniqueKey c'.writes d.writes) : IndexKept uniqueKey (s.put i tx) := by
  constructor
  · exact h.committed
  · intro k c' hc'
    by_cases hk : k = i
    · subst hk
      rw [System.sessionAt_put_self hc] at hc'
      exact hview c' hc'
    · rw [System.sessionAt_put_of_ne hk] at hc'
      exact h.view k c' hc'
  · intro k l c' d hkl hc' hd
    by_cases hk : k = i
    · subst hk
      rw [System.sessionAt_put_self hc] at hc'
      rw [System.sessionAt_put_of_ne (Ne.symm hkl)] at hd
      exact hapart c' l d hc' (Ne.symm hkl) hd
    · rw [System.sessionAt_put_of_ne hk] at hc'
      -- Of the two transactions at most one is the one that moved.
      by_cases hl : l = i
      · subst hl
        rw [System.sessionAt_put_self hc] at hd
        exact (hapart d k c' hd hk hc').symm
      · rw [System.sessionAt_put_of_ne hl] at hd
        exact h.apart k l c' d hkl hc' hd

/-- A move that writes nothing. -/
theorem IndexKept.put_of_writes {tx : Tx Row Entry ε α} (h : IndexKept uniqueKey s)
    (hc : s.sessionAt i = some c) (hwrites : ∀ c', tx.session? = some c' → c'.writes = c.writes) :
    IndexKept uniqueKey (s.put i tx) := by
  apply h.put hc
  · intro c' hc'
    rw [Session.view, hwrites c' hc']
    exact h.view i c hc
  · intro c' j d hc' hj hd
    rw [hwrites c' hc']
    exact h.apart i j c d (Ne.symm hj) hc hd

/-- Over a database that satisfies the index, transactions that have not begun satisfy it. -/
theorem indexKept_begin {committed : Store Row} {entries : List Entry}
    {txs : List (Tx Row Entry ε α)} (hcommitted : Unique uniqueKey committed)
    (h : ∀ tx ∈ txs, ∃ program raise, tx = .begin program raise) :
    IndexKept uniqueKey ({ committed, entries, txs } : System Row Entry ε α) := by
  have hbegin : ∀ (i : ℕ) (c : Session Row Entry ε α),
      ({ committed, entries, txs } : System Row Entry ε α).sessionAt i = some c →
        c.writes = .empty := by
    intro i c hc
    have ⟨tx, htx, hsession⟩ := System.mem_of_sessionAt hc
    have ⟨program, raise, hform⟩ := h tx htx
    subst hform
    cases hsession
    rfl
  constructor
  · exact hcommitted
  · intro i c hc
    rw [Session.view, hbegin i c hc]
    exact hcommitted
  · intro i j c d _ hc _ t id id' row row' key hrow
    rw [hbegin i c hc] at hrow
    cases hrow

section Update

variable {t : τ} {id key : String}

theorem eq_of_not_taken (h : s.taken uniqueKey c t id key = false) {id' : String} {row : Row t}
    (hrow : (c.view s.committed).get? t id' = some row) (hkey : uniqueKey t row = some key) :
    id' = id := by
  by_contra hne
  -- The other row would have been found by the check.
  have hnot := List.any_eq_false.mp h (id', row) (Dict.mem_of_get? hrow)
  exact hnot (decide_eq_true ⟨hne, hkey⟩)

theorem eq_of_not_contended (h : s.contended uniqueKey i t id key = false) {j : ℕ} (hj : j ≠ i)
    (hd : s.sessionAt j = some d) {id' : String} {row : Row t}
    (hrow : d.writes.get? t id' = some row) (hkey : uniqueKey t row = some key) : id' = id := by
  by_contra hne
  have hnot := List.any_eq_false.mp h d (System.mem_others.mpr ⟨j, hj, hd⟩)
  have hrow := List.any_eq_false.mp (Bool.eq_false_iff.mpr hnot) (id', row) (Dict.mem_of_get? hrow)
  exact hrow (decide_eq_true ⟨hne, .inl hkey⟩)

variable [DecidableEq τ]

/-- The row an update writes has a key that no other row in sight has. -/
theorem Unique.update {new : Row t} (h : Unique uniqueKey (c.view s.committed))
    (hfree : ∀ key, uniqueKey t new = some key → s.taken uniqueKey c t id key = false) :
    Unique uniqueKey (s.committed.overlay (c.writes.set t id new)) := by
  intro u a b row row' key hrow hrow' hkey hkey'
  rcases Store.get?_overlay_set_cases hrow with ⟨hu, ha, hnew⟩ | ⟨_, hold⟩
  · subst hu ha hnew
    rcases Store.get?_overlay_set_cases hrow' with ⟨_, hb, _⟩ | ⟨_, hold'⟩
    · exact hb.symm
    · exact (eq_of_not_taken (hfree key hkey) hold' hkey').symm
  · rcases Store.get?_overlay_set_cases hrow' with ⟨hu, hb, hnew⟩ | ⟨_, hold'⟩
    · subst hu hb hnew
      exact eq_of_not_taken (hfree key hkey') hold hkey
    · exact h u a b row row' key hold hold' hkey hkey'

/-- The row an update writes has a key that no other transaction has written. -/
theorem Apart.update {new : Row t} {j : ℕ} (h : Apart uniqueKey c.writes d.writes) (hj : j ≠ i)
    (hd : s.sessionAt j = some d)
    (hfree : ∀ key, uniqueKey t new = some key → s.contended uniqueKey i t id key = false) :
    Apart uniqueKey (c.writes.set t id new) d.writes := by
  intro u a b row row' key hrow hrow' hkey hkey'
  rcases Store.get?_set_cases hrow with ⟨hu, ha, hnew⟩ | ⟨_, hold⟩
  · subst hu ha hnew
    exact (eq_of_not_contended (hfree key hkey) hj hd hrow' hkey').symm
  · exact h u a b row row' key hold hrow' hkey hkey'

end Update

variable [DecidableEq τ]

theorem IndexKept.move {a : Action} {s' : System Row Entry ε α} (h : IndexKept uniqueKey s)
    (hmove : System.Move uniqueKey s a s') : IndexKept uniqueKey s' := by
  cases hmove with
  | stay => exact h
  | rollback i c e hc =>
      apply h.put_of_writes hc
      intro c' hc'
      cases hc'
  | find i c t id next hc hprogram =>
      apply h.put_of_writes hc
      intro c' hc'
      cases hc'
      rfl
  | findMany i c t p next hc hprogram rows =>
      apply h.put_of_writes hc
      intro c' hc'
      cases hc'
      rfl
  | record i c entry next hc hprogram =>
      apply h.put_of_writes hc
      intro c' hc'
      cases hc'
      rfl
  | update i c t id f next old new hc hprogram houtcome hchange =>
      -- A write passed both checks of the index: against the rows in sight, and against the writes
      -- of the others.
      have ⟨_, _, _, hkey⟩ := System.updateOutcome_writes houtcome
      apply h.put hc
      · intro c' hc'
        cases hc'
        exact (h.view i c hc).update fun key hnew => (hkey key hnew).2
      · intro c' j d hc' hj hd
        cases hc'
        exact (h.apart i j c d (Ne.symm hj) hc hd).update hj hd fun key hnew => (hkey key hnew).1
  | commit i c result hc hprogram =>
      -- The new committed rows are what the transaction saw; the views of the others now go over
      -- them.
      have hothers : ∀ k d, (s.put i (.committed result)).sessionAt k = some d →
          k ≠ i ∧ s.sessionAt k = some d := fun k d hd => System.sessionAt_put_committed hc hd
      constructor
      · exact h.view i c hc
      · intro k d hd
        have ⟨hk, hd⟩ := hothers k d hd
        exact (h.view i c hc).commit (h.view k d hd) (h.apart i k c d (Ne.symm hk) hc hd)
      · intro k l d e hkl hd he
        have ⟨_, hd⟩ := hothers k d hd
        have ⟨_, he⟩ := hothers l e he
        exact h.apart k l d e hkl hd he

theorem IndexKept.run {actions : List Action} (h : IndexKept uniqueKey s) :
    IndexKept uniqueKey (Run.run (System.step uniqueKey) s actions) :=
  Run.run_keeps (fun s a hs => hs.move (s.step_move uniqueKey a)) h actions

end Transaction
