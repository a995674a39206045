import NexusQuant.Lib.Run
import NexusQuant.Lib.Transaction

/-!
# Transactions side by side at read committed

Any number of transactions run over one database, one statement at a time and in any order.  A read
sees the committed rows and the reader's own writes; an update works on the row as it is when the
statement runs, waits while another open transaction has written that row, and rolls its transaction
back when it violates the unique index.  `abort` is a transaction the database gives up on, a
deadlock's victim for one.

A row an open transaction has written is locked for all others, so what it was at that write is what
it is when the transaction commits.  Everything the system keeps follows from that: if every update
made passes the guard of a discipline, committed rows only change as its `rely` allows.
-/

namespace Transaction

variable {τ : Type} {Row : τ → Type} {Entry ε α : Type}

/-! ## The system -/

inductive Failure where
  | missingRow
  | uniqueViolation
  | aborted
deriving DecidableEq, Repr

/-- An open transaction: what is left of its program and what it has written. -/
structure Session (Row : τ → Type) (Entry ε α : Type) where
  program : Program Row Entry ε α
  writes : Store Row
  entries : List Entry
  raise : Failure → ε

inductive Tx (Row : τ → Type) (Entry ε α : Type) where
  | active (session : Session Row Entry ε α)
  | committed (a : α)
  | rolledBack (e : ε)

def Tx.session? : Tx Row Entry ε α → Option (Session Row Entry ε α)
  | .active c => some c
  | _ => none

structure System (Row : τ → Type) (Entry ε α : Type) where
  committed : Store Row
  entries : List Entry
  txs : List (Tx Row Entry ε α)

inductive Action where
  | advance (i : ℕ)
  | abort (i : ℕ)
deriving DecidableEq, Repr

/-- How an update statement ends. -/
inductive Outcome (ρ : Type) where
  | waits
  | fails (failure : Failure)
  | writes (old new : ρ)

/-- The rows a transaction sees. -/
def Session.view (c : Session Row Entry ε α) (committed : Store Row) : Store Row :=
  committed.overlay c.writes

/-- A transaction before its first statement. -/
def Tx.begin (program : Program Row Entry ε α) (raise : Failure → ε) : Tx Row Entry ε α :=
  .active { program, writes := .empty, entries := [], raise }

namespace System

def sessionAt (s : System Row Entry ε α) (i : ℕ) : Option (Session Row Entry ε α) :=
  s.txs[i]?.bind Tx.session?

def others (s : System Row Entry ε α) (i : ℕ) : List (Session Row Entry ε α) :=
  (List.range s.txs.length).filterMap fun j => if j = i then none else s.sessionAt j

/-- Another open transaction has written the row. -/
def locked (s : System Row Entry ε α) (i : ℕ) (t : τ) (id : String) : Bool :=
  (s.others i).any fun c => (c.writes.get? t id).isSome

def put (s : System Row Entry ε α) (i : ℕ) (tx : Tx Row Entry ε α) : System Row Entry ε α :=
  { s with txs := s.txs.set i tx }

section Index

variable (uniqueKey : (t : τ) → Row t → Option String)

/-- Whether the index has an entry for `key` that another open transaction has added or taken away
and not yet committed. -/
def contended (s : System Row Entry ε α) (i : ℕ) (t : τ) (id key : String) : Bool :=
  (s.others i).any fun c => (c.writes t).any fun row =>
    row.1 ≠ id ∧ (uniqueKey t row.2 = some key ∨
      (s.committed.get? t row.1).bind (uniqueKey t) = some key)

/-- Whether another row in sight of the transaction has `key`. -/
def taken (s : System Row Entry ε α) (c : Session Row Entry ε α) (t : τ) (id key : String) : Bool :=
  (c.view s.committed t).any fun row => row.1 ≠ id ∧ uniqueKey t row.2 = some key

def updateOutcome (s : System Row Entry ε α) (i : ℕ) (c : Session Row Entry ε α) (t : τ)
    (id : String) (f : Row t → Row t) : Outcome (Row t) :=
  if s.locked i t id then .waits
  else
    match (c.view s.committed).get? t id with
    | none => .fails .missingRow
    | some old =>
        match uniqueKey t (f old) with
        | none => .writes old (f old)
        -- The index is checked now, against the rows in sight; an entry that is still open is
        -- waited for.
        | some key =>
            if s.contended uniqueKey i t id key then .waits
            else if s.taken uniqueKey c t id key then .fails .uniqueViolation
            else .writes old (f old)

variable [DecidableEq τ]

/-- The next statement of transaction `i`. -/
def advance (s : System Row Entry ε α) (i : ℕ) : System Row Entry ε α :=
  match s.sessionAt i with
  | none => s
  | some c =>
      match c.program with
      | .done a =>
          { committed := c.view s.committed
            entries := s.entries ++ c.entries
            txs := s.txs.set i (.committed a) }
      | .fail e => s.put i (.rolledBack e)
      | .find t id next =>
          s.put i (.active { c with program := next ((c.view s.committed).get? t id) })
      | .findMany t p next =>
          s.put i (.active { c with
            program := next ((c.view s.committed t).filter fun row => p row.1 row.2) })
      | .update t id f next =>
          match s.updateOutcome uniqueKey i c t id f with
          -- The statement runs again when the transaction is next in turn.
          | .waits => s
          | .fails failure => s.put i (.rolledBack (c.raise failure))
          | .writes _ new =>
              s.put i (.active { c with program := next, writes := c.writes.set t id new })
      | .record entry next =>
          s.put i (.active { c with program := next, entries := c.entries ++ [entry] })

def step (s : System Row Entry ε α) : Action → System Row Entry ε α
  | .advance i => s.advance uniqueKey i
  | .abort i =>
      match s.sessionAt i with
      | none => s
      | some c => s.put i (.rolledBack (c.raise .aborted))

/-- The row an action overwrites and the row it writes. -/
def change? (s : System Row Entry ε α) : Action → Option ((t : τ) × Row t × Row t)
  | .advance i => do
      let c ← s.sessionAt i
      match c.program with
      | .update t id f _ =>
          match s.updateOutcome uniqueKey i c t id f with
          | .writes old new => some ⟨t, old, new⟩
          | _ => none
      | _ => none
  | .abort _ => none

/-- The update an action makes, if any, passes `guard`. -/
def Guarded (guard : (t : τ) → Row t → Row t → Prop) (s : System Row Entry ε α) (a : Action) : Prop :=
  ∀ change ∈ s.change? uniqueKey a, guard change.1 change.2.1 change.2.2

instance (guard : (t : τ) → Row t → Row t → Prop) [∀ t old new, Decidable (guard t old new)]
    (s : System Row Entry ε α) (a : Action) : Decidable (s.Guarded uniqueKey guard a) :=
  inferInstanceAs (Decidable (∀ change ∈ s.change? uniqueKey a, guard _ _ _))

end Index

/-! ## Sessions -/

variable {s : System Row Entry ε α} {i j : ℕ} {c d : Session Row Entry ε α} {tx : Tx Row Entry ε α}
variable {t : τ} {id : String}

theorem mem_of_sessionAt (h : s.sessionAt i = some c) : ∃ tx ∈ s.txs, tx.session? = some c := by
  have ⟨tx, htx, hsession⟩ := Option.bind_eq_some_iff.mp h
  exact ⟨tx, List.mem_of_getElem? htx, hsession⟩

theorem sessionAt_put_self (h : s.sessionAt i = some c) : (s.put i tx).sessionAt i = tx.session? := by
  have hlt : i < s.txs.length := by
    by_contra hge
    rw [sessionAt, List.getElem?_eq_none (by omega)] at h
    cases h
  show (s.txs.set i tx)[i]?.bind Tx.session? = tx.session?
  rw [List.getElem?_set_self hlt]
  rfl

theorem sessionAt_put_of_ne (h : j ≠ i) : (s.put i tx).sessionAt j = s.sessionAt j := by
  show (s.txs.set i tx)[j]?.bind Tx.session? = s.txs[j]?.bind Tx.session?
  rw [List.getElem?_set_ne (Ne.symm h)]

/-- A transaction that has committed is no session any more; the others are as they were. -/
theorem sessionAt_put_committed {result : α} (h : s.sessionAt i = some c)
    (hd : (s.put i (.committed result)).sessionAt j = some d) : j ≠ i ∧ s.sessionAt j = some d := by
  by_cases hj : j = i
  · rw [hj, sessionAt_put_self h] at hd
    cases hd
  · rw [sessionAt_put_of_ne hj] at hd
    exact ⟨hj, hd⟩

theorem mem_others : d ∈ s.others i ↔ ∃ j, j ≠ i ∧ s.sessionAt j = some d := by
  rw [others, List.mem_filterMap]
  constructor
  · intro ⟨j, _, hj⟩
    split at hj
    · cases hj
    · rename_i hne
      exact ⟨j, hne, hj⟩
  · intro ⟨j, hne, hj⟩
    have hlt : j < s.txs.length := by
      by_contra hge
      rw [sessionAt, List.getElem?_eq_none (by omega)] at hj
      cases hj
    exact ⟨j, List.mem_range.mpr hlt, by rw [if_neg hne, hj]⟩

theorem writes_eq_none_of_not_locked (h : s.locked i t id = false) (hne : j ≠ i)
    (hd : s.sessionAt j = some d) : d.writes.get? t id = none := by
  have hmem : d ∈ s.others i := mem_others.mpr ⟨j, hne, hd⟩
  have hnone := List.any_eq_false.mp h d hmem
  rwa [Bool.not_eq_true, Option.isSome_eq_false_iff, Option.isNone_iff_eq_none] at hnone

/-- An update that writes found its row, and nobody else holds it. -/
theorem updateOutcome_writes {uniqueKey : (t : τ) → Row t → Option String} {f : Row t → Row t}
    {old new : Row t} (h : s.updateOutcome uniqueKey i c t id f = .writes old new) :
    s.locked i t id = false ∧ (c.view s.committed).get? t id = some old ∧ new = f old ∧
      ∀ key, uniqueKey t new = some key →
        s.contended uniqueKey i t id key = false ∧ s.taken uniqueKey c t id key = false := by
  -- Of the outcomes of an update only the last two branches write.
  rw [updateOutcome] at h
  split at h
  · cases h
  · rename_i hlocked
    rw [Bool.not_eq_true] at hlocked
    split at h
    · cases h
    · rename_i row hrow
      split at h
      · rename_i hkey
        cases h
        refine ⟨hlocked, hrow, rfl, fun key hk => ?_⟩
        rw [hkey] at hk
        cases hk
      · rename_i key hkey
        split at h
        · cases h
        · rename_i hcontended
          split at h
          · cases h
          · rename_i htaken
            cases h
            refine ⟨hlocked, hrow, rfl, fun key' hk => ?_⟩
            rw [hkey] at hk
            cases hk
            exact ⟨by simpa using hcontended, by simpa using htaken⟩

/-! ## What a step does -/

/-- The moves of the system, one constructor for each way a statement can end. -/
inductive Move [DecidableEq τ] (uniqueKey : (t : τ) → Row t → Option String)
    (s : System Row Entry ε α) (a : Action) : System Row Entry ε α → Prop where
  | stay : Move uniqueKey s a s
  | rollback (i : ℕ) (c : Session Row Entry ε α) (e : ε) (hc : s.sessionAt i = some c) :
      Move uniqueKey s a (s.put i (.rolledBack e))
  | find (i : ℕ) (c : Session Row Entry ε α) (t : τ) (id : String)
      (next : Option (Row t) → Program Row Entry ε α) (hc : s.sessionAt i = some c)
      (hprogram : c.program = .find t id next) :
      Move uniqueKey s a
        (s.put i (.active { c with program := next ((c.view s.committed).get? t id) }))
  | findMany (i : ℕ) (c : Session Row Entry ε α) (t : τ) (p : String → Row t → Bool)
      (next : List (String × Row t) → Program Row Entry ε α) (hc : s.sessionAt i = some c)
      (hprogram : c.program = .findMany t p next) (rows : List (String × Row t)) :
      Move uniqueKey s a (s.put i (.active { c with program := next rows }))
  | record (i : ℕ) (c : Session Row Entry ε α) (entry : Entry) (next : Program Row Entry ε α)
      (hc : s.sessionAt i = some c) (hprogram : c.program = .record entry next) :
      Move uniqueKey s a
        (s.put i (.active { c with program := next, entries := c.entries ++ [entry] }))
  | update (i : ℕ) (c : Session Row Entry ε α) (t : τ) (id : String) (f : Row t → Row t)
      (next : Program Row Entry ε α) (old new : Row t) (hc : s.sessionAt i = some c)
      (hprogram : c.program = .update t id f next)
      (houtcome : s.updateOutcome uniqueKey i c t id f = .writes old new)
      (hchange : s.change? uniqueKey a = some ⟨t, old, new⟩) :
      Move uniqueKey s a
        (s.put i (.active { c with program := next, writes := c.writes.set t id new }))
  | commit (i : ℕ) (c : Session Row Entry ε α) (result : α) (hc : s.sessionAt i = some c)
      (hprogram : c.program = .done result) :
      Move uniqueKey s a
        { s.put i (.committed result) with
          committed := c.view s.committed
          entries := s.entries ++ c.entries }

section Moves

variable [DecidableEq τ] (uniqueKey : (t : τ) → Row t → Option String)

theorem step_move (s : System Row Entry ε α) (a : Action) :
    Move uniqueKey s a (s.step uniqueKey a) := by
  -- Along the branches of the step: each gives the constructor for how its statement ends.
  cases a with
  | abort i =>
      show Move uniqueKey s _ (match s.sessionAt i with
        | none => s
        | some c => s.put i (.rolledBack (c.raise .aborted)))
      split
      · exact .stay
      · rename_i c hc
        exact .rollback i c _ hc
  | advance i =>
      show Move uniqueKey s _ (s.advance uniqueKey i)
      unfold advance
      split
      · exact .stay
      · rename_i c hc
        split
        · rename_i result hprogram
          exact .commit i c result hc hprogram
        · exact .rollback i c _ hc
        · rename_i t id next hprogram
          exact .find i c t id next hc hprogram
        · rename_i t p next hprogram
          exact .findMany i c t p next hc hprogram _
        · rename_i t id f next hprogram
          split
          · exact .stay
          · exact .rollback i c _ hc
          · rename_i old new houtcome
            refine .update i c t id f next old new hc hprogram houtcome ?_
            simp only [change?, hc, Option.bind_eq_bind, Option.bind_some, hprogram, houtcome]
        · rename_i entry next hprogram
          exact .record i c entry next hc hprogram

end Moves

end System

/-! ## Soundness of the program logic -/

/-- Every row a transaction has written is a change `rely` allows of the committed row. -/
def Based (D : Discipline Row) (committed writes : Store Row) : Prop :=
  ∀ t id new, writes.get? t id = some new →
    ∃ old, committed.get? t id = some old ∧ D.rely t old new

/-- Rows only change as `rely` allows, and none is lost. -/
def Evolves (D : Discipline Row) (before after : Store Row) : Prop :=
  ∀ t id row, before.get? t id = some row → ∃ row', after.get? t id = some row' ∧ D.rely t row row'

theorem Evolves.refl (D : Discipline Row) (s : Store Row) : Evolves D s s :=
  fun t _ row h => ⟨row, h, D.refl t row⟩

theorem Evolves.trans {D : Discipline Row} {a b c : Store Row} (hab : Evolves D a b)
    (hbc : Evolves D b c) : Evolves D a c := by
  intro t id row h
  have ⟨row', h', hrely⟩ := hab t id row h
  have ⟨row'', h'', hrely'⟩ := hbc t id row' h'
  exact ⟨row'', h'', D.trans t hrely hrely'⟩

theorem Based.evolves {D : Discipline Row} {committed writes : Store Row}
    (h : Based D committed writes) : Evolves D committed (committed.overlay writes) := by
  intro t id row hrow
  cases hw : writes.get? t id with
  | none => exact ⟨row, by rw [Store.get?_overlay_of_none hw, hrow], D.refl t row⟩
  | some new =>
      have ⟨old, hold, hrely⟩ := h t id new hw
      rw [hrow] at hold
      cases hold
      exact ⟨new, Store.get?_overlay_of_some hw, hrely⟩

section Soundness

variable [DecidableEq τ]

structure SessionSound (D : Discipline Row) (post : Store Row → Prop) (committed : Store Row)
    (c : Session Row Entry ε α) : Prop where
  based : Based D committed c.writes
  known : ∃ seen, Evolves D seen (c.view committed) ∧
    c.program.wp D (fun _ writes _ => post writes) seen c.writes

structure Sound (D : Discipline Row) (post : Store Row → Prop) (s : System Row Entry ε α) : Prop where
  exclusive : ∀ i j c d, i ≠ j → s.sessionAt i = some c → s.sessionAt j = some d →
    ∀ t id row, c.writes.get? t id = some row → d.writes.get? t id = none
  session : ∀ i c, s.sessionAt i = some c → SessionSound D post s.committed c

variable {D : Discipline Row} {post : Store Row → Prop} {committed : Store Row}
variable {s : System Row Entry ε α} {i j : ℕ} {c d : Session Row Entry ε α}

/-- A read leaves a transaction sound: it knows one row more. -/
theorem SessionSound.find {t : τ} {id : String} {next : Option (Row t) → Program Row Entry ε α}
    (h : SessionSound D post committed c) (hprogram : c.program = .find t id next) :
    SessionSound D post committed
      { c with program := next ((c.view committed).get? t id) } := by
  have ⟨seen, hseen, hwp⟩ := h.known
  rw [hprogram] at hwp
  refine ⟨h.based, seen.note t id ((c.view committed).get? t id), ?_, hwp _⟩
  show Evolves D (seen.note t id ((c.view committed).get? t id)) (c.view committed)
  cases hrow : (c.view committed).get? t id with
  | none => exact hseen
  -- The transaction remembers the row it read; by the time it acts, the row may have moved on as
  -- `rely` allows.
  | some row =>
      intro u other found hfound
      rcases Store.get?_set_cases hfound with ⟨rfl, rfl, rfl⟩ | ⟨_, hold⟩
      · exact ⟨_, hrow, D.refl _ _⟩
      · exact hseen u other found hold

/-- A guarded update leaves a transaction sound. -/
theorem SessionSound.update {t : τ} {id : String} {f : Row t → Row t}
    {next : Program Row Entry ε α} {old : Row t} (h : SessionSound D post committed c)
    (hprogram : c.program = .update t id f next) (hold : (c.view committed).get? t id = some old)
    (hguard : D.guard t old (f old)) :
    SessionSound D post committed
      { c with program := next, writes := c.writes.set t id (f old) } := by
  have ⟨seen, hseen, hwp⟩ := h.known
  rw [hprogram] at hwp
  have hknown : ∀ before, seen.get? t id = some before → D.rely t before old := by
    intro before hbefore
    have ⟨row, hrow, hrely⟩ := hseen t id before hbefore
    rw [hold] at hrow
    cases hrow
    exact hrely
  have ⟨hrely, hnext⟩ := hwp old hknown hguard
  -- The row under the key, committed or written before, led to `old`, and `old` leads to `f old`.
  have hbase : ∃ row, committed.get? t id = some row ∧ D.rely t row old := by
    cases hw : c.writes.get? t id with
    | none =>
        rw [Session.view, Store.get?_overlay_of_none hw] at hold
        exact ⟨old, hold, D.refl t old⟩
    | some new =>
        rw [Session.view, Store.get?_overlay_of_some hw] at hold
        cases hold
        exact h.based t id old hw
  refine ⟨?_, seen, ?_, hnext⟩
  · intro u other new hnew
    rcases Store.get?_set_cases hnew with ⟨rfl, rfl, rfl⟩ | ⟨_, hbefore⟩
    · have ⟨row, hrow, hto⟩ := hbase
      exact ⟨row, hrow, D.trans _ hto hrely⟩
    · exact h.based u other new hbefore
  · intro u other before hbefore
    have ⟨row, hrow, hto⟩ := hseen u other before hbefore
    show ∃ row', (committed.overlay (c.writes.set t id (f old))).get? u other = some row' ∧ _
    by_cases hne : u ≠ t ∨ other ≠ id
    · refine ⟨row, ?_, hto⟩
      rw [Store.get?_overlay_set_of_ne hne]
      exact hrow
    · rw [not_or, not_not, not_not] at hne
      have ⟨hu, hid⟩ := hne
      subst hu hid
      rw [hold] at hrow
      cases hrow
      exact ⟨_, Store.get?_overlay_of_some Store.get?_set_self, D.trans _ hto hrely⟩

/-- A commit leaves every other transaction sound: it holds none of the rows that changed. -/
theorem SessionSound.commit (h : SessionSound D post committed d)
    (hc : Based D committed c.writes)
    (hexclusive : ∀ t id row, d.writes.get? t id = some row → c.writes.get? t id = none) :
    SessionSound D post (c.view committed) d := by
  have ⟨seen, hseen, hwp⟩ := h.known
  refine ⟨?_, seen, ?_, hwp⟩
  · intro t id new hnew
    have ⟨old, hold, hrely⟩ := h.based t id new hnew
    refine ⟨old, ?_, hrely⟩
    rw [Session.view, Store.get?_overlay_of_none (hexclusive t id new hnew), hold]
  · apply hseen.trans
    intro t id row hrow
    rw [Session.view] at hrow
    rw [Session.view]
    -- A row it wrote it still sees; of any other row it sees what the commit made of it.
    cases hw : d.writes.get? t id with
    | some new =>
        rw [Store.get?_overlay_of_some hw] at hrow
        exact ⟨row, by rw [Store.get?_overlay_of_some hw, hrow], D.refl t row⟩
    | none =>
        rw [Store.get?_overlay_of_none hw] at hrow
        have ⟨row', hrow', hrely⟩ := hc.evolves t id row hrow
        exact ⟨row', by rw [Store.get?_overlay_of_none hw]; exact hrow', hrely⟩

/-- A transaction's own move, with no new row or a row nobody else holds. -/
theorem Sound.put {tx : Tx Row Entry ε α} (h : Sound D post s) (hc : s.sessionAt i = some c)
    (hsound : ∀ c', tx.session? = some c' → SessionSound D post s.committed c')
    (hwrites : ∀ c', tx.session? = some c' → ∀ t id row, c'.writes.get? t id = some row →
      c.writes.get? t id = some row ∨ s.locked i t id = false) : Sound D post (s.put i tx) := by
  have hexclusive : ∀ c' j d, tx.session? = some c' → j ≠ i → s.sessionAt j = some d →
      ∀ t id row, c'.writes.get? t id = some row → d.writes.get? t id = none := by
    intro c' j d hc' hj hd t id row hrow
    rcases hwrites c' hc' t id row hrow with hbefore | hfree
    · exact h.exclusive i j c d (Ne.symm hj) hc hd t id row hbefore
    · exact System.writes_eq_none_of_not_locked hfree hj hd
  -- Two sessions are apart if they were before; only the one that moved has something new.
  constructor
  · intro k l c' d hkl hc' hd t id row hrow
    by_cases hk : k = i
    · subst hk
      rw [System.sessionAt_put_self hc] at hc'
      rw [System.sessionAt_put_of_ne (Ne.symm hkl)] at hd
      exact hexclusive c' l d hc' (Ne.symm hkl) hd t id row hrow
    · rw [System.sessionAt_put_of_ne hk] at hc'
      by_cases hl : l = i
      · subst hl
        rw [System.sessionAt_put_self hc] at hd
        by_contra hsome
        have ⟨row', hrow'⟩ := Option.ne_none_iff_exists'.mp hsome
        rw [hexclusive d k c' hd hk hc' t id row' hrow'] at hrow
        cases hrow
      · rw [System.sessionAt_put_of_ne hl] at hd
        exact h.exclusive k l c' d hkl hc' hd t id row hrow
  · intro k c' hc'
    by_cases hk : k = i
    · subst hk
      rw [System.sessionAt_put_self hc] at hc'
      exact hsound c' hc'
    · rw [System.sessionAt_put_of_ne hk] at hc'
      exact h.session k c' hc'

variable {uniqueKey : (t : τ) → Row t → Option String}

theorem Sound.move {a : Action} {s' : System Row Entry ε α} (h : Sound D post s)
    (hmove : System.Move uniqueKey s a s') (hguard : s.Guarded uniqueKey D.guard a) :
    Sound D post s' := by
  cases hmove with
  | stay => exact h
  | rollback i c e hc =>
      apply h.put hc
      · intro c' hc'
        cases hc'
      · intro c' hc'
        cases hc'
  | find i c t id next hc hprogram =>
      apply h.put hc
      · intro c' hc'
        cases hc'
        exact (h.session i c hc).find hprogram
      · intro c' hc' t id row hrow
        cases hc'
        exact .inl hrow
  | findMany i c t p next hc hprogram rows =>
      have ⟨seen, hseen, hwp⟩ := (h.session i c hc).known
      rw [hprogram] at hwp
      apply h.put hc
      · intro c' hc'
        cases hc'
        exact ⟨(h.session i c hc).based, seen, hseen, hwp rows⟩
      · intro c' hc' t id row hrow
        cases hc'
        exact .inl hrow
  | record i c entry next hc hprogram =>
      have ⟨seen, hseen, hwp⟩ := (h.session i c hc).known
      rw [hprogram] at hwp
      apply h.put hc
      · intro c' hc'
        cases hc'
        exact ⟨(h.session i c hc).based, seen, hseen, hwp⟩
      · intro c' hc' t id row hrow
        cases hc'
        exact .inl hrow
  | update i c t id f next old new hc hprogram houtcome hchange =>
      have ⟨hfree, hold, hnew, _⟩ := System.updateOutcome_writes houtcome
      subst hnew
      have hpass : D.guard t old (f old) := hguard ⟨t, old, f old⟩ hchange
      apply h.put hc
      · intro c' hc'
        cases hc'
        exact (h.session i c hc).update hprogram hold hpass
      · intro c' hc' u other row hrow
        cases hc'
        rcases Store.get?_set_cases hrow with ⟨rfl, rfl, _⟩ | ⟨_, hbefore⟩
        · exact .inr hfree
        · exact .inl hbefore
  | commit i c result hc hprogram =>
      -- The rows change under the other transactions; the one that commits is closed.
      have hothers : ∀ k d, (s.put i (.committed result)).sessionAt k = some d →
          k ≠ i ∧ s.sessionAt k = some d := fun k d hd => System.sessionAt_put_committed hc hd
      constructor
      · intro k l d e hkl hd he
        have ⟨_, hd⟩ := hothers k d hd
        have ⟨_, he⟩ := hothers l e he
        exact h.exclusive k l d e hkl hd he
      · intro k d hd
        have ⟨hk, hd⟩ := hothers k d hd
        exact (h.session k d hd).commit (h.session i c hc).based (h.exclusive k i d c hk hd hc)

/-- A step leaves the committed rows alone or commits a transaction whose program returned. -/
theorem Sound.committed_move {a : Action} {s' : System Row Entry ε α} (h : Sound D post s)
    (hmove : System.Move uniqueKey s a s') :
    s'.committed = s.committed ∨
      ∃ writes, s'.committed = s.committed.overlay writes ∧ Based D s.committed writes ∧
        post writes := by
  cases hmove with
  | commit i c result hc hprogram =>
      have ⟨_, _, hwp⟩ := (h.session i c hc).known
      rw [hprogram] at hwp
      exact .inr ⟨c.writes, rfl, (h.session i c hc).based, hwp⟩
  | _ => exact .inl rfl

/-- Transactions that have not begun are sound when their programs are verified. -/
theorem sound_begin {txs : List (Tx Row Entry ε α)} {entries : List Entry}
    (h : ∀ tx ∈ txs, ∃ program raise, tx = .begin program raise ∧
      program.wp D (fun _ writes _ => post writes) .empty .empty) :
    Sound D post { committed, entries, txs } := by
  -- A transaction that has not begun has no writes, and its whole program is still to run.
  have hbegin : ∀ (i : ℕ) (c : Session Row Entry ε α),
      ({ committed, entries, txs } : System Row Entry ε α).sessionAt i = some c →
        c.writes = .empty ∧ c.program.wp D (fun _ writes _ => post writes) .empty .empty := by
    intro i c hc
    have ⟨tx, htx, hsession⟩ := System.mem_of_sessionAt hc
    have ⟨program, raise, hform, hwp⟩ := h tx htx
    subst hform
    cases hsession
    exact ⟨rfl, hwp⟩
  constructor
  · intro i j c d _ hc _ t id row hrow
    rw [(hbegin i c hc).1] at hrow
    cases hrow
  · intro i c hc
    have ⟨hwrites, hwp⟩ := hbegin i c hc
    refine ⟨?_, .empty, ?_, by rw [hwrites]; exact hwp⟩
    · intro t id new hnew
      rw [hwrites] at hnew
      cases hnew
    · intro t id row hrow
      cases hrow

theorem Sound.run {actions : List Action} (h : Sound D post s)
    (hguard : Run.RunMeets (System.step uniqueKey) (System.Guarded uniqueKey D.guard) s actions) :
    Sound D post (Run.run (System.step uniqueKey) s actions) :=
  Run.run_invariant (fun s a hs ha => hs.move (s.step_move uniqueKey a) ha) h hguard

/-- What every commit of a verified transaction keeps holds of the committed rows along a guarded
run. -/
theorem Sound.run_invariant {Inv : Store Row → Prop} {actions : List Action} (h : Sound D post s)
    (hcommit : ∀ committed writes, Inv committed → Based D committed writes → post writes →
      Inv (committed.overlay writes))
    (hguard : Run.RunMeets (System.step uniqueKey) (System.Guarded uniqueKey D.guard) s actions)
    (hinv : Inv s.committed) : Inv (Run.run (System.step uniqueKey) s actions).committed := by
  have hstep : ∀ (s : System Row Entry ε α) (a : Action), Sound D post s ∧ Inv s.committed →
      s.Guarded uniqueKey D.guard a →
        Sound D post (s.step uniqueKey a) ∧ Inv (s.step uniqueKey a).committed := by
    intro s a ⟨hs, hinv⟩ ha
    refine ⟨hs.move (s.step_move uniqueKey a) ha, ?_⟩
    -- Only a commit changes the committed rows.
    rcases hs.committed_move (s.step_move uniqueKey a) with hsame | ⟨writes, hwrites, hbased, hpost⟩
    · rw [hsame]
      exact hinv
    · rw [hwrites]
      exact hcommit _ _ hinv hbased hpost
  exact (Run.run_invariant hstep ⟨h, hinv⟩ hguard).2

/-- Along a guarded run committed rows only change as `rely` allows. -/
theorem Sound.run_evolves {actions : List Action} (h : Sound D post s)
    (hguard : Run.RunMeets (System.step uniqueKey) (System.Guarded uniqueKey D.guard) s actions) :
    Evolves D s.committed (Run.run (System.step uniqueKey) s actions).committed :=
  h.run_invariant (fun _ _ hevolves hbased _ => hevolves.trans hbased.evolves) hguard (.refl D _)

end Soundness

end Transaction
