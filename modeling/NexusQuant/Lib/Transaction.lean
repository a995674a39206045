import Mathlib.Logic.Function.Basic
import NexusQuant.Lib.Dict

/-!
# Database transactions as programs

A transaction is a program whose steps are single database statements: it reads a row by its key or
the rows that pass a filter, updates a row by its key, or appends to a log, and it ends by returning
or by throwing.  `Program.wp` is a program logic for transactions that run beside others.  Between
a read and the statement that uses it other transactions may commit, so what a program knows of a
row is what it saw of it last, up to the changes `rely` allows everybody.
-/

namespace Transaction

variable {τ : Type} {Row : τ → Type} {Entry ε α β : Type}

/-! ## Rows -/

/-- The rows of every table under their primary keys. -/
abbrev Store (Row : τ → Type) := (t : τ) → Dict (Row t)

namespace Store

def empty : Store Row := fun _ => []

def get? (s : Store Row) (t : τ) (id : String) : Option (Row t) := (s t).get? id

/-- The rows of `s`, with those of `writes` in their place. -/
def overlay (s writes : Store Row) : Store Row := fun t =>
  (writes t).foldr (fun row rows => rows.set row.1 row.2) (s t)

variable {s writes : Store Row} {t : τ} {id : String}

@[simp] theorem get?_empty : (empty : Store Row).get? t id = none := rfl

theorem get?_overlay :
    (s.overlay writes).get? t id = (writes.get? t id).or (s.get? t id) := by
  show Dict.get? ((writes t).foldr _ (s t)) id = (Dict.get? (writes t) id).or (Dict.get? (s t) id)
  -- On the writes: the first one under a key is set last.
  induction writes t with
  | nil => rfl
  | cons row rows ih =>
      obtain ⟨k, v⟩ := row
      rw [List.foldr_cons, Dict.get?_cons]
      by_cases hk : k = id
      · rw [if_pos hk, hk, Dict.get?_set_self]
        rfl
      · rw [if_neg hk, Dict.get?_set_of_ne (Ne.symm hk), ih]

theorem get?_overlay_of_some {row : Row t} (h : writes.get? t id = some row) :
    (s.overlay writes).get? t id = some row := by
  rw [get?_overlay, h]
  rfl

theorem get?_overlay_of_none (h : writes.get? t id = none) :
    (s.overlay writes).get? t id = s.get? t id := by
  rw [get?_overlay, h]
  rfl

variable [DecidableEq τ]

def set (s : Store Row) (t : τ) (id : String) (row : Row t) : Store Row :=
  Function.update s t ((s t).set id row)

variable {row : Row t}

@[simp] theorem set_self : s.set t id row t = (s t).set id row := Function.update_self ..

theorem set_of_ne {u : τ} (h : u ≠ t) : s.set t id row u = s u := Function.update_of_ne h ..

@[simp] theorem get?_set_self : (s.set t id row).get? t id = some row := by
  rw [get?, set, Function.update_self, Dict.get?_set_self]

theorem get?_set_of_ne {u : τ} {other : String} (h : u ≠ t ∨ other ≠ id) :
    (s.set t id row).get? u other = s.get? u other := by
  by_cases hu : u = t
  · subst hu
    have hid : other ≠ id := h.resolve_left (fun hne => hne rfl)
    rw [get?, set, Function.update_self, Dict.get?_set_of_ne hid, get?]
  · rw [get?, set, Function.update_of_ne hu, get?]

/-- The row a write leaves under a key is the new row or the one that was there. -/
theorem get?_set_cases {u : τ} {other : String} {found : Row u}
    (h : (s.set t id row).get? u other = some found) :
    (∃ hu : u = t, other = id ∧ found = hu ▸ row) ∨
      ((u ≠ t ∨ other ≠ id) ∧ s.get? u other = some found) := by
  by_cases hne : u ≠ t ∨ other ≠ id
  · rw [get?_set_of_ne hne] at h
    exact .inr ⟨hne, h⟩
  · rw [not_or, not_not, not_not] at hne
    have ⟨hu, hid⟩ := hne
    subst hu hid
    rw [get?_set_self] at h
    exact .inl ⟨rfl, rfl, (Option.some.inj h).symm⟩

theorem get?_set_eq_some {other : String} {found : Row t} :
    (s.set t id row).get? t other = some found ↔
      other = id ∧ found = row ∨ other ≠ id ∧ s.get? t other = some found := by
  by_cases hid : other = id
  · subst hid
    rw [get?_set_self]
    simp [eq_comm]
  · rw [get?_set_of_ne (.inr hid)]
    simp [hid]

theorem get?_set_eq_none {other : String} :
    (s.set t id row).get? t other = none ↔ other ≠ id ∧ s.get? t other = none := by
  by_cases hid : other = id
  · subst hid
    simp
  · rw [get?_set_of_ne (.inr hid)]
    simp [hid]

theorem get?_overlay_set_of_ne {u : τ} {other : String} (h : u ≠ t ∨ other ≠ id) :
    (s.overlay (writes.set t id row)).get? u other = (s.overlay writes).get? u other := by
  rw [get?_overlay, get?_set_of_ne h, ← get?_overlay]

theorem get?_overlay_set_cases {u : τ} {other : String} {found : Row u}
    (h : (s.overlay (writes.set t id row)).get? u other = some found) :
    (∃ hu : u = t, other = id ∧ found = hu ▸ row) ∨
      ((u ≠ t ∨ other ≠ id) ∧ (s.overlay writes).get? u other = some found) := by
  by_cases hne : u ≠ t ∨ other ≠ id
  · rw [get?_overlay_set_of_ne hne] at h
    exact .inr ⟨hne, h⟩
  · rw [not_or, not_not, not_not] at hne
    have ⟨hu, hid⟩ := hne
    subst hu hid
    rw [get?_overlay_of_some get?_set_self] at h
    exact .inl ⟨rfl, rfl, (Option.some.inj h).symm⟩

/-- Keeps in mind a row that was read. -/
def note (s : Store Row) (t : τ) (id : String) : Option (Row t) → Store Row
  | none => s
  | some row => s.set t id row

end Store

/-! ## Programs -/

inductive Program (Row : τ → Type) (Entry ε α : Type) where
  | done (a : α)
  | fail (e : ε)
  | find (t : τ) (id : String) (next : Option (Row t) → Program Row Entry ε α)
  | findMany (t : τ) (p : String → Row t → Bool)
      (next : List (String × Row t) → Program Row Entry ε α)
  | update (t : τ) (id : String) (f : Row t → Row t) (next : Program Row Entry ε α)
  | record (entry : Entry) (next : Program Row Entry ε α)

namespace Program

def bind : Program Row Entry ε α → (α → Program Row Entry ε β) → Program Row Entry ε β
  | .done a, q => q a
  | .fail e, _ => .fail e
  | .find t id next, q => .find t id fun row => (next row).bind q
  | .findMany t p next, q => .findMany t p fun rows => (next rows).bind q
  | .update t id f next, q => .update t id f (next.bind q)
  | .record entry next, q => .record entry (next.bind q)

instance : Monad (Program Row Entry ε) where
  pure := .done
  bind := bind

/-- What is decided before the first statement. -/
def ofExcept : Except ε α → Program Row Entry ε α
  | .ok a => .done a
  | .error e => .fail e

/-- A check that throws. -/
def failIf (c : Prop) [Decidable c] (e : ε) : Program Row Entry ε Unit :=
  if c then .fail e else .done ()

def findUnique (t : τ) (id : String) : Program Row Entry ε (Option (Row t)) := .find t id .done

def findAll (t : τ) (p : String → Row t → Bool) : Program Row Entry ε (List (String × Row t)) :=
  .findMany t p .done

def modify (t : τ) (id : String) (f : Row t → Row t) : Program Row Entry ε Unit :=
  .update t id f (.done ())

def create (entry : Entry) : Program Row Entry ε Unit := .record entry (.done ())

end Program

/-! ## The program logic -/

/-- `guard` is what is asked of every update that is made, `rely` how rows may change under the
eyes of a transaction. -/
structure Discipline (Row : τ → Type) where
  guard : (t : τ) → Row t → Row t → Prop
  rely : (t : τ) → Row t → Row t → Prop
  refl : ∀ (t : τ) (row : Row t), rely t row row
  trans : ∀ (t : τ) {a b c : Row t}, rely t a b → rely t b c → rely t a c

namespace Program

variable [DecidableEq τ] (D : Discipline Row)

/-- Every guarded update of the program is one `rely` allows, and the program returns, if at all,
with writes and a result that satisfy `post`.  `seen` are the rows it read, `writes` its own. -/
def wp : Program Row Entry ε α → (Store Row → Store Row → α → Prop) → Store Row → Store Row → Prop
  | .done a, post, seen, writes => post seen writes a
  | .fail _, _, _, _ => True
  | .find t id next, post, seen, writes =>
      ∀ row, (next row).wp post (seen.note t id row) writes
  | .findMany _ _ next, post, seen, writes => ∀ rows, (next rows).wp post seen writes
  | .update t id f next, post, seen, writes =>
      ∀ row, (∀ before, seen.get? t id = some before → D.rely t before row) →
        D.guard t row (f row) →
          D.rely t row (f row) ∧ next.wp post seen (writes.set t id (f row))
  | .record _ next, post, seen, writes => next.wp post seen writes

variable {D} {post : Store Row → Store Row → β → Prop} {seen writes : Store Row}

@[simp] theorem wp_bind (p : Program Row Entry ε α) (q : α → Program Row Entry ε β) :
    (p >>= q).wp D post seen writes ↔
      p.wp D (fun seen writes a => (q a).wp D post seen writes) seen writes := by
  show (p.bind q).wp D post seen writes ↔ _
  -- On the program, one rule for each statement.
  induction p generalizing seen writes with
  | done a => exact Iff.rfl
  | fail e => exact Iff.rfl
  | find t id next ih => exact forall_congr' fun row => ih row
  | findMany t p next ih => exact forall_congr' fun rows => ih rows
  | update t id f next ih =>
      exact forall_congr' fun row => imp_congr_right fun _ => imp_congr_right fun _ =>
        and_congr_right fun _ => ih
  | record entry next ih => exact ih

@[simp] theorem wp_pure (b : β) :
    (pure b : Program Row Entry ε β).wp D post seen writes ↔ post seen writes b := Iff.rfl

@[simp] theorem wp_fail (e : ε) :
    (.fail e : Program Row Entry ε β).wp D post seen writes ↔ True := Iff.rfl

theorem wp_ofExcept {result : Except ε β}
    (h : ∀ b, result = .ok b → post seen writes b) :
    (ofExcept result : Program Row Entry ε β).wp D post seen writes := by
  cases result with
  | ok b => exact h b rfl
  | error e => trivial

theorem wp_findUnique {t : τ} {id : String}
    {post : Store Row → Store Row → Option (Row t) → Prop} :
    (findUnique t id : Program Row Entry ε _).wp D post seen writes ↔
      ∀ row, post (seen.note t id row) writes row := Iff.rfl

theorem wp_findAll {t : τ} {p : String → Row t → Bool}
    {post : Store Row → Store Row → List (String × Row t) → Prop} :
    (findAll t p : Program Row Entry ε _).wp D post seen writes ↔
      ∀ rows, post seen writes rows := Iff.rfl

theorem wp_modify {t : τ} {id : String} {f : Row t → Row t}
    {post : Store Row → Store Row → Unit → Prop} :
    (modify t id f : Program Row Entry ε _).wp D post seen writes ↔
      ∀ row, (∀ before, seen.get? t id = some before → D.rely t before row) →
        D.guard t row (f row) →
          D.rely t row (f row) ∧ post seen (writes.set t id (f row)) () := Iff.rfl

theorem wp_failIf {c : Prop} [Decidable c] {e : ε} {post : Store Row → Store Row → Unit → Prop} :
    (failIf c e : Program Row Entry ε Unit).wp D post seen writes ↔ (¬c → post seen writes ()) := by
  unfold failIf
  split
  · rename_i hc
    exact ⟨fun _ hnot => absurd hc hnot, fun _ => trivial⟩
  · rename_i hc
    exact ⟨fun h _ => h, fun h => h hc⟩

theorem wp_mono {p : Program Row Entry ε β} {post' : Store Row → Store Row → β → Prop}
    (hp : p.wp D post seen writes) (h : ∀ seen writes b, post seen writes b → post' seen writes b) :
    p.wp D post' seen writes := by
  induction p generalizing seen writes with
  | done b => exact h _ _ _ hp
  | fail e => trivial
  | find t id next ih => exact fun row => ih row (hp row)
  | findMany t p next ih => exact fun rows => ih rows (hp rows)
  | update t id f next ih =>
      intro row hrow hguard
      exact ⟨(hp row hrow hguard).1, ih (hp row hrow hguard).2⟩
  | record entry next ih => exact ih hp

/-- The loop rule: what every round keeps holds after the loop. -/
theorem wp_forM {ι : Type} {f : ι → Program Row Entry ε PUnit} {Inv : Store Row → Store Row → Prop}
    {l : List ι}
    (hround : ∀ i ∈ l, ∀ seen writes, Inv seen writes →
      (f i).wp D (fun seen writes _ => Inv seen writes) seen writes)
    (h : Inv seen writes) : (l.forM f).wp D (fun seen writes _ => Inv seen writes) seen writes := by
  induction l generalizing seen writes with
  | nil => exact h
  | cons i l ih =>
      show (f i >>= fun _ => l.forM f).wp D _ seen writes
      rw [wp_bind]
      apply wp_mono (hround i List.mem_cons_self seen writes h)
      intro seen writes _ hinv
      exact ih (fun j hj => hround j (List.mem_cons_of_mem i hj)) hinv

end Program

end Transaction
