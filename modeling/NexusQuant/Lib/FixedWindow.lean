import Mathlib.Data.List.Basic
import Mathlib.Data.List.Count
import Mathlib.Data.List.Induction
import Mathlib.Algebra.Order.Ring.Int

/-!
# Fixed-window counters

A counter opens at its first count, expires a window later, and counts from one again when it is next
used; it can also be cleared.  The log of a family of counters has an entry for every count, which
says whether the count opened its counter.  `Linked` ties the counter of a key to the log, `Bounded`
says how far a counter gets between its opening and its expiry, and `Steady` how the openings of a
key that is never cleared are spaced.
-/

namespace FixedWindow

structure Counter where
  count : ℕ
  resetAt : ℤ
deriving DecidableEq, Repr

inductive Entry (κ : Type*) where
  | tick (key : κ) (time : ℤ) (opens : Bool)
  | clear (key : κ)
deriving DecidableEq, Repr

/-- Where a list with one more entry is cut: at that entry, or before it. -/
theorem append_singleton_eq {α : Type*} {log past rest : List α} {e x : α}
    (h : log ++ [x] = past ++ e :: rest) :
    (log = past ∧ x = e ∧ rest = []) ∨ ∃ rest', rest = rest' ++ [x] ∧ log = past ++ e :: rest' := by
  rcases List.eq_nil_or_concat rest with rfl | ⟨rest', y, rfl⟩
  · obtain ⟨hpast, hx⟩ := List.append_inj' h rfl
    exact .inl ⟨hpast, List.singleton_inj.mp hx, rfl⟩
  · rw [List.concat_eq_append, ← List.cons_append, ← List.append_assoc] at h
    obtain ⟨hlog, hx⟩ := List.append_inj' h rfl
    rw [List.singleton_inj.mp hx]
    exact .inr ⟨rest', List.concat_eq_append, hlog⟩

variable {κ : Type*} [DecidableEq κ]

/-- A count of the key before a time. -/
def Entry.before (key : κ) (stop : ℤ) : Entry κ → Bool
  | .tick k t _ => decide (k = key) && decide (t < stop)
  | .clear _ => false

/-- A count of the key after a time. -/
def Entry.after (key : κ) (start : ℤ) : Entry κ → Bool
  | .tick k t _ => decide (k = key) && decide (start < t)
  | .clear _ => false

/-- From an opening of the key on, and until it is cleared, at most `limit` counts come before the
counter expires: the opening one and those of every stretch that follows. -/
def Bounded (window : ℤ) (limit : ℕ) (key : κ) (log : List (Entry κ)) : Prop :=
  ∀ past t stretch rest, log = past ++ .tick key t true :: (stretch ++ rest) →
    .clear key ∉ stretch → stretch.countP (Entry.before key (t + window)) + 1 ≤ limit

/-- The counter of the key holds what the log says, if it has not expired at `clock`. -/
structure Linked (window : ℤ) (key : κ) (clock : ℤ) (counter : Option Counter)
    (log : List (Entry κ)) : Prop where
  latest : ∀ past t stretch, log = past ++ .tick key t true :: stretch → .clear key ∉ stretch →
    t + window ≤ clock ∨
      counter = some ⟨stretch.countP (Entry.before key (t + window)) + 1, t + window⟩
  opened : ∀ c ∈ counter, ∃ t, .tick key t true ∈ log ∧ t + window = c.resetAt

/-- An opening comes at least a window after the ones before it, and every other count within a
window of an opening. -/
structure Steady (window : ℤ) (key : κ) (log : List (Entry κ)) : Prop where
  uncleared : .clear key ∉ log
  spaced : ∀ past c rest, log = past ++ .tick key c true :: rest → ∀ t opens,
    .tick key t opens ∈ past → t < c ∧ (opens = true → t + window ≤ c)
  covered : ∀ past t rest, log = past ++ .tick key t false :: rest →
    ∃ c, .tick key c true ∈ past ∧ t < c + window

/-! ## One more entry -/

section Append

variable {window clock time : ℤ} {limit : ℕ} {key : κ} {counter : Option Counter}
  {log : List (Entry κ)} {x : Entry κ}

/-- An entry that no open counter of the key counts changes no bound. -/
theorem Bounded.append (h : Bounded window limit key log) (hopens : ∀ t, x = .tick key t true → 1 ≤ limit)
    (hcount : ∀ past t stretch, log = past ++ .tick key t true :: stretch → .clear key ∉ stretch →
      x.before key (t + window) → stretch.countP (Entry.before key (t + window)) + 2 ≤ limit) :
    Bounded window limit key (log ++ [x]) := by
  intro past t stretch rest heq hclear
  rcases append_singleton_eq heq with ⟨-, hx, hnil⟩ | ⟨before, hrest, hlog⟩
  · -- the new entry is the opening
    rw [(List.append_eq_nil_iff.mp hnil).1]
    exact hopens t hx
  · rcases List.eq_nil_or_concat rest with rfl | ⟨rest', y, rfl⟩
    · -- the stretch ends with the new entry
      rw [List.append_nil] at hrest
      subst hrest
      have hkept : .clear key ∉ before := fun hmem => hclear (List.mem_append_left _ hmem)
      rw [List.countP_append, List.countP_singleton]
      by_cases hbefore : x.before key (t + window)
      · rw [if_pos hbefore]
        exact hcount past t before hlog hkept hbefore
      · rw [if_neg hbefore]
        exact h past t before [] (by rw [List.append_nil]; exact hlog) hkept
    · rw [List.concat_eq_append, ← List.append_assoc] at hrest
      obtain ⟨hbefore, -⟩ := List.append_inj' hrest rfl
      exact h past t stretch rest' (by rw [hbefore]; exact hlog) hclear

theorem Linked.advance (h : Linked window key clock counter log) (hclock : clock ≤ time) :
    Linked window key time counter log := by
  refine ⟨fun past t stretch heq hclear => ?_, h.opened⟩
  rcases h.latest past t stretch heq hclear with hexpired | hcounter
  · exact .inl (hexpired.trans hclock)
  · exact .inr hcounter

/-- An expired counter may be dropped. -/
theorem Linked.drop (h : Linked window key clock counter log)
    (hexpired : ∀ c ∈ counter, c.resetAt ≤ clock) : Linked window key clock none log := by
  refine ⟨fun past t stretch heq hclear => ?_, nofun⟩
  rcases h.latest past t stretch heq hclear with hlapsed | hcounter
  · exact .inl hlapsed
  · exact .inl (hexpired _ hcounter)

/-- Entries of other keys do not matter. -/
theorem Linked.other (h : Linked window key clock counter log)
    (hcount : ∀ stop, x.before key stop = false) (hopens : ∀ t, x ≠ .tick key t true) :
    Linked window key clock counter (log ++ [x]) := by
  constructor
  · intro past t stretch heq hclear
    rcases append_singleton_eq heq with ⟨-, hx, -⟩ | ⟨before, rfl, hlog⟩
    · exact absurd hx (hopens t)
    · have hkept : .clear key ∉ before := fun hmem => hclear (List.mem_append_left _ hmem)
      rw [List.countP_append, List.countP_singleton, hcount]
      exact h.latest past t before hlog hkept
  · intro c hc
    obtain ⟨t, ht, hreset⟩ := h.opened c hc
    exact ⟨t, List.mem_append_left _ ht, hreset⟩

theorem Bounded.other (h : Bounded window limit key log)
    (hcount : ∀ stop, x.before key stop = false) (hopens : ∀ t, x ≠ .tick key t true) :
    Bounded window limit key (log ++ [x]) := by
  apply h.append
  · exact fun t hx => absurd hx (hopens t)
  · intro past t stretch _ _ hbefore
    rw [hcount] at hbefore
    cases hbefore

theorem Entry.before_tick {k : κ} {opens : Bool} {stop : ℤ} :
    (Entry.tick k time opens).before key stop ↔ k = key ∧ time < stop := by
  simp [Entry.before]

/-- A counter that has not expired counts on. -/
theorem Linked.count {c : Counter} (h : Linked window key clock (some c) log)
    (hclock : clock ≤ time) (hlive : time < c.resetAt) :
    Linked window key time (some ⟨c.count + 1, c.resetAt⟩) (log ++ [.tick key time false]) := by
  constructor
  · intro past t stretch heq hclear
    rcases append_singleton_eq heq with ⟨-, hx, -⟩ | ⟨before, rfl, hlog⟩
    · cases hx
    · have hkept : .clear key ∉ before := fun hmem => hclear (List.mem_append_left _ hmem)
      rcases h.latest past t before hlog hkept with hexpired | hcounter
      · exact .inl (hexpired.trans hclock)
      · have hcount := Option.some.inj hcounter
        right
        rw [hcount] at hlive ⊢
        rw [List.countP_append, List.countP_singleton, if_pos (Entry.before_tick.mpr ⟨rfl, hlive⟩)]
  · intro c' hc'
    obtain rfl := Option.some.inj hc'
    obtain ⟨t, ht, hreset⟩ := h.opened c rfl
    exact ⟨t, List.mem_append_left _ ht, hreset⟩

theorem Bounded.count {c : Counter} (h : Bounded window limit key log)
    (hlinked : Linked window key clock (some c) log) (hclock : clock ≤ time)
    (hroom : c.count < limit) : Bounded window limit key (log ++ [.tick key time false]) := by
  apply h.append
  · intro t hx
    cases hx
  · intro past t stretch hlog hclear hbefore
    have hstop := (Entry.before_tick.mp hbefore).2
    rcases hlinked.latest past t stretch hlog hclear with hexpired | hcounter
    · omega
    · have hcount := congrArg Counter.count (Option.some.inj hcounter)
      dsimp only at hcount
      omega

/-- Where there is no counter, or an expired one, a new one opens. -/
theorem Linked.open (h : Linked window key clock counter log) (hclock : clock ≤ time)
    (hexpired : ∀ c ∈ counter, c.resetAt ≤ time) :
    Linked window key time (some ⟨1, time + window⟩) (log ++ [.tick key time true]) := by
  constructor
  · intro past t stretch heq hclear
    rcases append_singleton_eq heq with ⟨-, hx, rfl⟩ | ⟨before, rfl, hlog⟩
    · cases hx
      exact .inr rfl
    · have hkept : .clear key ∉ before := fun hmem => hclear (List.mem_append_left _ hmem)
      rcases h.latest past t before hlog hkept with hlapsed | hcounter
      · exact .inl (hlapsed.trans hclock)
      · exact .inl (hexpired _ hcounter)
  · intro c hc
    obtain rfl := Option.some.inj hc
    exact ⟨time, List.mem_append_right _ List.mem_cons_self, rfl⟩

theorem Bounded.open (h : Bounded window limit key log)
    (hlinked : Linked window key clock counter log) (hclock : clock ≤ time)
    (hexpired : ∀ c ∈ counter, c.resetAt ≤ time) (hlimit : 1 ≤ limit) :
    Bounded window limit key (log ++ [.tick key time true]) := by
  apply h.append
  · exact fun _ _ => hlimit
  · intro past t stretch hlog hclear hbefore
    have hstop := (Entry.before_tick.mp hbefore).2
    rcases hlinked.latest past t stretch hlog hclear with hlapsed | hcounter
    · omega
    · have hreset := hexpired _ hcounter
      dsimp only at hreset
      omega

/-- A cleared key has no counter. -/
theorem Linked.clear : Linked window key clock none (log ++ [.clear key]) := by
  refine ⟨fun past t stretch heq hclear => ?_, nofun⟩
  rcases append_singleton_eq heq with ⟨-, hx, -⟩ | ⟨before, rfl, -⟩
  · cases hx
  · exact absurd (List.mem_append_right _ List.mem_cons_self) hclear

theorem Bounded.clear (h : Bounded window limit key log) (k : κ) :
    Bounded window limit key (log ++ [.clear k]) :=
  h.other (fun _ => rfl) fun _ hx => by cases hx

end Append

/-! ## A key that is never cleared -/

section Steady

variable {window clock time : ℤ} {limit : ℕ} {key : κ} {counter : Option Counter}
  {log : List (Entry κ)} {x : Entry κ}

omit [DecidableEq κ] in
theorem Steady.of_append {rest : List (Entry κ)} (h : Steady window key (log ++ rest)) :
    Steady window key log := by
  refine ⟨fun hmem => h.uncleared (List.mem_append_left _ hmem), ?_, ?_⟩
  · intro past c after heq
    exact h.spaced past c (after ++ rest) (by rw [heq, List.append_assoc, List.cons_append])
  · intro past t after heq
    exact h.covered past t (after ++ rest) (by rw [heq, List.append_assoc, List.cons_append])

theorem Bounded.of_append {rest : List (Entry κ)} (h : Bounded window limit key (log ++ rest)) :
    Bounded window limit key log := by
  intro past t stretch after heq hclear
  apply h past t stretch (after ++ rest) ?_ hclear
  rw [heq, List.append_assoc, List.cons_append, List.append_assoc]

omit [DecidableEq κ] in
theorem Steady.other (h : Steady window key log) (hclear : x ≠ .clear key)
    (htick : ∀ t opens, x ≠ .tick key t opens) : Steady window key (log ++ [x]) := by
  refine ⟨?_, ?_, ?_⟩
  · intro hmem
    rcases List.mem_append.mp hmem with hmem | hmem
    · exact h.uncleared hmem
    · exact hclear (List.mem_singleton.mp hmem).symm
  · intro past c rest heq
    rcases append_singleton_eq heq with ⟨-, hx, -⟩ | ⟨rest', -, hlog⟩
    · exact absurd hx (htick c true)
    · exact h.spaced past c rest' hlog
  · intro past t rest heq
    rcases append_singleton_eq heq with ⟨-, hx, -⟩ | ⟨rest', -, hlog⟩
    · exact absurd hx (htick t false)
    · exact h.covered past t rest' hlog

theorem Steady.count {c : Counter} (h : Steady window key log)
    (hlinked : Linked window key clock (some c) log) (hlive : time < c.resetAt) :
    Steady window key (log ++ [.tick key time false]) := by
  refine ⟨?_, ?_, ?_⟩
  · intro hmem
    rcases List.mem_append.mp hmem with hmem | hmem
    · exact h.uncleared hmem
    · cases List.mem_singleton.mp hmem
  · intro past t rest heq
    rcases append_singleton_eq heq with ⟨-, hx, -⟩ | ⟨rest', -, hlog⟩
    · cases hx
    · exact h.spaced past t rest' hlog
  · intro past t rest heq
    rcases append_singleton_eq heq with ⟨hpast, hx, -⟩ | ⟨rest', -, hlog⟩
    · cases hx
      obtain ⟨opening, hmem, hreset⟩ := hlinked.opened c rfl
      rw [← hpast]
      exact ⟨opening, hmem, by omega⟩
    · exact h.covered past t rest' hlog

/-- Every opening of the key has expired when a new one comes. -/
theorem Linked.opening_le (h : Linked window key clock counter log) (huncleared : .clear key ∉ log)
    (hclock : clock ≤ time) (hexpired : ∀ c ∈ counter, c.resetAt ≤ time) {t : ℤ}
    (ht : .tick key t true ∈ log) : t + window ≤ time := by
  obtain ⟨past, stretch, hlog⟩ := List.append_of_mem ht
  have hkept : .clear key ∉ stretch := fun hmem =>
    huncleared (hlog ▸ List.mem_append_right _ (List.mem_cons_of_mem _ hmem))
  rcases h.latest past t stretch hlog hkept with hlapsed | hcounter
  · exact hlapsed.trans hclock
  · exact hexpired _ hcounter

omit [DecidableEq κ] in
/-- A count comes within a window of some opening. -/
theorem Steady.exists_opening (h : Steady window key log) (hwindow : 0 < window) {t : ℤ}
    {opens : Bool} (ht : .tick key t opens ∈ log) :
    ∃ c, .tick key c true ∈ log ∧ t < c + window := by
  cases opens with
  | true => exact ⟨t, ht, by omega⟩
  | false =>
      obtain ⟨past, rest, hlog⟩ := List.append_of_mem ht
      obtain ⟨c, hc, hlt⟩ := h.covered past t rest hlog
      exact ⟨c, hlog ▸ List.mem_append_left _ hc, hlt⟩

theorem Steady.open (h : Steady window key log) (hlinked : Linked window key clock counter log)
    (hwindow : 0 < window) (hclock : clock ≤ time) (hexpired : ∀ c ∈ counter, c.resetAt ≤ time) :
    Steady window key (log ++ [.tick key time true]) := by
  refine ⟨?_, ?_, ?_⟩
  · intro hmem
    rcases List.mem_append.mp hmem with hmem | hmem
    · exact h.uncleared hmem
    · cases List.mem_singleton.mp hmem
  · intro past c rest heq t opens ht
    rcases append_singleton_eq heq with ⟨hpast, hx, -⟩ | ⟨rest', -, hlog⟩
    · cases hx
      rw [← hpast] at ht
      obtain ⟨opening, hmem, hlt⟩ := h.exists_opening hwindow ht
      have hle := hlinked.opening_le h.uncleared hclock hexpired hmem
      refine ⟨by omega, ?_⟩
      rintro rfl
      exact hlinked.opening_le h.uncleared hclock hexpired ht
    · exact h.spaced past c rest' hlog t opens ht
  · intro past t rest heq
    rcases append_singleton_eq heq with ⟨-, hx, -⟩ | ⟨rest', -, hlog⟩
    · cases hx
    · exact h.covered past t rest' hlog

omit [DecidableEq κ] in
/-- A log without counts of the key, or one that is cut at the last opening. -/
theorem Steady.last_opening (h : Steady window key log) :
    (∀ t opens, .tick key t opens ∉ log) ∨
      ∃ past c rest, log = past ++ .tick key c true :: rest ∧ ∀ t, .tick key t true ∉ rest := by
  induction log using List.reverseRecOn with
  | nil => exact .inl fun _ _ => List.not_mem_nil
  | append_singleton l y ih =>
      by_cases hopens : ∃ c, y = .tick key c true
      · obtain ⟨c, rfl⟩ := hopens
        exact .inr ⟨l, c, [], rfl, fun _ => List.not_mem_nil⟩
      · have hne : ∀ t, .tick key t true ≠ y := fun t heq => hopens ⟨t, heq.symm⟩
        rcases ih h.of_append with hnone | ⟨past, c, rest, rfl, hrest⟩
        · left
          intro t opens hmem
          rcases List.mem_append.mp hmem with hmem | hmem
          · exact hnone t opens hmem
          · have hy := List.mem_singleton.mp hmem
            cases opens with
            | true => exact hne t hy
            | false =>
                obtain ⟨c, hc, -⟩ := h.covered l t [] (by rw [hy])
                exact hnone c true hc
        · refine .inr ⟨past, c, rest ++ [y], by rw [List.append_assoc, List.cons_append], ?_⟩
          intro t hmem
          rcases List.mem_append.mp hmem with hmem | hmem
          · exact hrest t hmem
          · exact hne t (List.mem_singleton.mp hmem)

/-- From the last opening on there are at most `limit` counts. -/
theorem Steady.countP_le {past rest : List (Entry κ)} {c : ℤ} (hwindow : 0 < window)
    (h : Steady window key (past ++ .tick key c true :: rest))
    (hbounded : Bounded window limit key (past ++ .tick key c true :: rest))
    (hrest : ∀ t, .tick key t true ∉ rest) (start : ℤ) :
    (.tick key c true :: rest).countP (Entry.after key start) ≤ limit := by
  have hkept : .clear key ∉ rest := fun hmem =>
    h.uncleared (List.mem_append_right _ (List.mem_cons_of_mem _ hmem))
  have hstretch := hbounded past c rest [] (by rw [List.append_nil]) hkept
  have hwithin : rest.countP (Entry.after key start) ≤
      rest.countP (Entry.before key (c + window)) := by
    apply List.countP_mono_left
    intro e he hafter
    cases e with
    | clear k => cases hafter
    | tick k t opens =>
        have hk : k = key := by
          unfold Entry.after at hafter
          simpa using (Bool.and_eq_true_iff.mp hafter).1
        subst hk
        cases opens with
        | true => exact absurd he (hrest t)
        | false =>
            -- The opening it falls to is this one: the ones before have expired.
            obtain ⟨mid, after, rfl⟩ := List.append_of_mem he
            obtain ⟨opening, hmem, hlt⟩ := h.covered (past ++ .tick k c true :: mid) t after (by simp)
            apply Entry.before_tick.mpr
            refine ⟨rfl, ?_⟩
            rcases List.mem_append.mp hmem with hmem | hmem
            · have hspaced := (h.spaced past c _ rfl opening true hmem).2 rfl
              omega
            · rcases List.mem_cons.mp hmem with heq | hmem
              · cases heq
                exact hlt
              · exact absurd (List.mem_append_left _ hmem) (hrest opening)
  rw [List.countP_cons]
  split <;> omega

theorem countP_after_eq_zero {past : List (Entry κ)} {start : ℤ}
    (h : ∀ t opens, .tick key t opens ∈ past → t ≤ start) :
    past.countP (Entry.after key start) = 0 := by
  rw [List.countP_eq_zero]
  intro e he hafter
  cases e with
  | clear k => cases hafter
  | tick k t opens =>
      obtain ⟨hk, hlt⟩ := Bool.and_eq_true_iff.mp hafter
      have hk : k = key := by simpa using hk
      have hlt : start < t := by simpa using hlt
      subst hk
      exact absurd (h t opens he) (not_le.mpr hlt)

/-- Where every counter has expired, at most `limit` counts came in the last window. -/
theorem Steady.recent_le (h : Steady window key log) (hbounded : Bounded window limit key log)
    (hwindow : 0 < window) (hexpired : ∀ t, .tick key t true ∈ log → t + window ≤ time) :
    log.countP (Entry.after key (time - window)) ≤ limit := by
  rcases h.last_opening with hnone | ⟨past, c, rest, rfl, hrest⟩
  · rw [countP_after_eq_zero fun t opens hmem => absurd hmem (hnone t opens)]
    exact Nat.zero_le _
  · have hc := hexpired c (List.mem_append_right _ List.mem_cons_self)
    have hpast : past.countP (Entry.after key (time - window)) = 0 := by
      apply countP_after_eq_zero
      intro t opens hmem
      have hlt := (h.spaced past c rest rfl t opens hmem).1
      omega
    rw [List.countP_append, hpast, Nat.zero_add]
    exact h.countP_le hwindow hbounded hrest _

/-- A window meets at most two lifetimes of a counter. -/
theorem Steady.recent_le_two (h : Steady window key log) (hbounded : Bounded window limit key log)
    (hwindow : 0 < window) (htime : ∀ t opens, .tick key t opens ∈ log → t ≤ time) :
    log.countP (Entry.after key (time - window)) ≤ 2 * limit := by
  rcases h.last_opening with hnone | ⟨past, c, rest, rfl, hrest⟩
  · rw [countP_after_eq_zero fun t opens hmem => absurd hmem (hnone t opens)]
    exact Nat.zero_le _
  · have hc := htime c true (List.mem_append_right _ List.mem_cons_self)
    have hlast := h.countP_le hwindow hbounded hrest (time - window)
    -- Every counter of the log before has expired when the last one opens.
    have hpast : past.countP (Entry.after key (time - window)) ≤
        past.countP (Entry.after key (c - window)) := by
      apply List.countP_mono_left
      intro e _ hafter
      cases e with
      | clear k => cases hafter
      | tick k t opens =>
          obtain ⟨hk, hlt⟩ := Bool.and_eq_true_iff.mp hafter
          have hlt : time - window < t := by simpa using hlt
          apply Bool.and_eq_true_iff.mpr
          exact ⟨hk, decide_eq_true (by omega)⟩
    have hbefore := h.of_append.recent_le hbounded.of_append hwindow
      fun t ht => (h.spaced past c rest rfl t true ht).2 rfl
    rw [List.countP_append]
    omega

end Steady

end FixedWindow
