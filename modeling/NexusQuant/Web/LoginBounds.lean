import Mathlib.Data.List.Perm.Subperm
import NexusQuant.Web.LoginRateLimit

/-!
# What the login throttle bounds

Each failure is counted under the client's key and under the global one, and only after a check has
found both counters below their limits.  The counters of clients that have not expired are no more
than the failures of the last window, which two lifetimes of the global counter hold: so there is
always room for one more, and no counter is dropped before it expires.
-/

namespace NexusQuant.Web

open FixedWindow Run

/-- The window in milliseconds. -/
def ThrottleConfig.window (cfg : ThrottleConfig) : ℤ := cfg.windowSeconds * 1000

def ThrottleConfig.limit (cfg : ThrottleConfig) (key : String) : ℕ :=
  if key = globalKey then cfg.globalMaxFailures else cfg.maxFailures

/-- Every bucket that has not expired is still there, and expires when it did. -/
def KeepsLive (m : Buckets) (now : ℤ) (m' : Buckets) : Prop :=
  ∀ key, ∀ entry ∈ m.get? key, now < entry.resetAt →
    ∃ entry' ∈ m'.get? key, entry'.resetAt = entry.resetAt

/-- No `memoryIncr` of a failure evicts a bucket that has not expired. -/
def EvictsExpired (cfg : ThrottleConfig) (m : Buckets) : List (String × ℤ) → Prop
  | [] => True
  | (key, now) :: reads =>
      KeepsLive m now (memoryIncr m key cfg.windowSeconds now) ∧
        EvictsExpired cfg (memoryIncr m key cfg.windowSeconds now) reads

/-! ## The map -/

section Map

variable {m : Buckets} {key other : String} {now : ℤ} {entry : Counter} {windowSeconds : ℕ}

theorem mem_liveEntry : entry ∈ liveEntry m key now ↔ entry ∈ m.get? key ∧ now < entry.resetAt := by
  unfold liveEntry
  rw [Option.mem_def, Option.filter_eq_some_iff]
  simp

theorem liveEntry_eq_none : liveEntry m key now = none ↔ ∀ c ∈ m.get? key, c.resetAt ≤ now := by
  unfold liveEntry
  rw [Option.filter_eq_none_iff]
  simp

theorem get?_memoryGet : (memoryGet m key now).2.get? other =
    if other = key then liveEntry m key now else m.get? other := by
  unfold memoryGet liveEntry
  cases hentry : m.get? key with
  | none =>
      by_cases hkey : other = key
      · rw [if_pos hkey, hkey, hentry]
        rfl
      · rw [if_neg hkey]
  | some entry =>
      dsimp only
      by_cases hexpired : entry.resetAt ≤ now
      · rw [if_pos hexpired, LiveMap.get?_erase]
        by_cases hkey : other = key
        · rw [if_pos hkey, if_pos hkey]
          simp [Option.filter, hexpired]
        · rw [if_neg hkey, if_neg hkey]
      · rw [if_neg hexpired]
        by_cases hkey : other = key
        · rw [if_pos hkey, hkey, hentry]
          simp [Option.filter, not_le.mp hexpired]
        · rw [if_neg hkey]

theorem memoryGet_count : (memoryGet m key now).1 =
    ((liveEntry m key now).map Counter.count).getD 0 := by
  unfold memoryGet liveEntry
  cases m.get? key with
  | none => rfl
  | some entry =>
      dsimp only
      by_cases hexpired : entry.resetAt ≤ now
      · rw [if_pos hexpired]
        simp [Option.filter, not_lt.mpr hexpired]
      · rw [if_neg hexpired]
        simp [Option.filter, not_le.mp hexpired]

theorem size_memoryGet_le : (memoryGet m key now).2.size ≤ m.size := by
  unfold memoryGet
  cases m.get? key with
  | none => exact le_rfl
  | some entry =>
      dsimp only
      by_cases hexpired : entry.resetAt ≤ now
      · rw [if_pos hexpired]
        exact LiveMap.size_erase_le
      · rw [if_neg hexpired]

/-- Where pruning makes room, nothing but expired buckets goes. -/
theorem makeRoom_spec (hroom : (prune m now).size < memoryMaxBuckets) :
    (makeRoom m now).size < memoryMaxBuckets ∧
      ∀ key, (makeRoom m now).get? key = m.get? key ∨
        ((makeRoom m now).get? key = none ∧ ∀ c ∈ m.get? key, c.resetAt ≤ now) := by
  unfold makeRoom
  by_cases hfull : m.size ≥ memoryMaxBuckets
  · rw [if_pos hfull]
    dsimp only
    rw [if_neg (not_le.mpr hroom)]
    refine ⟨hroom, fun key => ?_⟩
    rw [prune, LiveMap.get?_eraseWhere]
    cases hentry : m.get? key with
    | none => exact .inl rfl
    | some entry =>
        by_cases hexpired : entry.resetAt ≤ now
        · right
          simp [hexpired]
        · left
          simp [not_le.mp hexpired]
  · rw [if_neg hfull]
    exact ⟨not_le.mp hfull, fun _ => .inl rfl⟩

/-- The counter that `memoryIncr` leaves. -/
def nextEntry (live : Option Counter) (windowSeconds : ℕ) (now : ℤ) : Counter :=
  match live with
  | some entry => ⟨entry.count + 1, entry.resetAt⟩
  | none => ⟨1, now + windowSeconds * 1000⟩

theorem memoryIncr_spec
    (hroom : liveEntry m key now = none → (prune m now).size < memoryMaxBuckets) :
    (memoryIncr m key windowSeconds now).get? key =
        some (nextEntry (liveEntry m key now) windowSeconds now) ∧
      (∀ other, other ≠ key →
        (memoryIncr m key windowSeconds now).get? other = m.get? other ∨
        ((memoryIncr m key windowSeconds now).get? other = none ∧
          ∀ c ∈ m.get? other, c.resetAt ≤ now)) ∧
      (m.size ≤ memoryMaxBuckets →
        (memoryIncr m key windowSeconds now).size ≤ memoryMaxBuckets) := by
  unfold memoryIncr nextEntry
  cases hlive : liveEntry m key now with
  | some entry =>
      have hentry := (mem_liveEntry.mp (Option.mem_def.mpr hlive)).1
      refine ⟨?_, fun other hother => .inl ?_, fun hsize => ?_⟩
      · rw [LiveMap.get?_set, if_pos rfl]
      · rw [LiveMap.get?_set, if_neg hother]
      · dsimp only
        rw [LiveMap.size_set_of_get? hentry]
        exact hsize
  | none =>
      obtain ⟨hsize, hkept⟩ := makeRoom_spec (hroom hlive)
      refine ⟨?_, fun other hother => ?_, fun _ => ?_⟩
      · rw [LiveMap.get?_set, if_pos rfl]
      · dsimp only
        rw [LiveMap.get?_set, if_neg hother]
        exact hkept other
      · exact LiveMap.size_set_le.trans hsize

theorem keepsLive_memoryIncr
    (hroom : liveEntry m key now = none → (prune m now).size < memoryMaxBuckets) :
    KeepsLive m now (memoryIncr m key windowSeconds now) := by
  obtain ⟨hself, hothers, -⟩ := @memoryIncr_spec m key now windowSeconds hroom
  intro k entry hentry hnow
  by_cases hkey : k = key
  · subst hkey
    have hlive : liveEntry m k now = some entry := mem_liveEntry.mpr ⟨hentry, hnow⟩
    rw [hself, hlive]
    exact ⟨_, rfl, rfl⟩
  · rcases hothers k hkey with hsame | ⟨-, hexpired⟩
    · rw [hsame]
      exact ⟨entry, hentry, rfl⟩
    · exact absurd (hexpired entry hentry) (not_le.mpr hnow)

end Map

/-! ## The invariant -/

/-- A count of a client's key after a time. -/
def clientAfter (start : ℤ) : Entry String → Bool
  | .tick key t _ => decide (key ≠ globalKey) && decide (start < t)
  | .clear _ => false

/-- The counters hold what the log says, and the log keeps to the limits. -/
structure Throttle.Sound (cfg : ThrottleConfig) (clock : ℤ) (s : Throttle) : Prop where
  bounded : ∀ key, Bounded cfg.window (cfg.limit key) key s.log
  linked : ∀ key, Linked cfg.window key clock (s.buckets.get? key) s.log
  steady : Steady cfg.window globalKey s.log
  past : ∀ key t opens, .tick key t opens ∈ s.log → t ≤ clock
  size_le : s.buckets.size ≤ memoryMaxBuckets

/-- After any time the clients' counts are no more than the global ones, but for `slack`. -/
def Paired (slack : ℕ) (log : List (Entry String)) : Prop :=
  ∀ start, log.countP (clientAfter start) ≤ log.countP (Entry.after globalKey start) + slack

section Invariant

variable {cfg : ThrottleConfig} {clock now : ℤ} {s : Throttle} {m : Buckets} {key : String}
  {log : List (Entry String)}

theorem ThrottleConfig.window_pos (cfg : ThrottleConfig) : 0 < cfg.window := by
  have hpos := cfg.windowSeconds_pos
  unfold ThrottleConfig.window
  omega

theorem initial_log_ne (past rest : List (Entry String)) (e : Entry String) :
    Throttle.initial.log ≠ past ++ e :: rest := fun heq =>
  List.append_ne_nil_of_right_ne_nil past (List.cons_ne_nil e rest) heq.symm

theorem initial_sound (cfg : ThrottleConfig) (clock : ℤ) : Throttle.initial.Sound cfg clock where
  bounded _ _ _ _ _ heq := absurd heq (initial_log_ne _ _ _)
  linked _ := ⟨fun _ _ _ heq => absurd heq (initial_log_ne _ _ _), nofun⟩
  steady := ⟨List.not_mem_nil, fun _ _ _ heq => absurd heq (initial_log_ne _ _ _),
    fun _ _ _ heq => absurd heq (initial_log_ne _ _ _)⟩
  past _ _ _ hmem := absurd hmem List.not_mem_nil
  size_le := by decide

theorem Throttle.Sound.advance (h : s.Sound cfg clock) (hclock : clock ≤ now) : s.Sound cfg now :=
  ⟨h.bounded, fun key => (h.linked key).advance hclock, h.steady,
    fun key t opens hmem => (h.past key t opens hmem).trans hclock, h.size_le⟩

theorem Throttle.Sound.get (h : Throttle.Sound cfg clock ⟨m, log⟩) (hclock : clock ≤ now)
    (key : String) : Throttle.Sound cfg now ⟨(memoryGet m key now).2, log⟩ := by
  refine ⟨h.bounded, fun other => ?_, h.steady,
    fun k t opens hmem => (h.past k t opens hmem).trans hclock, size_memoryGet_le.trans h.size_le⟩
  show Linked cfg.window other now ((memoryGet m key now).2.get? other) log
  have hlinked : Linked cfg.window other now (m.get? other) log := (h.linked other).advance hclock
  rw [get?_memoryGet]
  by_cases hkey : other = key
  · rw [if_pos hkey]
    subst hkey
    cases hlive : liveEntry m other now with
    | none => exact hlinked.drop (liveEntry_eq_none.mp hlive)
    | some entry =>
        rw [← (mem_liveEntry.mp (Option.mem_def.mpr hlive)).1]
        exact hlinked
  · rw [if_neg hkey]
    exact hlinked

theorem before_of_ne {k : String} {t : ℤ} {opens : Bool} (hne : k ≠ key) (stop : ℤ) :
    (Entry.tick k t opens).before key stop = false := by
  simp [Entry.before, hne]

theorem tick_ne_of_ne {k : String} {t t' : ℤ} {opens opens' : Bool} (hne : k ≠ key) :
    Entry.tick k t opens ≠ .tick key t' opens' :=
  fun heq => hne (Entry.tick.inj heq).1

/-- A count under a key whose counter is below its limit, with room for a new one. -/
theorem Throttle.Sound.incr (h : Throttle.Sound cfg clock ⟨m, log⟩) (hclock : clock ≤ now)
    (hlimit : 1 ≤ cfg.limit key)
    (hroom : liveEntry m key now = none → (prune m now).size < memoryMaxBuckets)
    (hcount : ∀ c ∈ liveEntry m key now, c.count < cfg.limit key) :
    Throttle.Sound cfg now ⟨memoryIncr m key cfg.windowSeconds now,
      log ++ [.tick key now (liveEntry m key now).isNone]⟩ := by
  obtain ⟨hself, hothers, hsize⟩ := @memoryIncr_spec m key now cfg.windowSeconds hroom
  have hlinked : Linked cfg.window key clock (m.get? key) log := h.linked key
  -- What the count does to the key itself: it goes on with the live counter, or opens a new one.
  have hkeyed : Linked cfg.window key now (some (nextEntry (liveEntry m key now) cfg.windowSeconds now))
        (log ++ [.tick key now (liveEntry m key now).isNone]) ∧
      Bounded cfg.window (cfg.limit key) key
        (log ++ [.tick key now (liveEntry m key now).isNone]) ∧
      (key = globalKey → Steady cfg.window globalKey
        (log ++ [.tick key now (liveEntry m key now).isNone])) := by
    cases hlive : liveEntry m key now with
    | some entry =>
        obtain ⟨hentry, hnow⟩ := mem_liveEntry.mp (Option.mem_def.mpr hlive)
        rw [Option.mem_def.mp hentry] at hlinked
        refine ⟨hlinked.count hclock hnow,
          (h.bounded key).count hlinked hclock (hcount entry hlive), ?_⟩
        rintro rfl
        exact h.steady.count hlinked hnow
    | none =>
        have hexpired := liveEntry_eq_none.mp hlive
        refine ⟨hlinked.open hclock hexpired, (h.bounded key).open hlinked hclock hexpired hlimit, ?_⟩
        rintro rfl
        exact h.steady.open hlinked cfg.window_pos hclock hexpired
  refine ⟨fun other => ?_, fun other => ?_, ?_, ?_, hsize h.size_le⟩
  · by_cases hkey : other = key
    · rw [hkey]
      exact hkeyed.2.1
    · exact (h.bounded other).other (before_of_ne (Ne.symm hkey)) fun _ =>
        tick_ne_of_ne (Ne.symm hkey)
  · show Linked cfg.window other now ((memoryIncr m key cfg.windowSeconds now).get? other) _
    by_cases hkey : other = key
    · rw [hkey, hself]
      exact hkeyed.1
    · have hkept := ((h.linked other).advance hclock).other
        (@before_of_ne other key now (liveEntry m key now).isNone (Ne.symm hkey))
        fun _ => tick_ne_of_ne (Ne.symm hkey)
      rcases hothers other hkey with hsame | ⟨hgone, hexpired⟩
      · rw [hsame]
        exact hkept
      · rw [hgone]
        exact hkept.drop hexpired
  · by_cases hkey : key = globalKey
    · exact hkeyed.2.2 hkey
    · apply h.steady.other
      · intro heq
        cases heq
      · exact fun _ _ => tick_ne_of_ne hkey
  · intro k t opens hmem
    rcases List.mem_append.mp hmem with hmem | hmem
    · exact (h.past k t opens hmem).trans hclock
    · cases List.mem_singleton.mp hmem
      exact le_rfl

/-- A success clears the counter of its client. -/
theorem Throttle.Sound.clear (h : Throttle.Sound cfg clock ⟨m, log⟩) (hkey : key ≠ globalKey) :
    Throttle.Sound cfg clock ⟨m.erase key, log ++ [.clear key]⟩ := by
  refine ⟨fun other => (h.bounded other).clear key, fun other => ?_, ?_, ?_,
    LiveMap.size_erase_le.trans h.size_le⟩
  · show Linked cfg.window other clock ((m.erase key).get? other) _
    rw [LiveMap.get?_erase]
    by_cases hother : other = key
    · rw [if_pos hother, hother]
      exact Linked.clear
    · rw [if_neg hother]
      exact (h.linked other).other (fun _ => rfl) fun _ heq => by cases heq
  · apply h.steady.other
    · intro heq
      cases heq
      exact hkey rfl
    · intro t opens heq
      cases heq
  · intro k t opens hmem
    rcases List.mem_append.mp hmem with hmem | hmem
    · exact h.past k t opens hmem
    · cases List.mem_singleton.mp hmem

/-! ## Room for one more bucket -/

/-- The buckets that have not expired: the global one, and one for each client that has been counted
in the last window. -/
theorem Throttle.Sound.size_prune_le (h : Throttle.Sound cfg clock ⟨m, log⟩) {slack : ℕ}
    (hpaired : Paired slack log) (now : ℤ) : (prune m now).size ≤
      log.countP (Entry.after globalKey (now - cfg.window)) + slack + 1 := by
  have hkeys : (prune m now).cells.map LiveMap.Cell.key ⊆
      globalKey :: (log.filter (clientAfter (now - cfg.window))).map fun
        | .tick k _ _ => k
        | .clear k => k := by
    intro k hk
    obtain ⟨c, hc, rfl⟩ := List.mem_map.mp hk
    obtain ⟨hmem, hlive⟩ := LiveMap.mem_eraseWhere.mp hc
    have hlive : now < c.value.resetAt := by simpa using hlive
    by_cases hglobal : c.key = globalKey
    · rw [hglobal]
      exact List.mem_cons_self
    · obtain ⟨t, ht, hreset⟩ := (h.linked c.key).opened c.value
        (LiveMap.get?_eq_some.mpr ⟨c, hmem, rfl, rfl⟩)
      apply List.mem_cons_of_mem
      refine List.mem_map.mpr ⟨.tick c.key t true, List.mem_filter.mpr ⟨ht, ?_⟩, rfl⟩
      have hrecent : now - cfg.window < t := by omega
      simp [clientAfter, hglobal, hrecent]
  have hlength := (List.Nodup.subperm (prune m now).nodup hkeys).length_le
  rw [List.length_map, List.length_cons, List.length_map, ← List.countP_eq_length_filter] at hlength
  exact hlength.trans (Nat.succ_le_succ (hpaired _))

theorem Paired.append {slack slack' : ℕ} (h : Paired slack log) {x : Entry String}
    (hle : ∀ start, ((if clientAfter start x then 1 else 0) : ℕ) + slack ≤
      (if Entry.after globalKey start x then 1 else 0) + slack') :
    Paired slack' (log ++ [x]) := by
  intro start
  have hold := h start
  have hnew := hle start
  rw [List.countP_append, List.countP_singleton, List.countP_append, List.countP_singleton]
  omega

/-- A client's count is made up for by the global one that follows it. -/
theorem Paired.failure (h : Paired 0 log) (hkey : key ≠ globalKey) {opens opens' : Bool}
    {later : ℤ} (hlater : now ≤ later) :
    Paired 1 (log ++ [.tick key now opens]) ∧
      Paired 0 (log ++ [.tick key now opens] ++ [.tick globalKey later opens']) := by
  constructor
  · apply h.append
    intro start
    have hglobal : Entry.after globalKey start (.tick key now opens) = false := by
      simp [Entry.after, hkey]
    rw [hglobal]
    split <;> simp
  · intro start
    have hold := h start
    rw [List.append_assoc, List.singleton_append, List.countP_append,
      @List.countP_append _ (Entry.after globalKey start)]
    have hpair : [Entry.tick key now opens, .tick globalKey later opens'].countP (clientAfter start) ≤
        [Entry.tick key now opens, .tick globalKey later opens'].countP
          (Entry.after globalKey start) := by
      by_cases hstart : start < now
      · have hstart' : start < later := hstart.trans_le hlater
        simp [clientAfter, Entry.after, hkey, hstart, hstart']
      · simp [List.countP_cons, clientAfter, Entry.after, hkey, hstart]
    omega

end Invariant

/-! ## One request -/

section Request

variable {cfg : ThrottleConfig} {digest : String → String} {clock : ℤ} {s : Throttle} {m : Buckets}
  {log : List (Entry String)} {r : LoginRequest}

/-- The thirty-two digits of a client's key are not the name of the global one. -/
theorem clientKey_ne_globalKey (hdigest : ∀ clientId, (digest clientId).length = 64)
    (clientId : String) : clientKey digest clientId ≠ globalKey := by
  intro heq
  have hsuffix : String.ofList ((digest clientId).toList.take 32) = "global" := by
    unfold clientKey globalKey at heq
    exact (String.append_right_inj _).mp heq
  have hlength := congrArg String.length hsuffix
  rw [String.length_ofList, List.length_take, String.length_toList, hdigest] at hlength
  exact absurd hlength (by decide)

theorem bucketKeys_eq (hglobal : 0 < cfg.globalMaxFailures) (clientId : String) :
    bucketKeys digest clientId cfg = [clientKey digest clientId, globalKey] := by
  unfold bucketKeys
  rw [if_pos hglobal]

theorem checkLoginAllowed_buckets (hglobal : 0 < cfg.globalMaxFailures) (t t' : ℤ) :
    (checkLoginAllowed cfg digest m r.clientId [t, t']).2 =
      (memoryGet (memoryGet m (clientKey digest r.clientId) t).2 globalKey t').2 := by
  unfold checkLoginAllowed
  rw [bucketKeys_eq hglobal]
  rfl

/-- A check that does not limit has found both counters below their limits. -/
theorem checkLoginAllowed_below (hglobal : 0 < cfg.globalMaxFailures) {t t' : ℤ}
    (hkey : clientKey digest r.clientId ≠ globalKey)
    (hallowed : (checkLoginAllowed cfg digest m r.clientId [t, t']).1.limited = false) :
    (∀ c ∈ (checkLoginAllowed cfg digest m r.clientId [t, t']).2.get? (clientKey digest r.clientId),
      c.count < cfg.maxFailures) ∧
    ∀ c ∈ (checkLoginAllowed cfg digest m r.clientId [t, t']).2.get? globalKey,
      c.count < cfg.globalMaxFailures := by
  have hcounts : (memoryGet m (clientKey digest r.clientId) t).1 < cfg.maxFailures ∧
      (memoryGet (memoryGet m (clientKey digest r.clientId) t).2 globalKey t').1 <
        cfg.globalMaxFailures := by
    unfold checkLoginAllowed at hallowed
    rw [bucketKeys_eq hglobal] at hallowed
    simpa [memoryGets, hglobal] using hallowed
  rw [checkLoginAllowed_buckets hglobal]
  constructor
  · intro c hc
    rw [get?_memoryGet, if_neg hkey, get?_memoryGet, if_pos rfl] at hc
    have hclient := hcounts.1
    rw [memoryGet_count, Option.mem_def.mp hc] at hclient
    exact hclient
  · intro c hc
    rw [get?_memoryGet, if_pos rfl] at hc
    have hall := hcounts.2
    rw [memoryGet_count, Option.mem_def.mp hc] at hall
    exact hall

/-- A failure whose counters are below their limits: there is room for both of them. -/
theorem Throttle.Sound.failure (h : Throttle.Sound cfg clock ⟨m, log⟩) (hpaired : Paired 0 log)
    (hglobal : 0 < cfg.globalMaxFailures) (hsmall : cfg.globalMaxFailures < 5000) {key : String}
    (hkey : key ≠ globalKey) (hbelow : ∀ c ∈ m.get? key, c.count < cfg.maxFailures)
    (hbelow' : ∀ c ∈ m.get? globalKey, c.count < cfg.globalMaxFailures) {now later : ℤ}
    (hclock : clock ≤ now) (hlater : now ≤ later) :
    Throttle.Sound cfg later
        ⟨memoryIncr (memoryIncr m key cfg.windowSeconds now) globalKey cfg.windowSeconds later,
          log ++ failureEntries cfg m [(key, now), (globalKey, later)]⟩ ∧
      Paired 0 (log ++ failureEntries cfg m [(key, now), (globalKey, later)]) ∧
      EvictsExpired cfg m [(key, now), (globalKey, later)] := by
  have hlimit : cfg.limit key = cfg.maxFailures := if_neg hkey
  have hlimit' : cfg.limit globalKey = cfg.globalMaxFailures := if_pos rfl
  have hcap : memoryMaxBuckets = 10000 := rfl
  -- the client's counter: the live ones are the failures of two global lifetimes at most
  have hroom : (prune m now).size < memoryMaxBuckets := by
    have hsize := h.size_prune_le hpaired now
    have hrecent := h.steady.recent_le_two (h.bounded globalKey) cfg.window_pos
      fun t opens ht => (h.past globalKey t opens ht).trans hclock
    rw [hlimit'] at hrecent
    dsimp only at hrecent
    omega
  have hclient := h.incr hclock (by rw [hlimit]; exact cfg.maxFailures_pos)
    (fun _ => hroom) fun c hc => by
      rw [hlimit]
      exact hbelow c (mem_liveEntry.mp hc).1
  obtain ⟨hpaired₁, hpaired₀⟩ := hpaired.failure hkey hlater
  -- the global counter: where a new one opens, the last one has expired
  have hroom' : liveEntry (memoryIncr m key cfg.windowSeconds now) globalKey later = none →
      (prune (memoryIncr m key cfg.windowSeconds now) later).size < memoryMaxBuckets := by
    intro hnone
    have hsize := hclient.size_prune_le hpaired₁ later
    have hrecent := hclient.steady.recent_le (hclient.bounded globalKey) cfg.window_pos
      fun t ht => (hclient.linked globalKey).opening_le hclient.steady.uncleared hlater
        (liveEntry_eq_none.mp hnone) ht
    rw [hlimit'] at hrecent
    dsimp only at hrecent
    omega
  have hboth := hclient.incr hlater (by rw [hlimit']; exact hglobal) hroom' fun c hc => by
    rw [hlimit']
    have hmem := (mem_liveEntry.mp hc).1
    obtain ⟨-, hothers, -⟩ := @memoryIncr_spec m key now cfg.windowSeconds fun _ => hroom
    rcases hothers globalKey (Ne.symm hkey) with hsame | ⟨hgone, -⟩
    · rw [hsame] at hmem
      exact hbelow' c hmem
    · rw [hgone] at hmem
      cases hmem
  rw [List.append_assoc] at hboth hpaired₀
  exact ⟨hboth, hpaired₀, keepsLive_memoryIncr fun _ => hroom, keepsLive_memoryIncr hroom', trivial⟩

/-- The buckets that the two increments of a failure find. -/
def checkedBuckets (cfg : ThrottleConfig) (digest : String → String) (s : Throttle)
    (r : LoginRequest) : Buckets :=
  (checkLoginAllowed cfg digest s.buckets r.clientId [r.clientChecked, r.globalChecked]).2

/-- The increments of a failure, each with its reading. -/
def LoginRequest.increments (cfg : ThrottleConfig) (digest : String → String) (r : LoginRequest) :
    List (String × ℤ) :=
  (bucketKeys digest r.clientId cfg).zip [r.clientRecorded, r.globalRecorded]

/-- A request is recorded as a failure. -/
def LoginRequest.fails (cfg : ThrottleConfig) (digest : String → String) (s : Throttle)
    (r : LoginRequest) : Prop :=
  (checkLoginAllowed cfg digest s.buckets r.clientId
    [r.clientChecked, r.globalChecked]).1.limited = false ∧ r.outcome = .failure

theorem Throttle.Sound.request (h : s.Sound cfg clock) (hpaired : Paired 0 s.log)
    (hglobal : 0 < cfg.globalMaxFailures) (hsmall : cfg.globalMaxFailures < 5000)
    (hdigest : ∀ clientId, (digest clientId).length = 64)
    (hclock : (clock :: r.readings).Pairwise (· ≤ ·)) :
    (handleLogin cfg digest s r).Sound cfg r.globalRecorded ∧
      Paired 0 (handleLogin cfg digest s r).log ∧
      (r.fails cfg digest s →
        EvictsExpired cfg (checkedBuckets cfg digest s r) (r.increments cfg digest)) := by
  have hkey := @clientKey_ne_globalKey digest hdigest r.clientId
  simp only [LoginRequest.readings, List.pairwise_cons, List.mem_cons, List.not_mem_nil, or_false,
    forall_eq_or_imp, forall_eq, IsEmpty.forall_iff, implies_true, List.Pairwise.nil, and_true]
    at hclock
  obtain ⟨⟨hclock, -⟩, ⟨hchecked, -⟩, ⟨hbetween, -⟩, hrecorded⟩ := hclock
  -- The check only drops expired buckets.
  have hsound : Throttle.Sound cfg r.globalChecked ⟨checkedBuckets cfg digest s r, s.log⟩ := by
    have hgets := (h.get hclock (clientKey digest r.clientId)).get hchecked globalKey
    unfold checkedBuckets
    rw [checkLoginAllowed_buckets hglobal]
    exact hgets
  have hlate : r.globalChecked ≤ r.globalRecorded := hbetween.trans hrecorded
  have hincrements : r.increments cfg digest =
      [(clientKey digest r.clientId, r.clientRecorded), (globalKey, r.globalRecorded)] := by
    unfold LoginRequest.increments
    rw [bucketKeys_eq hglobal]
    rfl
  cases hlimited : (checkLoginAllowed cfg digest s.buckets r.clientId
      [r.clientChecked, r.globalChecked]).1.limited with
  | true =>
      have hresult : handleLogin cfg digest s r = ⟨checkedBuckets cfg digest s r, s.log⟩ := by
        unfold handleLogin
        rw [if_pos hlimited]
        rfl
      rw [hresult]
      refine ⟨hsound.advance hlate, hpaired, fun hfails => ?_⟩
      rw [hfails.1] at hlimited
      cases hlimited
  | false =>
      obtain ⟨hbelow, hbelow'⟩ := @checkLoginAllowed_below cfg digest s.buckets r hglobal
        r.clientChecked r.globalChecked hkey hlimited
      have hnot : ¬(checkLoginAllowed cfg digest s.buckets r.clientId
          [r.clientChecked, r.globalChecked]).1.limited = true := by
        rw [hlimited]
        exact Bool.false_ne_true
      unfold handleLogin LoginRequest.fails
      dsimp only
      rw [if_neg hnot]
      cases r.outcome with
      | failure =>
          have hfailure := hsound.failure hpaired hglobal hsmall hkey hbelow hbelow' hbetween
            hrecorded
          rw [hincrements]
          dsimp only
          unfold recordLoginFailure
          rw [bucketKeys_eq hglobal]
          exact ⟨hfailure.1, hfailure.2.1, fun _ => hfailure.2.2⟩
      | success =>
          refine ⟨(hsound.clear hkey).advance hlate, ?_, nofun⟩
          apply hpaired.append
          exact fun _ => le_rfl
      | unrecorded => exact ⟨hsound.advance hlate, hpaired, nofun⟩

end Request

/-! ## Runs -/

/-- The readings of the clock over a run of requests. -/
def readings (requests : List LoginRequest) : List ℤ := requests.flatMap LoginRequest.readings

/-- The throttle after requests, from an empty map. -/
def throttleRun (cfg : ThrottleConfig) (digest : String → String) (requests : List LoginRequest) :
    Throttle :=
  run (handleLogin cfg digest) .initial requests

section Runs

variable {cfg : ThrottleConfig} {digest : String → String}

theorem run_sound (hglobal : 0 < cfg.globalMaxFailures) (hsmall : cfg.globalMaxFailures < 5000)
    (hdigest : ∀ clientId, (digest clientId).length = 64) {requests rest : List LoginRequest}
    {s : Throttle} {clock : ℤ} (h : s.Sound cfg clock) (hpaired : Paired 0 s.log)
    (hclock : (clock :: readings (requests ++ rest)).Pairwise (· ≤ ·)) :
    ∃ clock', (run (handleLogin cfg digest) s requests).Sound cfg clock' ∧
      Paired 0 (run (handleLogin cfg digest) s requests).log ∧
      (clock' :: readings rest).Pairwise (· ≤ ·) := by
  induction requests generalizing s clock with
  | nil => exact ⟨clock, h, hpaired, hclock⟩
  | cons r requests ih =>
      have hsplit : readings (r :: requests ++ rest) = r.readings ++ readings (requests ++ rest) := rfl
      rw [hsplit] at hclock
      have hfirst : (clock :: r.readings).Pairwise (· ≤ ·) :=
        hclock.sublist ((List.sublist_append_left _ _).cons_cons _)
      have hothers : (r.globalRecorded :: readings (requests ++ rest)).Pairwise (· ≤ ·) :=
        hclock.sublist (List.sublist_append_right
          [clock, r.clientChecked, r.globalChecked, r.clientRecorded] _)
      obtain ⟨hnext, hpairedNext, -⟩ := h.request hpaired hglobal hsmall hdigest hfirst
      exact ih hnext hpairedNext hothers

theorem throttleRun_sound (hglobal : 0 < cfg.globalMaxFailures)
    (hsmall : cfg.globalMaxFailures < 5000)
    (hdigest : ∀ clientId, (digest clientId).length = 64) {requests rest : List LoginRequest}
    (hclock : (readings (requests ++ rest)).Pairwise (· ≤ ·)) :
    ∃ clock, (throttleRun cfg digest requests).Sound cfg clock ∧
      Paired 0 (throttleRun cfg digest requests).log ∧ (clock :: readings rest).Pairwise (· ≤ ·) := by
  have hpaired : Paired 0 Throttle.initial.log := fun _ => le_rfl
  cases hreadings : readings (requests ++ rest) with
  | nil =>
      apply run_sound hglobal hsmall hdigest (initial_sound cfg 0) hpaired
      rw [hreadings]
      exact List.pairwise_singleton _ _
  | cons first others =>
      -- the run starts at its first reading
      apply run_sound hglobal hsmall hdigest (initial_sound cfg first) hpaired
      rw [hreadings] at hclock ⊢
      refine List.pairwise_cons.mpr ⟨fun t ht => ?_, hclock⟩
      rcases List.mem_cons.mp ht with rfl | ht
      · exact le_rfl
      · exact (List.pairwise_cons.mp hclock).1 t ht

end Runs

/-- In every run of requests over a clock that does not go back, between the opening of the global
bucket, which nothing clears, and its expiry at most `globalMaxFailures` failures are counted, for
every client at most `maxFailures` between the opening of its bucket and its expiry or a success, and
no bucket is evicted before it has expired. -/
theorem login_throttle_bounded (cfg : ThrottleConfig) (hglobal : 0 < cfg.globalMaxFailures)
    (hsmall : cfg.globalMaxFailures < 5000) (digest : String → String)
    (hdigest : ∀ clientId, (digest clientId).length = 64) (requests : List LoginRequest)
    (hclock : (readings requests).Pairwise (· ≤ ·)) :
    (Bounded cfg.window cfg.globalMaxFailures globalKey (throttleRun cfg digest requests).log ∧
      .clear globalKey ∉ (throttleRun cfg digest requests).log) ∧
    (∀ clientId, Bounded cfg.window cfg.maxFailures (clientKey digest clientId)
      (throttleRun cfg digest requests).log) ∧
    (throttleRun cfg digest requests).buckets.size ≤ memoryMaxBuckets ∧
    ∀ past r rest, requests = past ++ r :: rest → r.fails cfg digest (throttleRun cfg digest past) →
      EvictsExpired cfg (checkedBuckets cfg digest (throttleRun cfg digest past) r)
        (r.increments cfg digest) := by
  have hfull : (readings (requests ++ [])).Pairwise (· ≤ ·) := by
    rw [List.append_nil]
    exact hclock
  obtain ⟨clock, hsound, -⟩ := throttleRun_sound hglobal hsmall hdigest hfull
  refine ⟨⟨?_, hsound.steady.uncleared⟩, fun clientId => ?_, hsound.size_le,
    fun past r rest heq hfails => ?_⟩
  · have hbounded := hsound.bounded globalKey
    rwa [ThrottleConfig.limit, if_pos rfl] at hbounded
  · have hbounded := hsound.bounded (clientKey digest clientId)
    rwa [ThrottleConfig.limit, if_neg (clientKey_ne_globalKey hdigest clientId)] at hbounded
  · rw [heq] at hclock
    obtain ⟨clock', hbefore, hpaired, hlater⟩ := throttleRun_sound hglobal hsmall hdigest hclock
    have hfirst : (clock' :: r.readings).Pairwise (· ≤ ·) :=
      hlater.sublist ((List.sublist_append_left _ _).cons_cons _)
    exact (hbefore.request hpaired hglobal hsmall hdigest hfirst).2.2 hfails

/-- Two failures a client and three in all, in fifteen minutes. -/
def sampleThrottle : ThrottleConfig := ⟨2, 3, 900, by decide, by decide⟩

/-- The digests of two client ids. -/
def sampleDigest (clientId : String) : String :=
  if clientId = "direct" then "d15690f08a575024650b01ffac892cfd2b93e6c57c140f1b6d9e47753cabd579"
  else "f5047344122f0dee9974ba6761e61c6b8649e1f3968d13a635ebbf7be53a3a0d"

/-- The third attempt of one client is limited by its own counter, the second of the other one by the
global counter, and a quarter of an hour later both counters open again. -/
def sampleLogins : List LoginRequest :=
  [⟨"direct", .failure, 0, 0, 1, 1⟩, ⟨"direct", .failure, 2, 2, 3, 3⟩,
    ⟨"direct", .failure, 4, 4, 5, 5⟩, ⟨"10.0.0.1", .failure, 6, 6, 7, 7⟩,
    ⟨"10.0.0.1", .failure, 8, 8, 9, 9⟩, ⟨"direct", .failure, 900001, 900001, 900002, 900002⟩,
    ⟨"direct", .success, 900003, 900003, 900004, 900004⟩]

theorem login_throttle_bounded_sample :
    (throttleRun sampleThrottle sampleDigest sampleLogins).log.length = 9 ∧
      Bounded sampleThrottle.window 3 globalKey
        (throttleRun sampleThrottle sampleDigest sampleLogins).log ∧
      Bounded sampleThrottle.window 2 (clientKey sampleDigest "direct")
        (throttleRun sampleThrottle sampleDigest sampleLogins).log := by
  have hdigest : ∀ clientId, (sampleDigest clientId).length = 64 := by
    intro clientId
    unfold sampleDigest
    split <;> rfl
  obtain ⟨⟨hall, -⟩, hclient, -⟩ := login_throttle_bounded sampleThrottle (by decide) (by decide)
    sampleDigest hdigest sampleLogins (by decide +kernel)
  exact ⟨by decide +kernel, hall, hclient "direct"⟩

end NexusQuant.Web
