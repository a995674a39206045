import NexusQuant.Web.PolledResource

/-!
# What the shared poller shows

The requests of an entry are numbered, and of those in flight only the one that holds the entry's
controller is not aborted.  So an entry without subscribers, whose controller is gone, has nothing
left that could be published, and what an entry shows comes from requests with ever higher numbers.
-/

namespace NexusQuant.Web

open Run

variable {D : Type*}

/-! ## What an entry shows -/

def Publication.data? (p : Publication D) : Option D := p.result.toOption

/-- The load with the highest number of those that were committed successfully. -/
def highestSuccess (published : List (Publication D)) : Option (Publication D) :=
  (published.filter fun p => p.data?.isSome).argmax Publication.seq

/-- What is shown after the publications. -/
def shown (published : List (Publication D)) : Snapshot D :=
  (published.getLast?.map Publication.snapshot).getD .initial

/-- The history of an entry: the numbers grow, the data is that of the highest successful load, and
an error keeps data and time. -/
structure Ordered (published : List (Publication D)) (applied : ℕ) (snapshot : Snapshot D) : Prop where
  increasing : (published.map Publication.seq).Pairwise (· < ·)
  applied : applied = (published.getLast?.map Publication.seq).getD 0
  shown : snapshot = shown published
  data : snapshot.data = (highestSuccess published).bind Publication.data?
  lastUpdated : snapshot.lastUpdated =
    (highestSuccess published).bind fun p => p.snapshot.lastUpdated
  errors : ∀ k p, published[k]? = some p → p.data? = none →
    p.snapshot.data = (Web.shown (published.take k)).data ∧
      p.snapshot.lastUpdated = (Web.shown (published.take k)).lastUpdated

theorem ordered_nil : Ordered ([] : List (Publication D)) 0 .initial :=
  ⟨.nil, rfl, rfl, rfl, rfl, fun k p hp => by simp at hp⟩

section Publish

variable {published : List (Publication D)} {applied : ℕ} {snapshot : Snapshot D}
  {p : Publication D}

theorem Ordered.le_applied (h : Ordered published applied snapshot) {q : Publication D}
    (hq : q ∈ published) : q.seq ≤ applied := by
  have hne : published ≠ [] := List.ne_nil_of_mem hq
  rw [h.applied, List.getLast?_eq_some_getLast hne]
  show q.seq ≤ (published.getLast hne).seq
  have hsplit := List.dropLast_concat_getLast hne
  rw [← hsplit] at hq
  have hpair := h.increasing
  rw [← hsplit, List.map_append, List.pairwise_append] at hpair
  rcases List.mem_append.mp hq with hold | hlast
  · have hlt := hpair.2.2 q.seq (List.mem_map_of_mem hold) (published.getLast hne).seq
      (by simp)
    exact Nat.le_of_lt hlt
  · rw [List.mem_singleton.mp hlast]

/-- A success with a higher number is the highest one. -/
theorem highestSuccess_concat_some (h : Ordered published applied snapshot) (hseq : applied < p.seq)
    (hsome : p.data?.isSome = true) : highestSuccess (published ++ [p]) = some p := by
  have hone : [p].filter (fun p => p.data?.isSome) = [p] := by simp [hsome]
  unfold highestSuccess
  rw [List.filter_append, hone, List.argmax_concat]
  cases hbest : (published.filter fun p => p.data?.isSome).argmax Publication.seq with
  | none => rfl
  | some q =>
      have hmem := List.mem_of_mem_filter (List.argmax_mem hbest)
      have hle := h.le_applied hmem
      show (if q.seq < p.seq then some p else some q) = some p
      rw [if_pos (Nat.lt_of_le_of_lt hle hseq)]

theorem highestSuccess_concat_none (hnone : p.data? = none) :
    highestSuccess (published ++ [p]) = highestSuccess published := by
  have hone : [p].filter (fun p => p.data?.isSome) = [] := by simp [hnone]
  unfold highestSuccess
  rw [List.filter_append, hone, List.append_nil]

theorem Ordered.concat (h : Ordered published applied snapshot) (hseq : applied < p.seq)
    (hdata : p.snapshot.data = (highestSuccess (published ++ [p])).bind Publication.data?)
    (hupdated : p.snapshot.lastUpdated =
      (highestSuccess (published ++ [p])).bind fun p => p.snapshot.lastUpdated)
    (herror : p.data? = none →
      p.snapshot.data = snapshot.data ∧ p.snapshot.lastUpdated = snapshot.lastUpdated) :
    Ordered (published ++ [p]) p.seq p.snapshot := by
  constructor
  · rw [List.map_append, List.pairwise_append]
    refine ⟨h.increasing, List.pairwise_singleton _ _, ?_⟩
    intro a ha b hb
    obtain ⟨q, hq, rfl⟩ := List.mem_map.mp ha
    have hle := h.le_applied hq
    have hb : b = p.seq := List.mem_singleton.mp hb
    omega
  · rw [List.getLast?_append]
    rfl
  · unfold Web.shown
    rw [List.getLast?_append]
    rfl
  · exact hdata
  · exact hupdated
  · apply forall_getElem?_concat (P := fun _ q before => q.data? = none →
      q.snapshot.data = (Web.shown before).data ∧
        q.snapshot.lastUpdated = (Web.shown before).lastUpdated) h.errors
    intro hnone
    rw [← h.shown]
    exact herror hnone

theorem Ordered.commit {entry : Entry D}
    (h : Ordered entry.published entry.applied entry.snapshot) {seq : ℕ} (hseq : entry.applied < seq)
    (result : Except String D) (now : ℤ) :
    Ordered (entry.commit seq result now).published (entry.commit seq result now).applied
      (entry.commit seq result now).snapshot := by
  cases result with
  | ok data =>
      refine h.concat (p := ⟨seq, .ok data, ⟨some data, none, false, some now⟩⟩) hseq ?_ ?_ nofun
      · rw [highestSuccess_concat_some h hseq rfl]
        rfl
      · rw [highestSuccess_concat_some h hseq rfl]
        rfl
  | error message =>
      refine h.concat (p := ⟨seq, .error message,
        ⟨entry.snapshot.data, some message, false, entry.snapshot.lastUpdated⟩⟩) hseq ?_ ?_
        fun _ => ⟨rfl, rfl⟩
      · rw [highestSuccess_concat_none rfl]
        exact h.data
      · rw [highestSuccess_concat_none rfl]
        exact h.lastUpdated

end Publish

/-! ## Requests and subscribers -/

/-- An entry among the requests in flight. -/
structure Kept (loads : List Load) (registry : Option ℕ) (e : ℕ) (entry : Entry D) : Prop where
  current : ∀ l ∈ loads, l.entry = e → l.aborted = false → entry.controller = some l.seq
  numbered : ∀ l ∈ loads, l.entry = e → l.seq ≤ entry.seq
  ordered : Ordered entry.published entry.applied entry.snapshot
  registered : entry.subscribers ≠ [] → registry = some e
  left : entry.subscribers = [] → registry ≠ some e ∧ entry.controller = none ∧ entry.timer = false

theorem getElem?_set_cases {l : List (Entry D)} {e e' : ℕ} {new entry : Entry D}
    (h : (l.set e new)[e']? = some entry) :
    (e' = e ∧ entry = new ∧ e < l.length) ∨ (e' ≠ e ∧ l[e']? = some entry) := by
  rw [List.getElem?_set] at h
  by_cases heq : e = e'
  · rw [if_pos heq] at h
    by_cases hlt : e < l.length
    · rw [if_pos hlt] at h
      exact .inl ⟨heq.symm, (Option.some.inj h).symm, hlt⟩
    · rw [if_neg hlt] at h
      cases h
  · rw [if_neg heq] at h
    exact .inr ⟨Ne.symm heq, h⟩

/-- A subscriber of an entry that changes is still one of its subscribers. -/
theorem joined_set {entries : List (Entry D)} {e : ℕ} {old new : Entry D} {sub : Subscription}
    (hget : entries[e]? = some old)
    (hkeep : sub.entry = e → sub.token ∈ old.subscribers → sub.token ∈ new.subscribers)
    (h : ∃ entry, entries[sub.entry]? = some entry ∧ sub.token ∈ entry.subscribers) :
    ∃ entry, (entries.set e new)[sub.entry]? = some entry ∧ sub.token ∈ entry.subscribers := by
  obtain ⟨entry, hentry, hmem⟩ := h
  by_cases hsame : sub.entry = e
  · rw [hsame, hget] at hentry
    cases hentry
    refine ⟨new, ?_, hkeep hsame hmem⟩
    rw [hsame]
    exact List.getElem?_set_self (List.getElem?_eq_some_iff.mp hget).1
  · refine ⟨entry, ?_, hmem⟩
    rw [List.getElem?_set_ne (Ne.symm hsame)]
    exact hentry

/-- What was in flight is in flight, and not aborted only if it was not before. -/
theorem mem_map_abort {loads : List Load} {e : ℕ} {controller : Option ℕ} {l : Load}
    (h : l ∈ loads.map (Load.abort e controller)) :
    ∃ l' ∈ loads, l.entry = l'.entry ∧ l.seq = l'.seq ∧
      (l.aborted = false → l'.aborted = false ∧ ¬(l'.entry = e ∧ controller = some l'.seq)) := by
  obtain ⟨l', hl', rfl⟩ := List.mem_map.mp h
  refine ⟨l', hl', ?_⟩
  unfold Load.abort
  by_cases hsame : l'.entry = e ∧ controller = some l'.seq
  · rw [if_pos hsame]
    exact ⟨rfl, rfl, nofun⟩
  · rw [if_neg hsame]
    exact ⟨rfl, rfl, fun hlive => ⟨hlive, hsame⟩⟩

theorem keys_map_abort (loads : List Load) (e : ℕ) (controller : Option ℕ) :
    ((loads.map (Load.abort e controller)).map fun l => (l.entry, l.seq)) =
      loads.map fun l => (l.entry, l.seq) := by
  rw [List.map_map]
  apply List.map_congr_left
  intro l _
  show ((Load.abort e controller l).entry, (Load.abort e controller l).seq) = _
  unfold Load.abort
  split <;> rfl

/-- Aborting an entry's requests, and others coming, leaves what is said of other entries. -/
theorem Kept.abort {loads more : List Load} {registry : Option ℕ} {e e' : ℕ} {entry : Entry D}
    {controller : Option ℕ} (h : Kept loads registry e' entry)
    (hmore : ∀ l ∈ more, l.entry ≠ e') :
    Kept (loads.map (Load.abort e controller) ++ more) registry e' entry := by
  refine ⟨?_, ?_, h.ordered, h.registered, h.left⟩
  · intro l hl hentry hlive
    rcases List.mem_append.mp hl with hold | hnew
    · obtain ⟨l', hl', hentry', hseq, hlive'⟩ := mem_map_abort hold
      rw [hseq]
      exact h.current l' hl' (hentry' ▸ hentry) (hlive' hlive).1
    · exact absurd hentry (hmore l hnew)
  · intro l hl hentry
    rcases List.mem_append.mp hl with hold | hnew
    · obtain ⟨l', hl', hentry', hseq, -⟩ := mem_map_abort hold
      rw [hseq]
      exact h.numbered l' hl' (hentry' ▸ hentry)
    · exact absurd hentry (hmore l hnew)

/-- After the controller of an entry is aborted, none of its requests is live. -/
theorem Kept.not_live {loads : List Load} {registry : Option ℕ} {e : ℕ} {entry : Entry D}
    (h : Kept loads registry e entry) {l : Load}
    (hl : l ∈ loads.map (Load.abort e entry.controller)) (hentry : l.entry = e) :
    l.aborted = true := by
  obtain ⟨l', hl', hentry', hseq, hlive⟩ := mem_map_abort hl
  by_contra hnot
  have hlive := hlive (Bool.eq_false_iff.mpr hnot)
  have hcurrent := h.current l' hl' (hentry' ▸ hentry) hlive.1
  exact hlive.2 ⟨hentry' ▸ hentry, hcurrent⟩

/-- What a request leaves of its entry: who subscribes and what was asked for stay, and what was
published stays in order. -/
theorem settled_entry {entry entry' : Entry D} {l : Load} {result : FetchResult D} {now : ℤ}
    (hordered : Ordered entry.published entry.applied entry.snapshot)
    (heq : (if l.aborted = true ∨ l.seq ≤ entry.applied then entry
      else entry.commit l.seq (fetchEnvelope entry.name result) now) = entry') :
    entry'.subscribers = entry.subscribers ∧ entry'.seq = entry.seq ∧ entry'.timer = entry.timer ∧
      Ordered entry'.published entry'.applied entry'.snapshot := by
  subst heq
  split
  · exact ⟨rfl, rfl, rfl, hordered⟩
  · rename_i hlive
    have hseq : entry.applied < l.seq := Nat.lt_of_not_le fun hle => hlive (.inr hle)
    refine ⟨?_, ?_, ?_, hordered.commit hseq _ now⟩
    · cases fetchEnvelope entry.name result <;> rfl
    · cases fetchEnvelope entry.name result <;> rfl
    · cases fetchEnvelope entry.name result <;> rfl

theorem Kept.of_subset {loads loads' : List Load} {registry : Option ℕ} {e : ℕ} {entry : Entry D}
    (h : Kept loads registry e entry) (hsub : loads' ⊆ loads) : Kept loads' registry e entry :=
  ⟨fun l hl => h.current l (hsub hl), fun l hl => h.numbered l (hsub hl), h.ordered, h.registered,
    h.left⟩

/-- The request with the number `seq` gives the controller back. -/
theorem Kept.release {loads loads' : List Load} {registry : Option ℕ} {e seq : ℕ}
    {entry entry' : Entry D} (h : Kept loads registry e entry) (hsub : loads' ⊆ loads)
    (hothers : ∀ l ∈ loads', l.entry = e → l.seq ≠ seq)
    (hsubscribers : entry'.subscribers = entry.subscribers) (hseq : entry'.seq = entry.seq)
    (htimer : entry'.timer = entry.timer)
    (hordered : Ordered entry'.published entry'.applied entry'.snapshot) :
    Kept loads' registry e
      { entry' with controller := if entry.controller = some seq then none else entry.controller } := by
  constructor
  · intro l hl hentry hlive
    have hcurrent := h.current l (hsub hl) hentry hlive
    show (if entry.controller = some seq then none else entry.controller) = some l.seq
    rw [hcurrent, if_neg]
    intro heq
    exact hothers l hl hentry (Option.some.inj heq)
  · intro l hl hentry
    show l.seq ≤ entry'.seq
    rw [hseq]
    exact h.numbered l (hsub hl) hentry
  · exact hordered
  · show entry'.subscribers ≠ [] → _
    rw [hsubscribers]
    exact h.registered
  · show entry'.subscribers = [] → _ ∧ (if _ then _ else _) = _ ∧ entry'.timer = false
    rw [hsubscribers, htimer]
    intro hempty
    obtain ⟨hregistry, hcontroller, hstopped⟩ := h.left hempty
    refine ⟨hregistry, ?_, hstopped⟩
    rw [hcontroller]
    exact if_neg nofun

namespace Poller

structure Sound (s : Poller D) : Prop where
  distinct : (s.loads.map fun l => (l.entry, l.seq)).Nodup
  known : ∀ l ∈ s.loads, l.entry < s.entries.length
  present : ∀ e, s.registry = some e → e < s.entries.length
  tokens : (s.subscriptions.map Subscription.token).Nodup
  fresh : ∀ sub ∈ s.subscriptions, sub.token < s.tokens
  joined : ∀ sub ∈ s.subscriptions,
    ∃ entry, s.entries[sub.entry]? = some entry ∧ sub.token ∈ entry.subscribers
  entries : ∀ e entry, s.entries[e]? = some entry → Kept s.loads s.registry e entry

theorem sound_initial : (initial : Poller D).Sound := by
  refine ⟨.nil, ?_, ?_, .nil, ?_, ?_, ?_⟩
  · intro l hl
    cases hl
  · intro e he
    cases he
  · intro sub hsub
    cases hsub
  · intro sub hsub
    cases hsub
  · intro e entry he
    cases he

variable {s : Poller D}

theorem Sound.load (h : s.Sound) {e : ℕ} (hregistered : s.registry = some e) : (s.load e).Sound := by
  unfold Poller.load
  split
  · exact h
  · rename_i entry hget
    have hkept := h.entries e entry hget
    have hlt : e < s.entries.length := (List.getElem?_eq_some_iff.mp hget).1
    constructor
    · show ((s.loads.map _ ++ [_]).map fun l : Load => (l.entry, l.seq)).Nodup
      rw [List.map_append, keys_map_abort]
      apply h.distinct.append (List.nodup_singleton _)
      apply List.disjoint_singleton.mpr
      intro hmem
      obtain ⟨l, hl, heq⟩ := List.mem_map.mp hmem
      have hnumbered := hkept.numbered l hl (congrArg Prod.fst heq)
      have hseq : l.seq = entry.seq + 1 := congrArg Prod.snd heq
      omega
    · intro l hl
      show l.entry < (s.entries.set e _).length
      rw [List.length_set]
      rcases List.mem_append.mp hl with hold | hnew
      · obtain ⟨l', hl', hentry, -⟩ := mem_map_abort hold
        rw [hentry]
        exact h.known l' hl'
      · rw [List.mem_singleton.mp hnew]
        exact hlt
    · intro e' he'
      show e' < (s.entries.set e _).length
      rw [List.length_set]
      exact h.present e' he'
    · exact h.tokens
    · exact h.fresh
    · exact fun sub hsub => joined_set hget (fun _ hmem => hmem) (h.joined sub hsub)
    · intro e' entry' he'
      rcases getElem?_set_cases he' with ⟨rfl, rfl, -⟩ | ⟨hne, hold⟩
      · refine ⟨?_, ?_, hkept.ordered, hkept.registered, ?_⟩
        · intro l hl hentry hlive
          rcases List.mem_append.mp hl with hold | hnew
          · rw [hkept.not_live hold hentry] at hlive
            cases hlive
          · rw [List.mem_singleton.mp hnew]
        · intro l hl hentry
          rcases List.mem_append.mp hl with hold | hnew
          · obtain ⟨l', hl', hentry', hseq, -⟩ := mem_map_abort hold
            have hle := hkept.numbered l' hl' (hentry' ▸ hentry)
            show l.seq ≤ entry.seq + 1
            omega
          · rw [List.mem_singleton.mp hnew]
        · exact fun hempty => absurd hregistered (hkept.left hempty).1
      · apply (h.entries e' entry' hold).abort
        intro l hl
        rw [List.mem_singleton.mp hl]
        exact Ne.symm hne

theorem Sound.settle (h : s.Sound) (i : ℕ) (result : FetchResult D) (now : ℤ) :
    (s.settle i result now).Sound := by
  unfold Poller.settle
  split
  · exact h
  · rename_i l hl
    split
    · exact h
    · rename_i entry hget
      have hkept := h.entries l.entry entry hget
      have hrest := Slots.map_eraseIdx hl h.distinct
      have hsub : s.loads.eraseIdx i ⊆ s.loads := fun _ => List.mem_of_mem_eraseIdx
      -- Only the request itself has its number.
      have hothers : ∀ l' ∈ s.loads.eraseIdx i, l'.entry = l.entry → l'.seq ≠ l.seq := by
        intro l' hl' hentry hseq
        have hkey : (l'.entry, l'.seq) ∈ (s.loads.eraseIdx i).map fun l => (l.entry, l.seq) :=
          List.mem_map_of_mem hl'
        rw [hrest] at hkey
        exact of_decide_eq_true (List.mem_filter.mp hkey).2 (by rw [hentry, hseq])
      dsimp only
      generalize hentry' : (if l.aborted = true ∨ l.seq ≤ entry.applied then entry
        else entry.commit l.seq (fetchEnvelope entry.name result) now) = entry'
      obtain ⟨hsubscribers, hseq, htimer, hordered⟩ := settled_entry hkept.ordered hentry'
      constructor
      · show ((s.loads.eraseIdx i).map fun l => (l.entry, l.seq)).Nodup
        rw [hrest]
        exact h.distinct.filter _
      · intro l' hl'
        show l'.entry < (s.entries.set _ _).length
        rw [List.length_set]
        exact h.known l' (hsub hl')
      · intro e' he'
        show e' < (s.entries.set _ _).length
        rw [List.length_set]
        exact h.present e' he'
      · exact h.tokens
      · exact h.fresh
      · intro sub hsubscribed
        apply joined_set hget _ (h.joined sub hsubscribed)
        intro _ hin
        show sub.token ∈ entry'.subscribers
        rw [hsubscribers]
        exact hin
      · intro e' new he'
        rcases getElem?_set_cases he' with ⟨rfl, rfl, -⟩ | ⟨hne, hold⟩
        · exact hkept.release hsub hothers hsubscribers hseq htimer hordered
        · exact (h.entries e' new hold).of_subset hsub

@[simp] theorem ensureTimer_subscribers (entry : Entry D) :
    entry.ensureTimer.subscribers = entry.subscribers := by
  unfold Entry.ensureTimer
  dsimp only
  split <;> rfl

/-- Setting the interval changes nothing that is kept track of. -/
theorem kept_ensureTimer {loads : List Load} {registry : Option ℕ} {e : ℕ} {entry : Entry D}
    (h : Kept loads registry e entry) (hmem : entry.subscribers ≠ []) :
    Kept loads registry e entry.ensureTimer := by
  unfold Entry.ensureTimer
  dsimp only
  split
  · exact h
  · exact ⟨h.current, h.numbered, h.ordered, h.registered, fun hempty => absurd hempty hmem⟩

theorem Sound.detach (h : s.Sound) {i : ℕ} {sub : Subscription} {entry : Entry D}
    (hsub : s.subscriptions[i]? = some sub) (hget : s.entries[sub.entry]? = some entry) :
    (Poller.detach { s with subscriptions := s.subscriptions.eraseIdx i } sub.entry
      (entry.leave sub.token)).Sound := by
  have hkept := h.entries sub.entry entry hget
  have hlt : sub.entry < s.entries.length := (List.getElem?_eq_some_iff.mp hget).1
  have hrest := Slots.map_eraseIdx hsub h.tokens
  have htokens : ((s.subscriptions.eraseIdx i).map Subscription.token).Nodup := by
    rw [hrest]
    exact h.tokens.filter _
  have hfresh : ∀ other ∈ s.subscriptions.eraseIdx i, other.token < s.tokens := fun other hother =>
    h.fresh other (List.mem_of_mem_eraseIdx hother)
  -- The other subscribers stay.
  have hstay : ∀ other ∈ s.subscriptions.eraseIdx i, other.token ∈ entry.subscribers →
      other.token ∈ (entry.leave sub.token).subscribers := by
    intro other hother hin
    apply List.mem_filter.mpr ⟨hin, _⟩
    have hmap : other.token ∈ (s.subscriptions.eraseIdx i).map Subscription.token :=
      List.mem_map_of_mem hother
    rw [hrest] at hmap
    exact (List.mem_filter.mp hmap).2
  -- The entry had a subscriber, so it is the one in the registry.
  have hregistered : s.registry = some sub.entry := by
    obtain ⟨old, hold, hin⟩ := h.joined sub (List.mem_of_getElem? hsub)
    rw [hget] at hold
    cases hold
    exact hkept.registered (List.ne_nil_of_mem hin)
  unfold Poller.detach
  split
  · rename_i hempty
    constructor
    · show ((s.loads.map _).map fun l : Load => (l.entry, l.seq)).Nodup
      rw [keys_map_abort]
      exact h.distinct
    · intro l hl
      show l.entry < (s.entries.set _ _).length
      rw [List.length_set]
      obtain ⟨l', hl', hentry, -⟩ := mem_map_abort hl
      rw [hentry]
      exact h.known l' hl'
    · exact nofun
    · exact htokens
    · exact hfresh
    · intro other hother
      apply joined_set hget _ (h.joined other (List.mem_of_mem_eraseIdx hother))
      exact fun _ hin => hstay other hother hin
    · intro e' new he'
      rcases getElem?_set_cases he' with ⟨rfl, rfl, -⟩ | ⟨hne, hold⟩
      · refine ⟨?_, ?_, hkept.ordered, fun hmem => absurd hempty hmem, fun _ => ⟨nofun, rfl, rfl⟩⟩
        · intro l hl hentry hlive
          rw [hkept.not_live hl hentry] at hlive
          cases hlive
        · intro l hl hentry
          obtain ⟨l', hl', hentry', hseq, -⟩ := mem_map_abort hl
          rw [hseq]
          exact hkept.numbered l' hl' (hentry' ▸ hentry)
      · have hother : Kept (s.loads.map (Load.abort sub.entry entry.controller) ++ [])
            s.registry e' new := (h.entries e' new hold).abort nofun
        rw [List.append_nil] at hother
        refine ⟨hother.current, hother.numbered, hother.ordered, ?_, ?_⟩
        · intro hmem
          have hsame := hother.registered hmem
          rw [hregistered] at hsame
          exact absurd (Option.some.inj hsame).symm hne
        · exact fun hleft => ⟨nofun, (hother.left hleft).2⟩
  · rename_i hmore
    constructor
    · exact h.distinct
    · intro l hl
      show l.entry < (s.entries.set _ _).length
      rw [List.length_set]
      exact h.known l hl
    · intro e' he'
      show e' < (s.entries.set _ _).length
      rw [List.length_set]
      exact h.present e' he'
    · exact htokens
    · exact hfresh
    · intro other hother
      apply joined_set hget _ (h.joined other (List.mem_of_mem_eraseIdx hother))
      intro _ hin
      rw [ensureTimer_subscribers]
      exact hstay other hother hin
    · intro e' new he'
      rcases getElem?_set_cases he' with ⟨rfl, rfl, -⟩ | ⟨hne, hold⟩
      · apply kept_ensureTimer _ hmore
        exact ⟨hkept.current, hkept.numbered, hkept.ordered, fun _ => hregistered,
          fun hempty => absurd hempty hmore⟩
      · exact h.entries e' new hold

theorem Sound.unsubscribe (h : s.Sound) (i : ℕ) : (s.unsubscribe i).Sound := by
  unfold Poller.unsubscribe
  split
  · exact h
  · rename_i sub hsub
    split
    · exact h
    · rename_i entry hget
      exact h.detach hsub hget

@[simp] theorem join_subscribers (entry : Entry D) (token intervalMs : ℕ) :
    (entry.join token intervalMs).subscribers = entry.subscribers ++ [token] :=
  ensureTimer_subscribers _

/-- A subscriber joins the entry in the registry, which may have been made for it. -/
theorem sound_attach {e : ℕ} {entry : Entry D} (intervalMs : ℕ)
    (hdistinct : (s.loads.map fun l => (l.entry, l.seq)).Nodup)
    (hknown : ∀ l ∈ s.loads, l.entry < s.entries.length)
    (htokens : (s.subscriptions.map Subscription.token).Nodup)
    (hfresh : ∀ sub ∈ s.subscriptions, sub.token < s.tokens)
    (hjoined : ∀ sub ∈ s.subscriptions,
      ∃ entry, s.entries[sub.entry]? = some entry ∧ sub.token ∈ entry.subscribers)
    (hregistered : s.registry = some e) (hget : s.entries[e]? = some entry)
    (hcurrent : ∀ l ∈ s.loads, l.entry = e → l.aborted = false → entry.controller = some l.seq)
    (hnumbered : ∀ l ∈ s.loads, l.entry = e → l.seq ≤ entry.seq)
    (hordered : Ordered entry.published entry.applied entry.snapshot)
    (hothers : ∀ e' other, e' ≠ e → s.entries[e']? = some other →
      Kept s.loads s.registry e' other) : (s.attach e intervalMs).Sound := by
  have hlt : e < s.entries.length := (List.getElem?_eq_some_iff.mp hget).1
  unfold Poller.attach
  rw [hget]
  constructor
  · exact hdistinct
  · intro l hl
    show l.entry < (s.entries.set e _).length
    rw [List.length_set]
    exact hknown l hl
  · intro e' he'
    show e' < (s.entries.set e _).length
    rw [List.length_set]
    rw [hregistered] at he'
    rw [← Option.some.inj he']
    exact hlt
  · show ((s.subscriptions ++ [_]).map Subscription.token).Nodup
    rw [List.map_append]
    apply htokens.append (List.nodup_singleton _)
    apply List.disjoint_singleton.mpr
    intro hmem
    obtain ⟨sub, hsub, heq⟩ := List.mem_map.mp hmem
    have hltTokens := hfresh sub hsub
    have heq : sub.token = s.tokens := heq
    omega
  · intro sub hsub
    rcases List.mem_append.mp hsub with hold | hnew
    · exact Nat.lt_succ_of_lt (hfresh sub hold)
    · rw [List.mem_singleton.mp hnew]
      exact Nat.lt_succ_self _
  · intro sub hsub
    rcases List.mem_append.mp hsub with hold | hnew
    · apply joined_set hget _ (hjoined sub hold)
      intro _ hin
      rw [join_subscribers]
      exact List.mem_append_left _ hin
    · rw [List.mem_singleton.mp hnew]
      refine ⟨entry.join s.tokens intervalMs, List.getElem?_set_self hlt, ?_⟩
      rw [join_subscribers]
      exact List.mem_append_right _ List.mem_cons_self
  · intro e' new he'
    rcases getElem?_set_cases he' with ⟨rfl, rfl, -⟩ | ⟨hne, hold⟩
    · have hmore : entry.subscribers ++ [s.tokens] ≠ [] := by simp
      apply kept_ensureTimer _ hmore
      exact ⟨hcurrent, hnumbered, hordered, fun _ => hregistered,
        fun hempty => absurd hempty hmore⟩
    · exact hothers e' new hne hold

theorem Sound.loadUnsettled (h : s.Sound) {e : ℕ} (hregistered : s.registry = some e) :
    (s.loadUnsettled e).Sound := by
  unfold Poller.loadUnsettled
  split
  · exact h
  · split
    · exact h.load hregistered
    · exact h

@[simp] theorem registry_attach (e intervalMs : ℕ) : (s.attach e intervalMs).registry = s.registry := by
  unfold Poller.attach
  split <;> rfl

theorem Sound.subscribe (h : s.Sound) (name : String) (intervalMs : ℕ) :
    (s.subscribe name intervalMs).Sound := by
  unfold Poller.subscribe
  cases hregistry : s.registry with
  | some e =>
      have hobtain : s.obtain name = s := by
        unfold Poller.obtain
        rw [hregistry]
      have hobtained : s.obtained = e := by
        unfold Poller.obtained
        rw [hregistry]
        rfl
      rw [hobtain, hobtained]
      have hget := List.getElem?_eq_getElem (h.present e hregistry)
      have hkept := h.entries e _ hget
      refine (sound_attach intervalMs h.distinct h.known h.tokens h.fresh h.joined hregistry hget
        hkept.current hkept.numbered hkept.ordered fun e' other _ hother => ?_).loadUnsettled ?_
      · exact h.entries e' other hother
      · rw [registry_attach, hregistry]
  | none =>
      have hobtain : s.obtain name =
          { s with entries := s.entries ++ [.new name], registry := some s.entries.length } := by
        unfold Poller.obtain
        rw [hregistry]
      have hobtained : s.obtained = s.entries.length := by
        unfold Poller.obtained
        rw [hregistry]
        rfl
      rw [hobtain, hobtained]
      have hget : (s.entries ++ [Entry.new name])[s.entries.length]? = some (Entry.new name) := by
        simp
      -- No request is of the entry that is made.
      have hnone : ∀ l ∈ s.loads, l.entry ≠ s.entries.length := fun l hl =>
        Nat.ne_of_lt (h.known l hl)
      refine Sound.loadUnsettled ?_ (by rw [registry_attach])
      refine sound_attach intervalMs h.distinct ?_ h.tokens h.fresh ?_ rfl hget ?_ ?_ ordered_nil ?_
      · intro l hl
        show l.entry < (s.entries ++ [_]).length
        rw [List.length_append]
        exact Nat.lt_add_right _ (h.known l hl)
      · intro sub hsub
        obtain ⟨entry, hentry, hin⟩ := h.joined sub hsub
        refine ⟨entry, ?_, hin⟩
        show (s.entries ++ [_])[sub.entry]? = some entry
        rw [List.getElem?_append_left (List.getElem?_eq_some_iff.mp hentry).1]
        exact hentry
      · exact fun l hl hentry => absurd hentry (hnone l hl)
      · exact fun l hl hentry => absurd hentry (hnone l hl)
      · intro e' other hne hother
        have hother : (s.entries ++ [Entry.new name])[e']? = some other := hother
        have hlt := (List.getElem?_eq_some_iff.mp hother).1
        rw [List.length_append, List.length_singleton] at hlt
        have hlt : e' < s.entries.length := by omega
        rw [List.getElem?_append_left hlt] at hother
        have hkept := h.entries e' other hother
        refine ⟨hkept.current, hkept.numbered, hkept.ordered, ?_, ?_⟩
        · intro hmem
          have hsome := hkept.registered hmem
          rw [hregistry] at hsome
          cases hsome
        · intro hempty
          exact ⟨fun heq => hne (Option.some.inj heq).symm, (hkept.left hempty).2⟩

theorem Sound.tick (h : s.Sound) (e : ℕ) (now : ℤ) : (s.tick e now).Sound := by
  unfold Poller.tick
  split
  · exact h
  · rename_i entry hget
    split
    · rename_i hdue
      apply h.load
      apply (h.entries e entry hget).registered
      intro hempty
      have hstopped := ((h.entries e entry hget).left hempty).2.2
      rw [hdue.1] at hstopped
      cases hstopped
    · exact h

theorem Sound.visible (h : s.Sound) : s.visible.Sound := by
  unfold Poller.visible
  split
  · exact h
  · rename_i e hregistry
    split
    · exact h
    · split
      · exact h.load hregistry
      · exact h

theorem Sound.refetch (h : s.Sound) : s.refetch.Sound := by
  unfold Poller.refetch
  split
  · exact h
  · rename_i e hregistry
    exact h.load hregistry

theorem Sound.hide (h : s.Sound) (hidden : Bool) : Sound { s with hidden := hidden } :=
  ⟨h.distinct, h.known, h.present, h.tokens, h.fresh, h.joined, h.entries⟩

theorem Sound.step (h : s.Sound) (a : PollStep D) : (s.step a).Sound := by
  unfold Poller.step
  cases a with
  | subscribe name intervalMs => exact h.subscribe name intervalMs
  | unsubscribe i => exact h.unsubscribe i
  | timer e now => exact h.tick e now
  | visibility hidden =>
      dsimp only
      split
      · exact (h.hide hidden).visible
      · exact h.hide hidden
  | refetch => exact h.refetch
  | settle i result now => exact h.settle i result now

/-! ## After the last subscriber -/

/-- The entry has no subscriber and has published these snapshots. -/
def Abandoned (s : Poller D) (e : ℕ) (published : List (Publication D)) : Prop :=
  ∃ entry, s.entries[e]? = some entry ∧ entry.subscribers = [] ∧ entry.published = published

variable {e : ℕ} {published : List (Publication D)}

theorem Abandoned.of_getElem? {t : Poller D} (h : s.Abandoned e published)
    (heq : t.entries[e]? = s.entries[e]?) : t.Abandoned e published := by
  obtain ⟨entry, hget, hrest⟩ := h
  exact ⟨entry, heq.trans hget, hrest⟩

theorem getElem?_load_of_ne {e' : ℕ} (hne : e' ≠ e) : (s.load e').entries[e]? = s.entries[e]? := by
  unfold Poller.load
  split
  · rfl
  · exact List.getElem?_set_ne hne

/-- An abandoned entry is not in the registry, and its interval does not run. -/
theorem Abandoned.ne_of_registry (h : s.Abandoned e published) (hsound : s.Sound) {e' : ℕ}
    (hregistry : s.registry = some e') : e' ≠ e := by
  obtain ⟨entry, hget, hempty, -⟩ := h
  rintro rfl
  exact ((hsound.entries e' entry hget).left hempty).1 hregistry

theorem Abandoned.load (h : s.Abandoned e published) (hsound : s.Sound) {e' : ℕ}
    (hregistry : s.registry = some e') : (s.load e').Abandoned e published :=
  h.of_getElem? (getElem?_load_of_ne (h.ne_of_registry hsound hregistry))

theorem Abandoned.subscribe (h : s.Abandoned e published) (hsound : s.Sound) (name : String)
    (intervalMs : ℕ) : (s.subscribe name intervalMs).Abandoned e published := by
  have hlt : e < s.entries.length := by
    obtain ⟨entry, hget, -⟩ := h
    exact (List.getElem?_eq_some_iff.mp hget).1
  have hne : s.obtained ≠ e := by
    unfold Poller.obtained
    cases hregistry : s.registry with
    | some e' => exact h.ne_of_registry hsound hregistry
    | none => exact (Nat.ne_of_lt hlt).symm
  have hobtain : (s.obtain name).Abandoned e published := by
    apply h.of_getElem?
    unfold Poller.obtain
    split
    · rfl
    · exact List.getElem?_append_left hlt
  have hattach : ((s.obtain name).attach s.obtained intervalMs).Abandoned e published := by
    apply hobtain.of_getElem?
    unfold Poller.attach
    split
    · rfl
    · exact List.getElem?_set_ne hne
  apply hattach.of_getElem?
  show (Poller.loadUnsettled _ _).entries[e]? = _
  unfold Poller.loadUnsettled
  split
  · rfl
  · split
    · exact getElem?_load_of_ne hne
    · rfl

theorem Abandoned.unsubscribe (h : s.Abandoned e published) (hsound : s.Sound) (i : ℕ) :
    (s.unsubscribe i).Abandoned e published := by
  unfold Poller.unsubscribe
  split
  · exact h
  · rename_i sub hsub
    split
    · exact h
    · -- The subscriber that leaves is another entry's.
      have hne : sub.entry ≠ e := by
        rintro rfl
        obtain ⟨entry, hget, hempty, -⟩ := h
        obtain ⟨old, hold, hin⟩ := hsound.joined sub (List.mem_of_getElem? hsub)
        rw [hget] at hold
        cases hold
        rw [hempty] at hin
        cases hin
      apply h.of_getElem?
      unfold Poller.detach
      split
      · exact List.getElem?_set_ne hne
      · exact List.getElem?_set_ne hne

theorem Abandoned.tick (h : s.Abandoned e published) (hsound : s.Sound) (e' : ℕ) (now : ℤ) :
    (s.tick e' now).Abandoned e published := by
  unfold Poller.tick
  split
  · exact h
  · rename_i entry hget
    split
    · rename_i hdue
      apply h.of_getElem? (getElem?_load_of_ne _)
      rintro rfl
      obtain ⟨old, hold, hempty, -⟩ := h
      have hstopped := ((hsound.entries e' old hold).left hempty).2.2
      rw [hget] at hold
      cases hold
      rw [hdue.1] at hstopped
      cases hstopped
    · exact h

theorem Abandoned.visible (h : s.Abandoned e published) (hsound : s.Sound) :
    s.visible.Abandoned e published := by
  unfold Poller.visible
  split
  · exact h
  · rename_i e' hregistry
    split
    · exact h
    · split
      · exact h.load hsound hregistry
      · exact h

/-- A request of an abandoned entry that settles is aborted. -/
theorem Abandoned.settle (h : s.Abandoned e published) (hsound : s.Sound) (i : ℕ)
    (result : FetchResult D) (now : ℤ) : (s.settle i result now).Abandoned e published := by
  unfold Poller.settle
  split
  · exact h
  · rename_i l hl
    split
    · exact h
    · rename_i entry hget
      by_cases hsame : l.entry = e
      · obtain ⟨old, hold, hempty, rfl⟩ := h
        subst hsame
        rw [hget] at hold
        cases hold
        have hkept := hsound.entries l.entry entry hget
        have haborted : l.aborted = true := by
          by_contra hlive
          have hcurrent := hkept.current l (List.mem_of_getElem? hl) rfl (Bool.eq_false_iff.mpr hlive)
          rw [(hkept.left hempty).2.1] at hcurrent
          cases hcurrent
        dsimp only
        rw [if_pos (Or.inl haborted)]
        refine ⟨_, List.getElem?_set_self (List.getElem?_eq_some_iff.mp hget).1, hempty, rfl⟩
      · exact h.of_getElem? (List.getElem?_set_ne hsame)

theorem Abandoned.step (h : s.Abandoned e published) (hsound : s.Sound) (a : PollStep D) :
    (s.step a).Abandoned e published := by
  unfold Poller.step
  cases a with
  | subscribe name intervalMs => exact h.subscribe hsound name intervalMs
  | unsubscribe i => exact h.unsubscribe hsound i
  | timer e' now => exact h.tick hsound e' now
  | visibility hidden =>
      have hhide : Abandoned { s with hidden := hidden } e published := h
      dsimp only
      split
      · exact hhide.visible (hsound.hide hidden)
      · exact hhide
  | refetch =>
      show (Poller.refetch s).Abandoned e published
      unfold Poller.refetch
      split
      · exact h
      · rename_i e' hregistry
        exact h.load hsound hregistry
  | settle i result now => exact h.settle hsound i result now

/-! ## Runs -/

theorem sound_run (steps : List (PollStep D)) : (run step initial steps).Sound :=
  run_keeps (fun _ a h => h.step a) sound_initial steps

theorem abandoned_run (h : s.Abandoned e published) (hsound : s.Sound) (more : List (PollStep D)) :
    (run step s more).Abandoned e published := by
  have hboth : (run step s more).Sound ∧ (run step s more).Abandoned e published := by
    apply @run_keeps _ _ _ _ (fun s : Poller D => s.Sound ∧ s.Abandoned e published) _ ⟨hsound, h⟩
    rintro s a ⟨hsound, habandoned⟩
    exact ⟨hsound.step a, habandoned.step hsound a⟩
  exact hboth.2

/-- The requests of the entry that are in flight and not aborted. -/
def live (s : Poller D) (e : ℕ) : List Load := s.loads.filter fun l => l.entry = e ∧ l.aborted = false

theorem Sound.live_le_one (h : s.Sound) {entry : Entry D} (hget : s.entries[e]? = some entry) :
    (s.live e).length ≤ 1 := by
  have hkept := h.entries e entry hget
  have hnodup : ((s.live e).map fun l => (l.entry, l.seq)).Nodup :=
    h.distinct.sublist (List.filter_sublist.map _)
  have hlive : ∀ l ∈ s.live e, l.entry = e ∧ entry.controller = some l.seq := by
    intro l hl
    obtain ⟨hmem, hboth⟩ := List.mem_filter.mp hl
    obtain ⟨hentry, hnot⟩ := of_decide_eq_true hboth
    exact ⟨hentry, hkept.current l hmem hentry hnot⟩
  -- Two of them would have the entry's controller both.
  match hl : s.live e with
  | [] => exact Nat.zero_le 1
  | [_] => exact Nat.le_refl 1
  | l :: l' :: rest =>
      rw [hl] at hnodup hlive
      obtain ⟨hentry, hcontroller⟩ := hlive l List.mem_cons_self
      obtain ⟨hentry', hcontroller'⟩ := hlive l' (List.mem_cons_of_mem _ List.mem_cons_self)
      rw [hcontroller] at hcontroller'
      have hsame : (l.entry, l.seq) = (l'.entry, l'.seq) :=
        Prod.ext (hentry.trans hentry'.symm) (Option.some.inj hcontroller')
      rw [List.map_cons, List.map_cons, List.nodup_cons, hsame] at hnodup
      exact absurd List.mem_cons_self hnodup.1

end Poller

open Poller in
/-- In every run, at most one request of an entry is live, what the entry shows is that of its highest
successful load, and an entry that its last subscriber has left publishes nothing more. -/
theorem poller_shows_latest (steps more : List (PollStep D)) (e : ℕ) (entry : Entry D)
    (hget : (run step initial steps).entries[e]? = some entry) :
    ((run step initial steps).live e).length ≤ 1 ∧
      Ordered entry.published entry.applied entry.snapshot ∧
      (entry.subscribers = [] →
        (run step initial (steps ++ more)).Abandoned e entry.published) := by
  have hsound := sound_run steps
  refine ⟨hsound.live_le_one hget, (hsound.entries e entry hget).ordered, fun hempty => ?_⟩
  rw [run_append]
  exact abandoned_run ⟨entry, hget, hempty, rfl⟩ hsound more

/-- The entry after a superseded request, a success, an error and the last subscriber's leaving. -/
def leftEntry : Entry ℕ where
  name := "risk"
  snapshot := ⟨some 5, some "risk: unreachable", false, some 10⟩
  settled := true
  subscribers := []
  intervals := []
  timer := false
  timerMs := some 7000
  seq := 3
  applied := 3
  controller := none
  lastLoggedError := some "risk: unreachable"
  failures := 1
  backoffUntil := 14020
  published := [⟨2, .ok 5, ⟨some 5, none, false, some 10⟩⟩,
    ⟨3, .error "risk: unreachable", ⟨some 5, some "risk: unreachable", false, some 10⟩⟩]

open Poller in
theorem poller_shows_latest_left :
    let steps : List (PollStep ℕ) := [.subscribe "risk" 7000, .refetch,
      .settle 1 (.responded 200 (.envelope none (some 5))) 10,
      .settle 0 (.responded 200 (.envelope none (some 4))) 15, .refetch,
      .settle 0 .unreachable 20, .unsubscribe 0]
    ((run step initial steps).live 0).length ≤ 1 ∧
      Ordered leftEntry.published leftEntry.applied leftEntry.snapshot ∧
      (run step initial (steps ++ [.subscribe "risk" 7000, .timer 0 30000])).Abandoned 0
        leftEntry.published := by
  intro steps
  obtain ⟨hlive, hordered, hleft⟩ := poller_shows_latest steps
    [.subscribe "risk" 7000, .timer 0 30000] 0 leftEntry (by rfl)
  exact ⟨hlive, hordered, hleft rfl⟩

end NexusQuant.Web
