import NexusQuant.Ingestion.LiveBuffers

/-!
# What is drained when the daemon stops

The trades are in a buffer, in an upsert or persisted, each once, whatever the interleaving.  A quote
is in its entry of `latestQuote` until a flush takes it, unless the clearing at the end of another
flush comes first; and `stop` awaits its own flushes only.  `Kept` excludes both, and
`stop_drains` is the rest.
-/

namespace NexusQuant.Ingestion

open Run

/-! ## Trades -/

/-- Whether the drain of the ticks is over. -/
def StopStage.ticksDone : StopStage → Bool
  | .ticksDrained | .drainingQuotes | .quotesDrained | .resolved => true
  | _ => false

def StopStage.closed (stage : StopStage) : Bool := stage.ticksDone || stage = .drainingTicks

/-- What of a flush is not persisted yet. -/
def TickFlush.upserting (f : TickFlush) : List NormalizedTick := if f.upserted then [] else f.batch

/-- Nothing more comes in, and the buffers up to `pos` are empty. -/
structure SweptTo (delivering : Bool) (buffers : LiveMap String (List NormalizedTick)) (pos : ℕ) :
    Prop where
  closed : delivering = false
  empty : ∀ c ∈ buffers.cells, c.index < pos → c.value = []

/-- Nothing more comes in, and every buffer is empty. -/
structure SweptOut (delivering : Bool) (buffers : LiveMap String (List NormalizedTick)) : Prop where
  closed : delivering = false
  empty : ∀ c ∈ buffers.cells, c.value = []

theorem SweptTo.emptied {delivering : Bool} {buffers : LiveMap String (List NormalizedTick)} {pos : ℕ}
    (h : SweptTo delivering buffers pos) (key : String) : SweptTo delivering (buffers.set key []) pos := by
  refine ⟨h.closed, fun d hd hlt => ?_⟩
  rcases LiveMap.mem_set.mp hd with ⟨hold, -⟩ | ⟨-, hvalue, -⟩
  · exact h.empty d hold hlt
  · exact hvalue

theorem SweptOut.emptied {delivering : Bool} {buffers : LiveMap String (List NormalizedTick)}
    (h : SweptOut delivering buffers) (key : String) : SweptOut delivering (buffers.set key []) := by
  refine ⟨h.closed, fun d hd => ?_⟩
  rcases LiveMap.mem_set.mp hd with ⟨hold, -⟩ | ⟨-, hvalue, -⟩
  · exact h.empty d hold
  · exact hvalue

namespace LiveBuffers

def buffered (s : LiveBuffers) : List NormalizedTick := s.tickBuffer.values.flatten

def upsertingTicks (s : LiveBuffers) : List NormalizedTick := s.tickFlushes.flatMap TickFlush.upserting

abbrev Swept (s : LiveBuffers) (pos : ℕ) : Prop := SweptTo s.open s.tickBuffer pos

abbrev Drained (s : LiveBuffers) : Prop := SweptOut s.open s.tickBuffer

structure TicksKept (s : LiveBuffers) : Prop where
  received : s.ticks.received.Perm (s.buffered ++ s.ticks.handed)
  handed : s.ticks.handed.Perm (s.upsertingTicks ++ s.ticks.persisted)
  closed : s.stop.closed = true → s.open = false
  swept : ∀ f ∈ s.tickFlushes, f.final = true → s.Swept f.pos
  drained : s.stop.ticksDone = true → s.Drained
  quotesAfter : ∀ f ∈ s.quoteFlushes, f.final = true → s.Drained

variable {s t : LiveBuffers}

theorem buffered_eq_nil (h : s.Drained) : s.buffered = [] := by
  unfold buffered
  rw [List.flatten_eq_nil_iff]
  intro buf hbuf
  obtain ⟨c, hc, rfl⟩ := List.mem_map.mp hbuf
  exact h.empty c hc

theorem TicksKept.onTrade (h : s.TicksKept) (hopen : s.open = true) (tick : NormalizedTick) :
    (s.onTrade tick).TicksKept := by
  have hnot : ¬s.open = false := by simp [hopen]
  have hbuffered : (s.onTrade tick).buffered.Perm (tick :: s.buffered) := by
    show ((s.tickBuffer.set tick.symbol _).values.flatten).Perm _
    cases hget : s.tickBuffer.get? tick.symbol with
    | none =>
        have hnew : tick.symbol ∉ s.tickBuffer.keys := by
          intro hmem
          obtain ⟨c, hc, hkey⟩ := List.mem_map.mp hmem
          have hsome := LiveMap.get?_eq_some.mpr ⟨c, hc, hkey, rfl⟩
          rw [hget] at hsome
          cases hsome
        rw [(LiveMap.set_of_not_mem hnew).2, List.flatten_append]
        show (s.buffered ++ [tick]).Perm _
        exact List.perm_append_singleton _ _
    | some buf =>
        have hperm : (buf :: (s.tickBuffer.set tick.symbol (buf ++ [tick])).values).flatten.Perm
            ((buf ++ [tick]) :: s.tickBuffer.values).flatten :=
          (LiveMap.perm_values_set hget).flatten
        show ((s.tickBuffer.set tick.symbol (buf ++ [tick])).values.flatten).Perm _
        rw [List.flatten_cons, List.flatten_cons, List.append_assoc] at hperm
        exact (List.perm_append_left_iff buf).mp hperm
  constructor
  · show (s.ticks.received ++ [tick]).Perm (_ ++ s.ticks.handed)
    calc (s.ticks.received ++ [tick]).Perm (tick :: s.ticks.received) :=
          List.perm_append_singleton _ _
      _ |>.Perm (tick :: (s.buffered ++ s.ticks.handed)) := h.received.cons tick
      _ |>.Perm ((s.onTrade tick).buffered ++ s.ticks.handed) :=
          (hbuffered.append_right s.ticks.handed).symm
  · exact h.handed
  · exact h.closed
  · exact fun f hf hfinal => absurd (h.swept f hf hfinal).closed hnot
  · exact fun hdone => absurd (h.drained hdone).closed hnot
  · exact fun f hf hfinal => absurd (h.quotesAfter f hf hfinal).closed hnot

/-- The loop of a flush goes on: a batch leaves its buffer, or there is none left. -/
theorem TicksKept.flushTicks (h : s.TicksKept) {final : Bool} {pos : ℕ}
    (hswept : final = true → s.Swept pos) : (s.flushTicks final pos).TicksKept := by
  unfold LiveBuffers.flushTicks
  split
  · rename_i c hc
    have hmem := LiveMap.nextWhere_mem hc
    have hget : s.tickBuffer.get? c.key = some c.value := LiveMap.get?_eq_some.mpr ⟨c, hmem, rfl, rfl⟩
    have htaken : (c.value ++ (s.tickBuffer.set c.key []).values.flatten).Perm s.buffered := by
      have hperm : (c.value :: (s.tickBuffer.set c.key []).values).flatten.Perm
          ([] :: s.tickBuffer.values).flatten := (LiveMap.perm_values_set hget).flatten
      rw [List.flatten_cons, List.flatten_cons, List.nil_append] at hperm
      exact hperm
    constructor
    · show s.ticks.received.Perm
        ((s.tickBuffer.set c.key []).values.flatten ++ (s.ticks.handed ++ c.value))
      apply h.received.trans
      apply (htaken.symm.append_right s.ticks.handed).trans
      rw [List.append_assoc]
      apply List.perm_append_comm.trans
      rw [List.append_assoc]
    · show (s.ticks.handed ++ c.value).Perm (List.flatMap _ (s.tickFlushes ++ [_]) ++ s.ticks.persisted)
      rw [List.flatMap_append]
      show (s.ticks.handed ++ c.value).Perm (s.upsertingTicks ++ (c.value ++ []) ++ s.ticks.persisted)
      rw [List.append_nil, List.append_assoc]
      apply (h.handed.append_right c.value).trans
      rw [List.append_assoc]
      exact List.perm_append_comm.append_left s.upsertingTicks
    · exact h.closed
    · intro f hf hfinal
      rcases List.mem_append.mp hf with hold | hnew
      · exact (h.swept f hold hfinal).emptied c.key
      · rw [List.mem_singleton.mp hnew] at hfinal ⊢
        refine ⟨(hswept hfinal).closed, fun d hd hlt => ?_⟩
        rcases LiveMap.mem_set.mp hd with ⟨hold, hne⟩ | ⟨-, hvalue, -⟩
        · by_cases hpos : d.index < pos
          · exact (hswept hfinal).empty d hold hpos
          · -- Between the old position and the batch there are only empty buffers.
            rcases LiveMap.nextWhere_first hc hold (Nat.le_of_not_lt hpos) with hnone | rfl | hafter
            · simpa using hnone
            · exact absurd rfl hne
            · have hlt : d.index < c.index + 1 := hlt
              omega
        · exact hvalue
    · exact fun hdone => (h.drained hdone).emptied c.key
    · exact fun f hf hfinal => (h.quotesAfter f hf hfinal).emptied c.key
  · rename_i hnone
    cases final with
    | false => exact ⟨h.received, h.handed, h.closed, h.swept, h.drained, h.quotesAfter⟩
    | true =>
        have hall : s.Drained := by
          refine ⟨(hswept rfl).closed, fun c hc => ?_⟩
          by_cases hpos : c.index < pos
          · exact (hswept rfl).empty c hc hpos
          · simpa using LiveMap.nextWhere_eq_none.mp hnone c hc (Nat.le_of_not_lt hpos)
        exact ⟨h.received, h.handed, fun _ => hall.closed, h.swept, fun _ => hall, h.quotesAfter⟩

theorem TicksKept.stepTickFlush (h : s.TicksKept) (i : ℕ) : (s.stepTickFlush i).TicksKept := by
  unfold LiveBuffers.stepTickFlush
  split
  · exact h
  · -- The batch goes over from the flush to the rows.
    rename_i final pos batch hget
    have hperm := (Slots.perm_cons_set (b := TickFlush.mk final pos batch true) hget).flatMap_right
      TickFlush.upserting
    have hmoved : (batch ++ (s.tickFlushes.set i ⟨final, pos, batch, true⟩).flatMap
        TickFlush.upserting).Perm s.upsertingTicks := hperm
    refine ⟨h.received, ?_, h.closed, ?_, h.drained, h.quotesAfter⟩
    · show s.ticks.handed.Perm (List.flatMap _ _ ++ (s.ticks.persisted ++ batch))
      apply h.handed.trans
      apply (hmoved.symm.append_right s.ticks.persisted).trans
      rw [List.append_assoc]
      apply List.perm_append_comm.trans
      rw [List.append_assoc]
    · intro f hf hfinal
      rcases List.mem_or_eq_of_mem_set hf with hold | rfl
      · exact h.swept f hold hfinal
      · exact h.swept ⟨final, pos, batch, false⟩ (List.mem_of_getElem? hget) hfinal
  · rename_i final pos batch hget
    have hperm := (Slots.perm_cons_eraseIdx hget).flatMap_right TickFlush.upserting
    have hrest : TicksKept { s with tickFlushes := s.tickFlushes.eraseIdx i } := by
      refine ⟨h.received, ?_, h.closed, ?_, h.drained, h.quotesAfter⟩
      · exact h.handed.trans (hperm.symm.append_right _)
      · exact fun f hf => h.swept f (List.mem_of_mem_eraseIdx hf)
    exact hrest.flushTicks fun hfinal => h.swept _ (List.mem_of_getElem? hget) hfinal

/-- What the quotes do leaves the trades alone. -/
theorem TicksKept.of_quotes (h : s.TicksKept) (hbuffer : t.tickBuffer = s.tickBuffer)
    (hflushes : t.tickFlushes = s.tickFlushes) (hticks : t.ticks = s.ticks) (hopen : t.open = s.open)
    (hstop : t.stop = s.stop ∨ s.Drained)
    (hquotes : ∀ f ∈ t.quoteFlushes, f.final = true → s.Drained) : t.TicksKept := by
  have hdrained : s.Drained → t.Drained := by
    unfold Drained
    rw [hopen, hbuffer]
    exact id
  constructor
  · unfold buffered
    rw [hticks, hbuffer]
    exact h.received
  · unfold upsertingTicks
    rw [hticks, hflushes]
    exact h.handed
  · intro hclosed
    rcases hstop with heq | hd
    · rw [heq] at hclosed
      rw [hopen]
      exact h.closed hclosed
    · exact (hdrained hd).closed
  · unfold Swept
    rw [hflushes, hopen, hbuffer]
    exact h.swept
  · intro hdone
    rcases hstop with heq | hd
    · rw [heq] at hdone
      exact hdrained (h.drained hdone)
    · exact hdrained hd
  · exact fun f hf hfinal => hdrained (hquotes f hf hfinal)

theorem TicksKept.flushQuotes (h : s.TicksKept) {final : Bool} {pos : ℕ}
    (hdrained : final = true → s.Drained) : (s.flushQuotes final pos).TicksKept := by
  have hmore : ∀ f : QuoteFlush, f.final = final → ∀ g ∈ s.quoteFlushes ++ [f], g.final = true →
      s.Drained := by
    intro f hf g hg hfinal
    rcases List.mem_append.mp hg with hold | hnew
    · exact h.quotesAfter g hold hfinal
    · rw [List.mem_singleton.mp hnew, hf] at hfinal
      exact hdrained hfinal
  unfold LiveBuffers.flushQuotes
  split
  · exact h.of_quotes rfl rfl rfl rfl (.inl rfl) (hmore _ rfl)
  · split
    · refine h.of_quotes rfl rfl rfl rfl ?_ h.quotesAfter
      cases final with
      | false => exact .inl rfl
      | true => exact .inr (hdrained rfl)
    · exact h.of_quotes rfl rfl rfl rfl (.inl rfl) (hmore _ rfl)

theorem TicksKept.stepQuoteFlush (h : s.TicksKept) (i : ℕ) : (s.stepQuoteFlush i).TicksKept := by
  unfold LiveBuffers.stepQuoteFlush
  split
  · exact h
  · rename_i final pos quote hget
    refine h.of_quotes rfl rfl rfl rfl (.inl rfl) fun f hf hfinal => ?_
    rcases List.mem_or_eq_of_mem_set hf with hold | rfl
    · exact h.quotesAfter f hold hfinal
    · exact h.quotesAfter _ (List.mem_of_getElem? hget) hfinal
  · rename_i final pos quote hget
    have hrest : TicksKept { s with quoteFlushes := s.quoteFlushes.eraseIdx i } :=
      h.of_quotes rfl rfl rfl rfl (.inl rfl) fun f hf => h.quotesAfter f (List.mem_of_mem_eraseIdx hf)
    apply hrest.flushQuotes
    intro hfinal
    have hd := h.quotesAfter _ (List.mem_of_getElem? hget) hfinal
    exact ⟨hd.closed, hd.empty⟩
  · rename_i final pos rates hget
    refine h.of_quotes rfl rfl rfl rfl ?_ fun f hf => h.quotesAfter f (List.mem_of_mem_eraseIdx hf)
    cases final with
    | false => exact .inl rfl
    | true => exact .inr (h.quotesAfter _ (List.mem_of_getElem? hget) rfl)

theorem TicksKept.stopping (h : s.TicksKept) : s.stopping.TicksKept := by
  unfold LiveBuffers.stopping
  split
  · rename_i hstop
    have hclosed : TicksKept { s with «open» := false, stop := .drainingTicks } := by
      refine ⟨h.received, h.handed, fun _ => rfl, ?_, nofun, ?_⟩
      · exact fun f hf hfinal => ⟨rfl, (h.swept f hf hfinal).empty⟩
      · exact fun f hf hfinal => ⟨rfl, (h.quotesAfter f hf hfinal).empty⟩
    exact hclosed.flushTicks fun _ => ⟨rfl, fun c _ hlt => absurd hlt (Nat.not_lt_zero _)⟩
  · rename_i hstop
    have hd : s.Drained := h.drained (by rw [hstop]; rfl)
    have hnext : TicksKept { s with stop := .drainingQuotes } :=
      h.of_quotes rfl rfl rfl rfl (.inr hd) h.quotesAfter
    exact hnext.flushQuotes fun _ => ⟨hd.closed, hd.empty⟩
  · rename_i hstop
    exact h.of_quotes rfl rfl rfl rfl (.inr (h.drained (by rw [hstop]; rfl))) h.quotesAfter
  · exact h

theorem TicksKept.step (h : s.TicksKept) (a : BufferStep) : (s.step a).TicksKept := by
  unfold LiveBuffers.step
  cases a with
  | onTrade tick =>
      dsimp only
      split
      · rename_i hopen
        exact h.onTrade hopen tick
      · exact h
  | onQuote quote =>
      dsimp only
      split
      · exact h.of_quotes rfl rfl rfl rfl (.inl rfl) h.quotesAfter
      · exact h
  | onFunding rate =>
      dsimp only
      split
      · exact h.of_quotes rfl rfl rfl rfl (.inl rfl) h.quotesAfter
      · exact h
  | tickTimer =>
      dsimp only
      split
      · exact h.flushTicks nofun
      · exact h
  | quoteTimer =>
      dsimp only
      split
      · exact h.flushQuotes nofun
      · exact h
  | tickFlush i => exact h.stepTickFlush i
  | quoteFlush i => exact h.stepQuoteFlush i
  | stop =>
      dsimp only
      split
      · exact ⟨h.received, h.handed, nofun, h.swept, nofun, h.quotesAfter⟩
      · exact h
  | stopping => exact h.stopping

/-! ## Quotes and funding rates -/

end LiveBuffers

def Deliveries.last {α : Type*} (d : Deliveries α) (symbol : α → String) (key : String) : Option α :=
  (d.received.filter fun a => symbol a = key).getLast?

/-- The last delivery for a key is taken by a flush, or still in its entry. -/
def LatestHeld {α : Type*} (symbol : α → String) (d : Deliveries α) (latest : LiveMap String α) :
    Prop :=
  ∀ key a, d.last symbol key = some a → a ∈ d.handed ∨ latest.get? key = some a

section LatestHeld

variable {α : Type*} {symbol : α → String} {d : Deliveries α} {latest : LiveMap String α}

theorem LatestHeld.receive (h : LatestHeld symbol d latest) (a : α) :
    LatestHeld symbol (d.receive a) (latest.set (symbol a) a) := by
  intro key b hb
  unfold Deliveries.last Deliveries.receive at hb
  rw [List.filter_append] at hb
  rw [LiveMap.get?_set]
  by_cases hkey : symbol a = key
  · rw [List.filter_cons_of_pos (by simpa using hkey), List.filter_nil, List.getLast?_append] at hb
    rw [if_pos hkey.symm]
    exact .inr hb
  · rw [List.filter_cons_of_neg (by simpa using hkey), List.filter_nil, List.append_nil] at hb
    rw [if_neg (Ne.symm hkey)]
    exact h key b hb

theorem LatestHeld.hand (h : LatestHeld symbol d latest) (batch : List α) :
    LatestHeld symbol (d.hand batch) latest :=
  fun key a ha => (h key a ha).imp_left (List.mem_append_left batch)

/-- Entries that are all taken may go. -/
theorem LatestHeld.clear (h : LatestHeld symbol d latest) (htaken : ∀ a ∈ latest.values, a ∈ d.handed) :
    LatestHeld symbol d latest.clear := by
  intro key a ha
  rcases h key a ha with hhanded | hget
  · exact .inl hhanded
  · obtain ⟨c, hc, -, rfl⟩ := LiveMap.get?_eq_some.mp hget
    exact .inl (htaken _ (List.mem_map_of_mem hc))

end LatestHeld

/-- No entry is left and nothing more comes in. -/
structure Emptied (delivering : Bool) (quotes : LiveMap String NormalizedQuote)
    (funding : LiveMap String NormalizedFundingRate) : Prop where
  closed : delivering = false
  quotes : quotes.cells = []
  funding : funding.cells = []

/-- Whether the drain of the quotes is over. -/
def StopStage.quotesDone : StopStage → Bool
  | .quotesDrained | .resolved => true
  | _ => false

def QuoteStage.quotes : QuoteStage → List NormalizedQuote
  | .upserting quote => [quote]
  | _ => []

def QuoteStage.rates : QuoteStage → List NormalizedFundingRate
  | .funding rates => rates
  | _ => []

/-- Whether the loop over the quotes is over. -/
def QuoteStage.pastLoop : QuoteStage → Bool
  | .funding _ => true
  | _ => false

def QuoteStage.publishes : QuoteStage → Bool
  | .publishing _ => true
  | _ => false

/-- What was handed out is persisted, or a flush still holds it. -/
def HeldByFlushes {α : Type*} (items : QuoteStage → List α) (d : Deliveries α)
    (flushes : List QuoteFlush) : Prop :=
  ∀ a ∈ d.handed, a ∈ d.persisted ∨ ∃ f ∈ flushes, a ∈ items f.stage

section HeldByFlushes

variable {α : Type*} {items : QuoteStage → List α} {d : Deliveries α} {flushes : List QuoteFlush}
  {i : ℕ} {f : QuoteFlush}

theorem HeldByFlushes.append (h : HeldByFlushes items d flushes) (more : List QuoteFlush) :
    HeldByFlushes items d (flushes ++ more) := by
  intro a ha
  rcases h a ha with hdone | ⟨g, hg, hstage⟩
  · exact .inl hdone
  · exact .inr ⟨g, List.mem_append_left _ hg, hstage⟩

/-- A flush joins with what it is handed. -/
theorem HeldByFlushes.hand (h : HeldByFlushes items d flushes) (f : QuoteFlush) :
    HeldByFlushes items (d.hand (items f.stage)) (flushes ++ [f]) := by
  intro a ha
  rcases List.mem_append.mp ha with hold | hnew
  · exact h.append [f] a hold
  · exact .inr ⟨f, List.mem_append_right _ List.mem_cons_self, hnew⟩

/-- A flush goes on once what it held is persisted. -/
theorem HeldByFlushes.persist_set (h : HeldByFlushes items d flushes) (hget : flushes[i]? = some f)
    (g : QuoteFlush) : HeldByFlushes items (d.persist (items f.stage)) (flushes.set i g) := by
  intro a ha
  rcases h a ha with hdone | ⟨k, hk, hstage⟩
  · exact .inl (List.mem_append_left _ hdone)
  · rcases Slots.eq_or_mem_set hget hk with rfl | hmem
    · exact .inl (List.mem_append_right _ hstage)
    · exact .inr ⟨k, hmem, hstage⟩

/-- A flush ends once what it held is persisted. -/
theorem HeldByFlushes.persist_eraseIdx (h : HeldByFlushes items d flushes)
    (hget : flushes[i]? = some f) :
    HeldByFlushes items (d.persist (items f.stage)) (flushes.eraseIdx i) := by
  intro a ha
  rcases h a ha with hdone | ⟨k, hk, hstage⟩
  · exact .inl (List.mem_append_left _ hdone)
  · rcases Slots.eq_or_mem_eraseIdx hget hk with rfl | hmem
    · exact .inl (List.mem_append_right _ hstage)
    · exact .inr ⟨k, hmem, hstage⟩

theorem Deliveries.persist_nil (d : Deliveries α) : d.persist [] = d := by
  unfold Deliveries.persist
  rw [List.append_nil]

/-- A flush that holds nothing goes on. -/
theorem HeldByFlushes.set (h : HeldByFlushes items d flushes) (hget : flushes[i]? = some f)
    (hnone : items f.stage = []) (g : QuoteFlush) : HeldByFlushes items d (flushes.set i g) := by
  have hset := h.persist_set hget g
  rwa [hnone, Deliveries.persist_nil] at hset

/-- A flush that holds nothing ends. -/
theorem HeldByFlushes.eraseIdx (h : HeldByFlushes items d flushes) (hget : flushes[i]? = some f)
    (hnone : items f.stage = []) : HeldByFlushes items d (flushes.eraseIdx i) := by
  have herase := h.persist_eraseIdx hget
  rwa [hnone, Deliveries.persist_nil] at herase

theorem forall_mem_concat {P : QuoteFlush → Prop} (h : ∀ g ∈ flushes, P g) (hf : P f) :
    ∀ g ∈ flushes ++ [f], P g :=
  List.forall_mem_append.mpr ⟨h, List.forall_mem_singleton.mpr hf⟩

end HeldByFlushes

namespace LiveBuffers

structure QuotesKept (s : LiveBuffers) : Prop where
  quotes : LatestHeld NormalizedQuote.symbol s.quotes s.latestQuote
  funding : LatestHeld NormalizedFundingRate.symbol s.funding s.latestFunding
  quotesHanded : ∀ q ∈ s.quotes.handed,
    q ∈ s.quotes.persisted ∨ ∃ f ∈ s.quoteFlushes, q ∈ f.stage.quotes
  fundingHanded : ∀ r ∈ s.funding.handed,
    r ∈ s.funding.persisted ∨ ∃ f ∈ s.quoteFlushes, r ∈ f.stage.rates
  done : s.stop.quotesDone = true → Emptied s.open s.latestQuote s.latestFunding
  sealed : ∀ f ∈ s.quoteFlushes, f.final = true → s.open = false
  last : ∀ f ∈ s.quoteFlushes, f.final = true → f.stage.pastLoop = true →
    Emptied s.open s.latestQuote s.latestFunding

variable {s t : LiveBuffers}

theorem QuotesKept.heldQuotes (h : s.QuotesKept) :
    HeldByFlushes QuoteStage.quotes s.quotes s.quoteFlushes := h.quotesHanded

theorem QuotesKept.heldRates (h : s.QuotesKept) :
    HeldByFlushes QuoteStage.rates s.funding s.quoteFlushes := h.fundingHanded

theorem QuotesKept.onQuote (h : s.QuotesKept) (hopen : s.open = true) (quote : NormalizedQuote) :
    (s.onQuote quote).QuotesKept := by
  have hnot : ¬s.open = false := by simp [hopen]
  refine ⟨h.quotes.receive quote, h.funding, h.quotesHanded, h.fundingHanded, ?_, h.sealed, ?_⟩
  · exact fun hdone => absurd (h.done hdone).closed hnot
  · exact fun f hf hfinal _ => absurd (h.sealed f hf hfinal) hnot

theorem QuotesKept.onFunding (h : s.QuotesKept) (hopen : s.open = true)
    (rate : NormalizedFundingRate) : (s.onFunding rate).QuotesKept := by
  have hnot : ¬s.open = false := by simp [hopen]
  refine ⟨h.quotes, h.funding.receive rate, h.quotesHanded, h.fundingHanded, ?_, h.sealed, ?_⟩
  · exact fun hdone => absurd (h.done hdone).closed hnot
  · exact fun f hf hfinal _ => absurd (h.sealed f hf hfinal) hnot

/-- What the ticks do leaves the quotes alone. -/
theorem QuotesKept.of_ticks (h : s.QuotesKept) (hquote : t.latestQuote = s.latestQuote)
    (hfunding : t.latestFunding = s.latestFunding) (hquotes : t.quotes = s.quotes)
    (hrates : t.funding = s.funding) (hflushes : t.quoteFlushes = s.quoteFlushes)
    (hopen : t.open = s.open) (hstop : t.stop.quotesDone = true → s.stop.quotesDone = true) :
    t.QuotesKept := by
  constructor
  · rw [hquotes, hquote]
    exact h.quotes
  · rw [hrates, hfunding]
    exact h.funding
  · rw [hquotes, hflushes]
    exact h.quotesHanded
  · rw [hrates, hflushes]
    exact h.fundingHanded
  · rw [hopen, hquote, hfunding]
    exact fun hdone => h.done (hstop hdone)
  · rw [hflushes, hopen]
    exact h.sealed
  · rw [hflushes, hopen, hquote, hfunding]
    exact h.last

theorem QuotesKept.flushTicks (h : s.QuotesKept) (final : Bool) (pos : ℕ) :
    (s.flushTicks final pos).QuotesKept := by
  unfold LiveBuffers.flushTicks
  split
  · exact h.of_ticks rfl rfl rfl rfl rfl rfl id
  · cases final with
    | false => exact h.of_ticks rfl rfl rfl rfl rfl rfl id
    | true => exact h.of_ticks rfl rfl rfl rfl rfl rfl nofun

/-- The loop of a flush goes on: a quote is taken, or the entries go, all of them taken, and the
funding rates are taken. -/
theorem QuotesKept.flushQuotes (h : s.QuotesKept) {final : Bool} {pos : ℕ}
    (hclosed : final = true → s.open = false)
    (htaken : s.latestQuote.nextCell pos = none → ∀ q ∈ s.latestQuote.values, q ∈ s.quotes.handed) :
    (s.flushQuotes final pos).QuotesKept := by
  unfold LiveBuffers.flushQuotes
  split
  · rename_i c hc
    refine ⟨h.quotes.hand [c.value], h.funding, ?_, ?_, h.done, ?_, ?_⟩
    · exact h.heldQuotes.hand ⟨final, c.index + 1, .upserting c.value⟩
    · exact h.heldRates.append _
    · exact forall_mem_concat h.sealed hclosed
    · exact forall_mem_concat h.last fun _ hpast => by cases hpast
  · rename_i hnone
    have hquotes := h.quotes.clear (htaken hnone)
    split
    · rename_i hempty
      -- There is no funding rate either, and the flush settles.
      have hfunding := h.funding.clear (fun r hr => by rw [hempty] at hr; cases hr)
      refine ⟨hquotes, hfunding, h.quotesHanded, h.fundingHanded, ?_, h.sealed, ?_⟩
      · cases final with
        | false => exact fun hdone => ⟨(h.done hdone).closed, rfl, rfl⟩
        | true => exact fun _ => ⟨hclosed rfl, rfl, rfl⟩
      · exact fun f hf hfinal _ => ⟨h.sealed f hf hfinal, rfl, rfl⟩
    · have hfunding := (h.funding.hand s.latestFunding.values).clear
        (fun r hr => List.mem_append_right _ hr)
      have hsealed := forall_mem_concat h.sealed
        (f := ⟨final, pos, .funding s.latestFunding.values⟩) hclosed
      refine ⟨hquotes, hfunding, h.heldQuotes.append _, ?_, ?_, hsealed, ?_⟩
      · exact h.heldRates.hand ⟨final, pos, .funding s.latestFunding.values⟩
      · exact fun hdone => ⟨(h.done hdone).closed, rfl, rfl⟩
      · exact fun f hf hfinal _ => ⟨hsealed f hf hfinal, rfl, rfl⟩

/-- The end of a loop discards only quotes that were taken, and `stop` resolves with nothing but its
own upserts to wait for. -/
def Kept (s : LiveBuffers) : BufferStep → Prop
  | .quoteFlush i => ∀ f ∈ s.quoteFlushes[i]?, f.stage.publishes = true →
      s.latestQuote.nextCell f.pos = none → ∀ q ∈ s.latestQuote.values, q ∈ s.quotes.handed
  | .stopping => s.stop = .quotesDrained → (∀ f ∈ s.tickFlushes, f.upserting = []) ∧
      ∀ f ∈ s.quoteFlushes, f.stage.quotes = [] ∧ f.stage.rates = []
  | _ => True

instance (s : LiveBuffers) : DecidablePred s.Kept
  | .quoteFlush i => inferInstanceAs (Decidable (∀ f ∈ s.quoteFlushes[i]?,
      f.stage.publishes = true → s.latestQuote.nextCell f.pos = none →
      ∀ q ∈ s.latestQuote.values, q ∈ s.quotes.handed))
  | .stopping => inferInstanceAs (Decidable (s.stop = .quotesDrained →
      (∀ f ∈ s.tickFlushes, f.upserting = []) ∧
      ∀ f ∈ s.quoteFlushes, f.stage.quotes = [] ∧ f.stage.rates = []))
  | .onTrade _ => .isTrue trivial
  | .onQuote _ => .isTrue trivial
  | .onFunding _ => .isTrue trivial
  | .tickTimer => .isTrue trivial
  | .quoteTimer => .isTrue trivial
  | .tickFlush _ => .isTrue trivial
  | .stop => .isTrue trivial

theorem QuotesKept.stepQuoteFlush (h : s.QuotesKept) {i : ℕ} (hkept : s.Kept (.quoteFlush i)) :
    (s.stepQuoteFlush i).QuotesKept := by
  unfold LiveBuffers.stepQuoteFlush
  split
  · exact h
  · rename_i final pos quote hget
    refine ⟨h.quotes, h.funding, h.heldQuotes.persist_set hget _, h.heldRates.set hget rfl _, h.done,
      ?_, ?_⟩
    · intro f hf hfinal
      rcases List.mem_or_eq_of_mem_set hf with hold | rfl
      · exact h.sealed f hold hfinal
      · exact h.sealed ⟨final, pos, .upserting quote⟩ (List.mem_of_getElem? hget) hfinal
    · intro f hf hfinal hpast
      rcases List.mem_or_eq_of_mem_set hf with hold | rfl
      · exact h.last f hold hfinal hpast
      · cases hpast
  · rename_i final pos quote hget
    have hrest : QuotesKept { s with quoteFlushes := s.quoteFlushes.eraseIdx i } := by
      refine ⟨h.quotes, h.funding, h.heldQuotes.eraseIdx hget rfl, h.heldRates.eraseIdx hget rfl,
        h.done, ?_, ?_⟩
      · exact fun f hf => h.sealed f (List.mem_of_mem_eraseIdx hf)
      · exact fun f hf => h.last f (List.mem_of_mem_eraseIdx hf)
    exact hrest.flushQuotes (fun hfinal => h.sealed _ (List.mem_of_getElem? hget) hfinal)
      (hkept _ hget rfl)
  · rename_i final pos rates hget
    refine ⟨h.quotes, h.funding, h.heldQuotes.eraseIdx hget rfl, h.heldRates.persist_eraseIdx hget,
      ?_, ?_, ?_⟩
    · cases final with
      | false => exact h.done
      | true => exact fun _ => h.last _ (List.mem_of_getElem? hget) rfl rfl
    · exact fun f hf => h.sealed f (List.mem_of_mem_eraseIdx hf)
    · exact fun f hf => h.last f (List.mem_of_mem_eraseIdx hf)

theorem QuotesKept.stepTickFlush (h : s.QuotesKept) (i : ℕ) : (s.stepTickFlush i).QuotesKept := by
  unfold LiveBuffers.stepTickFlush
  split
  · exact h
  · exact h.of_ticks rfl rfl rfl rfl rfl rfl id
  · have hrest : ∀ rest, QuotesKept { s with tickFlushes := rest } := fun _ =>
      h.of_ticks rfl rfl rfl rfl rfl rfl id
    exact (hrest _).flushTicks _ _

theorem QuotesKept.stopping (h : s.QuotesKept) (hticks : s.TicksKept) : s.stopping.QuotesKept := by
  unfold LiveBuffers.stopping
  split
  · have hclosed : QuotesKept { s with «open» := false, stop := .drainingTicks } := by
      refine ⟨h.quotes, h.funding, h.quotesHanded, h.fundingHanded, nofun, fun _ _ _ => rfl, ?_⟩
      exact fun f hf hfinal hpast =>
        ⟨rfl, (h.last f hf hfinal hpast).quotes, (h.last f hf hfinal hpast).funding⟩
    exact hclosed.flushTicks _ _
  · rename_i hstop
    have hnext : QuotesKept { s with stop := .drainingQuotes } :=
      h.of_ticks rfl rfl rfl rfl rfl rfl nofun
    have hclosed : s.open = false := hticks.closed (by rw [hstop]; rfl)
    apply hnext.flushQuotes fun _ => hclosed
    -- A loop from the start that finds no entry has none to discard.
    intro hnone q hq
    obtain ⟨c, hc, -⟩ := List.mem_map.mp hq
    exact absurd (LiveMap.nextCell_eq_none.mp hnone c hc) (Nat.not_lt_zero _)
  · rename_i hstop
    exact h.of_ticks rfl rfl rfl rfl rfl rfl fun _ => by rw [hstop]; rfl
  · exact h

theorem QuotesKept.step (h : s.QuotesKept) (hticks : s.TicksKept) {a : BufferStep}
    (hkept : s.Kept a) : (s.step a).QuotesKept := by
  unfold LiveBuffers.step
  cases a with
  | onTrade tick =>
      dsimp only
      split
      · exact h.of_ticks rfl rfl rfl rfl rfl rfl id
      · exact h
  | onQuote quote =>
      dsimp only
      split
      · rename_i hopen
        exact h.onQuote hopen quote
      · exact h
  | onFunding rate =>
      dsimp only
      split
      · rename_i hopen
        exact h.onFunding hopen rate
      · exact h
  | tickTimer =>
      dsimp only
      split
      · exact h.flushTicks _ _
      · exact h
  | quoteTimer =>
      dsimp only
      split
      · refine h.flushQuotes nofun fun hnone q hq => ?_
        obtain ⟨c, hc, -⟩ := List.mem_map.mp hq
        exact absurd (LiveMap.nextCell_eq_none.mp hnone c hc) (Nat.not_lt_zero _)
      · exact h
  | tickFlush i => exact h.stepTickFlush i
  | quoteFlush i => exact h.stepQuoteFlush hkept
  | stop =>
      dsimp only
      split
      · exact h.of_ticks rfl rfl rfl rfl rfl rfl nofun
      · exact h
  | stopping => exact h.stopping hticks

/-! ## Runs -/

theorem ticksKept_initial : initial.TicksKept := by
  refine ⟨.nil, .nil, fun h => ?_, fun f hf => ?_, fun h => ?_, fun f hf => ?_⟩
  · cases h
  · cases hf
  · cases h
  · cases hf

theorem quotesKept_initial : initial.QuotesKept := by
  refine ⟨fun key q h => ?_, fun key r h => ?_, fun q hq => ?_, fun r hr => ?_, fun h => ?_,
    fun f hf => ?_, fun f hf => ?_⟩
  · cases h
  · cases h
  · cases hq
  · cases hr
  · cases h
  · cases hf
  · cases hf

theorem ticksKept_run (steps : List BufferStep) : (run step initial steps).TicksKept :=
  run_keeps (fun _ a h => h.step a) ticksKept_initial steps

theorem quotesKept_run {steps : List BufferStep} (hkept : RunMeets step Kept initial steps) :
    (run step initial steps).QuotesKept := by
  have hstep : ∀ (s : LiveBuffers) (a : BufferStep), s.TicksKept ∧ s.QuotesKept → s.Kept a →
      (s.step a).TicksKept ∧ (s.step a).QuotesKept := by
    rintro s a ⟨hticks, hquotes⟩ ha
    exact ⟨hticks.step a, hquotes.step hticks ha⟩
  exact (run_invariant hstep ⟨ticksKept_initial, quotesKept_initial⟩ hkept).2

theorem TicksKept.handed_once (h : s.TicksKept) (hdone : s.stop.ticksDone = true) :
    s.ticks.received.Perm s.ticks.handed := by
  have hperm := h.received
  rw [buffered_eq_nil (h.drained hdone)] at hperm
  exact hperm

/-- In every run, once the ticks are drained every trade that came in has been handed to one upsert. -/
theorem trades_handed_once (steps : List BufferStep)
    (hdone : (run step initial steps).stop.ticksDone = true) :
    (run step initial steps).ticks.received.Perm (run step initial steps).ticks.handed :=
  (ticksKept_run steps).handed_once hdone

/-- Nothing that came in is lost: every trade was handed to one upsert, which has completed, and the
last quote and the last funding rate of every symbol are persisted. -/
structure Persisted (s : LiveBuffers) : Prop where
  handedOnce : s.ticks.received.Perm s.ticks.handed
  trades : s.ticks.received.Perm s.ticks.persisted
  quotes : ∀ key q, s.quotes.last NormalizedQuote.symbol key = some q → q ∈ s.quotes.persisted
  funding : ∀ key r, s.funding.last NormalizedFundingRate.symbol key = some r →
    r ∈ s.funding.persisted

theorem get?_eq_none_of_cells {α : Type} {m : LiveMap String α} (h : m.cells = []) (key : String) :
    m.get? key = none := by
  unfold LiveMap.get?
  rw [h]
  rfl

/-- The step with which `stop` resolves, where no other upsert is under way. -/
theorem persisted_of_kept (hticks : s.TicksKept) (hquotes : s.QuotesKept)
    (hstop : s.stop = .quotesDrained) (hkept : s.Kept .stopping) : (s.step .stopping).Persisted := by
  obtain ⟨hbatches, hstages⟩ := hkept hstop
  have hresolved : s.step .stopping = { s with stop := .resolved } := by
    show s.stopping = _
    unfold LiveBuffers.stopping
    rw [hstop]
  rw [hresolved]
  have honce := hticks.handed_once (by rw [hstop]; rfl)
  have hempty := hquotes.done (by rw [hstop]; rfl)
  refine ⟨honce, ?_, ?_, ?_⟩
  · -- No batch is on its way any more.
    have hupserting : s.upsertingTicks = [] := by
      unfold upsertingTicks
      rw [List.flatMap_eq_nil_iff]
      exact hbatches
    have hhanded := hticks.handed
    rw [hupserting] at hhanded
    exact honce.trans hhanded
  · intro key q hq
    rcases hquotes.quotes key q hq with hhanded | hget
    · rcases hquotes.quotesHanded q hhanded with hdone | ⟨f, hf, hstage⟩
      · exact hdone
      · rw [(hstages f hf).1] at hstage
        cases hstage
    · rw [get?_eq_none_of_cells hempty.quotes] at hget
      cases hget
  · intro key r hr
    rcases hquotes.funding key r hr with hhanded | hget
    · rcases hquotes.fundingHanded r hhanded with hdone | ⟨f, hf, hstage⟩
      · exact hdone
      · rw [(hstages f hf).2] at hstage
        cases hstage
    · rw [get?_eq_none_of_cells hempty.funding] at hget
      cases hget

end LiveBuffers

open LiveBuffers in
/-- When `stop` resolves after a run of such steps, everything is persisted. -/
theorem stop_drains (steps : List BufferStep)
    (hstop : (run step initial steps).stop = .quotesDrained)
    (hkept : RunMeets step Kept initial (steps ++ [.stopping])) :
    (run step initial (steps ++ [.stopping])).Persisted := by
  obtain ⟨hbefore, hresolve, -⟩ := runMeets_append.mp hkept
  rw [run_append]
  exact persisted_of_kept (ticksKept_run steps) (quotesKept_run hbefore) hstop hresolve

def aTrade (tradeId : String) : NormalizedTick :=
  ⟨.binance, "BTC-PERP", 0, tradeId, "100", "1", .buy⟩

def aQuote (ts : ℤ) : NormalizedQuote :=
  ⟨.binance, "BTC-PERP", ts, "99", "101", "1", "1", none, none, none, none⟩

open LiveBuffers in
/-- A trade is flushed by the timer, another one and a quote by `stop`. -/
theorem stop_drains_twoTrades :
    (run step initial ([.onTrade (aTrade "1"), .tickTimer, .onTrade (aTrade "2"), .onQuote (aQuote 0),
      .tickFlush 0, .tickFlush 0, .stop, .stopping, .tickFlush 0, .tickFlush 0, .stopping,
      .quoteFlush 0, .quoteFlush 0] ++ [.stopping])).Persisted :=
  stop_drains _ (by decide +kernel) (by decide +kernel)

open LiveBuffers in
/-- A quote that comes while a flush announces the one before it is cleared with it, and a trade that
a timer has taken is not persisted yet when `stop` resolves. -/
theorem stop_loses :
    let s := run step initial [.onQuote (aQuote 0), .quoteTimer, .onQuote (aQuote 1), .quoteFlush 0,
      .quoteFlush 0, .stop, .stopping, .stopping, .stopping]
    let t := run step initial [.onTrade (aTrade "1"), .tickTimer, .stop, .stopping, .stopping,
      .stopping]
    s.stop = .resolved ∧ ¬s.Persisted ∧ t.stop = .resolved ∧ ¬t.Persisted := by
  refine ⟨by decide +kernel, fun h => ?_, by decide +kernel, fun h => ?_⟩
  · exact absurd (h.quotes "BTC-PERP" (aQuote 1) (by decide +kernel)) (by decide +kernel)
  · exact absurd h.trades.length_eq (by decide +kernel)

end NexusQuant.Ingestion
