import NexusQuant.Lib.LiveMap
import NexusQuant.Lib.Run
import NexusQuant.Lib.Slots

/-!
# The durable bus

`services/workers/src/bus/bullmq-bus.ts` over a queue that keeps a job until its processor resolves
and delivers it again after a rejection.  The handlers are a `Set` that the processor loops over
while it awaits one handler after the other, so handlers come and go during a delivery; the worker is
created at the first subscription and outlives the handlers.
-/

namespace NexusQuant.Bus

open Run

/-- A job of the queue; its data is what was enqueued, by whatever process. -/
structure Job (E : Type*) where
  id : ℕ
  data : E
deriving DecidableEq, Repr

/-- The processor between two rounds of its loop over the handlers: the event it admitted, how far
the loop has come and the handlers that returned.  `throughout` are the handlers that have been
registered since the delivery began. -/
structure Delivery (E H : Type*) where
  job : Job E
  event : E
  pos : ℕ
  handled : List H
  throughout : List H
deriving DecidableEq, Repr

/-- A delivery that awaits a handler. -/
structure Awaiting (E H : Type*) where
  handler : H
  delivery : Delivery E H
deriving DecidableEq, Repr

structure BullMqBus (E : Type*) where
  jobName : String
  /-- The `admit` codec of the options. -/
  codec : Option (E → Except String E)

/-- Job data is dispatched as it is where there is no admission codec. -/
def BullMqBus.admitted {E : Type*} (bus : BullMqBus E) (data : E) : Except String E :=
  match bus.codec with
  | none => .ok data
  | some parse => parse data

/-- The bus, its workers and the queue. -/
structure BusState (E H : Type*) where
  handlers : LiveMap H Unit
  /-- `this.worker`. -/
  worker : Option ℕ
  created : ℕ
  /-- The workers that take jobs. -/
  taking : List ℕ
  /-- The workers whose closing a call of `close` awaits. -/
  closing : List ℕ
  published : List (Job E)
  waiting : List (Job E)
  inFlight : List (Awaiting E H)
  acknowledged : List (Delivery E H)
  rejected : List (Job E × String)
deriving DecidableEq, Repr

variable {E H : Type*}

def BusState.initial : BusState E H := ⟨.empty, none, 0, [], [], [], [], [], [], []⟩

inductive BusStep (E H : Type*) where
  | subscribe (handler : H)
  | unsubscribe (handler : H)
  /-- The job of a `publish` is durably enqueued. -/
  | publish (event : E)
  | close
  /-- The closing of a worker resolves, or rejects. -/
  | closed (i : ℕ) (ok : Bool)
  /-- A worker takes a job. -/
  | deliver (worker i : ℕ)
  /-- The handler a delivery awaits returns. -/
  | returned (i : ℕ)
  /-- The handler a delivery awaits throws. -/
  | threw (i : ℕ) (message : String)
deriving DecidableEq, Repr

def BusState.ensureWorker (s : BusState E H) : BusState E H :=
  match s.worker with
  | some _ => s
  | none => { s with
      worker := some s.created
      created := s.created + 1
      taking := s.taking ++ [s.created] }

def Delivery.forget [DecidableEq H] (handler : H) (d : Delivery E H) : Delivery E H :=
  { d with throughout := d.throughout.filter (· ≠ handler) }

/-- The next round of the loop over the handlers.  Where there is none the processor resolves, and
the queue drops the job. -/
def BusState.visit (s : BusState E H) (d : Delivery E H) : BusState E H :=
  match s.handlers.nextCell d.pos with
  | some c => { s with inFlight := s.inFlight ++ [⟨c.key, { d with pos := c.index + 1 }⟩] }
  | none => { s with acknowledged := s.acknowledged ++ [d] }

/-- The loop after the awaited handler has returned. -/
def Awaiting.returned (a : Awaiting E H) : Delivery E H :=
  { a.delivery with handled := a.delivery.handled ++ [a.handler] }

/-- The processor rejects: the queue keeps the job. -/
def BusState.reject (s : BusState E H) (job : Job E) (message : String) : BusState E H :=
  { s with waiting := s.waiting ++ [job], rejected := s.rejected ++ [(job, message)] }

/-- The processor on the data of a job.  A throw of the admission propagates un-wrapped. -/
def BullMqBus.process (bus : BullMqBus E) (s : BusState E H) (job : Job E) : BusState E H :=
  match bus.admitted job.data with
  | .error message => s.reject job message
  | .ok event => s.visit ⟨job, event, 0, [], s.handlers.keys⟩

def BullMqBus.step [DecidableEq H] (bus : BullMqBus E) (s : BusState E H) : BusStep E H → BusState E H
  | .subscribe handler =>
      BusState.ensureWorker { s with handlers := s.handlers.set handler () }
  | .unsubscribe handler => { s with
      handlers := s.handlers.erase handler
      inFlight := s.inFlight.map fun a => ⟨a.handler, a.delivery.forget handler⟩ }
  | .publish event => { s with
      published := s.published ++ [⟨s.published.length, event⟩]
      waiting := s.waiting ++ [⟨s.published.length, event⟩] }
  | .close =>
      match s.worker with
      | none => s
      | some worker => { s with
          taking := s.taking.filter (· ≠ worker)
          closing := s.closing ++ [worker] }
  | .closed i ok =>
      if i < s.closing.length then { s with
        closing := s.closing.eraseIdx i
        worker := if ok then none else s.worker }
      else s
  | .deliver worker i =>
      match s.waiting[i]? with
      | none => s
      | some job =>
          if worker ∈ s.taking then bus.process { s with waiting := s.waiting.eraseIdx i } job
          else s
  | .returned i =>
      match s.inFlight[i]? with
      | none => s
      | some a => BusState.visit { s with inFlight := s.inFlight.eraseIdx i } a.returned
  | .threw i message =>
      match s.inFlight[i]? with
      | none => s
      | some a => BusState.reject { s with inFlight := s.inFlight.eraseIdx i } a.delivery.job
          s!"bullmq bus handler failed on {bus.jobName}: {message}"

/-! ## No job is lost or doubled -/

/-- Where the jobs are: waiting, in a delivery, or dropped after one. -/
def BusState.jobs (s : BusState E H) : List (Job E) :=
  s.waiting ++ s.inFlight.map (fun a => a.delivery.job) ++ s.acknowledged.map Delivery.job

theorem jobs_visit (s : BusState E H) (d : Delivery E H) :
    (s.visit d).jobs.Perm (d.job :: s.jobs) := by
  unfold BusState.visit BusState.jobs
  split
  · rw [List.map_append, List.map_singleton, ← List.append_assoc, List.append_assoc,
      List.singleton_append]
    exact List.perm_middle
  · rw [List.map_append, List.map_singleton, ← List.append_assoc]
    exact List.perm_append_singleton _ _

theorem jobs_reject (s : BusState E H) (job : Job E) (message : String) :
    (s.reject job message).jobs.Perm (job :: s.jobs) := by
  show (s.waiting ++ [job] ++ _ ++ _).Perm _
  rw [List.append_assoc, List.append_assoc, List.singleton_append, BusState.jobs, List.append_assoc]
  exact List.perm_middle

theorem jobs_take {s : BusState E H} {i : ℕ} {job : Job E} (h : s.waiting[i]? = some job) :
    (job :: BusState.jobs { s with waiting := s.waiting.eraseIdx i }).Perm s.jobs := by
  have hperm := Slots.perm_cons_eraseIdx h
  exact (hperm.append_right _).append_right _

theorem jobs_settle {s : BusState E H} {i : ℕ} {a : Awaiting E H} (h : s.inFlight[i]? = some a) :
    (a.delivery.job :: BusState.jobs { s with inFlight := s.inFlight.eraseIdx i }).Perm s.jobs := by
  have hperm := (Slots.perm_cons_eraseIdx h).map fun a => a.delivery.job
  rw [List.map_cons] at hperm
  show (a.delivery.job :: (s.waiting ++ _ ++ _)).Perm _
  rw [BusState.jobs, List.append_assoc, List.append_assoc]
  exact List.perm_middle.symm.trans ((hperm.append_right _).append_left _)

theorem jobs_process (bus : BullMqBus E) (s : BusState E H) (job : Job E) :
    (bus.process s job).jobs.Perm (job :: s.jobs) := by
  unfold BullMqBus.process
  split
  · exact jobs_reject s job _
  · exact jobs_visit s _

theorem published_visit (s : BusState E H) (d : Delivery E H) :
    (s.visit d).published = s.published := by
  unfold BusState.visit
  split <;> rfl

theorem published_process (bus : BullMqBus E) (s : BusState E H) (job : Job E) :
    (bus.process s job).published = s.published := by
  unfold BullMqBus.process
  split
  · rfl
  · exact published_visit s _

/-- What was published is what the bus still has, job by job. -/
theorem jobs_step [DecidableEq H] (bus : BullMqBus E) {s : BusState E H} (a : BusStep E H)
    (h : s.published.Perm s.jobs) : (bus.step s a).published.Perm (bus.step s a).jobs := by
  unfold BullMqBus.step
  cases a with
  | subscribe handler =>
      dsimp only [BusState.ensureWorker]
      split <;> exact h
  | unsubscribe handler =>
      show s.published.Perm (s.waiting ++ (s.inFlight.map _).map _ ++ _)
      rw [List.map_map]
      exact h
  | publish event =>
      show (s.published ++ [_]).Perm (s.waiting ++ [_] ++ _ ++ _)
      rw [List.append_assoc, List.append_assoc, List.singleton_append]
      have hjobs := h
      rw [BusState.jobs, List.append_assoc] at hjobs
      exact (List.perm_append_singleton _ _).trans ((hjobs.cons _).trans List.perm_middle.symm)
  | close =>
      dsimp only
      split <;> exact h
  | closed i ok =>
      dsimp only
      split <;> exact h
  | deliver worker i =>
      dsimp only
      split
      · exact h
      · rename_i job hjob
        split
        · rw [published_process]
          exact h.trans ((jobs_take hjob).symm.trans (jobs_process bus _ job).symm)
        · exact h
  | returned i =>
      dsimp only
      split
      · exact h
      · rename_i a ha
        rw [published_visit]
        exact h.trans ((jobs_settle ha).symm.trans (jobs_visit _ (a.returned)).symm)
  | threw i message =>
      dsimp only
      split
      · exact h
      · rename_i a ha
        exact h.trans ((jobs_settle ha).symm.trans (jobs_reject _ _ _).symm)

/-! ## What a delivery reaches -/

/-- Every handler registered throughout is still to come or in `seen`. -/
def Covers (handlers : LiveMap H Unit) (d : Delivery E H) (seen : List H) : Prop :=
  ∀ h ∈ d.throughout, ∃ c ∈ handlers.cells, c.key = h ∧ (c.index < d.pos → h ∈ seen)

/-- A processor that has resolved was admitted and reached every handler registered throughout. -/
structure Reached (bus : BullMqBus E) (d : Delivery E H) : Prop where
  admitted : bus.admitted d.job.data = .ok d.event
  throughout : ∀ h ∈ d.throughout, h ∈ d.handled

structure DeliveriesSound (bus : BullMqBus E) (s : BusState E H) : Prop where
  admitted : ∀ a ∈ s.inFlight, bus.admitted a.delivery.job.data = .ok a.delivery.event
  covers : ∀ a ∈ s.inFlight, Covers s.handlers a.delivery (a.delivery.handled ++ [a.handler])
  reached : ∀ d ∈ s.acknowledged, Reached bus d

variable {bus : BullMqBus E} {s : BusState E H}

/-- Entering the next round keeps the loop's promise, or the loop is over and has kept it. -/
theorem DeliveriesSound.visit (h : DeliveriesSound bus s) {d : Delivery E H}
    (hadmitted : bus.admitted d.job.data = .ok d.event)
    (hcovers : Covers s.handlers d d.handled) : DeliveriesSound bus (s.visit d) := by
  unfold BusState.visit
  split
  · rename_i c hc
    refine ⟨?_, ?_, h.reached⟩
    · intro a ha
      rcases List.mem_append.mp ha with ha | ha
      · exact h.admitted a ha
      · rw [List.mem_singleton.mp ha]
        exact hadmitted
    · intro a ha
      rcases List.mem_append.mp ha with ha | ha
      · exact h.covers a ha
      · rw [List.mem_singleton.mp ha]
        intro g hg
        obtain ⟨e, he, hkey, hseen⟩ := hcovers g hg
        refine ⟨e, he, hkey, fun hlt => ?_⟩
        -- Up to the new position lie what lay behind the old one, and the entry of this round.
        by_cases hpos : e.index < d.pos
        · exact List.mem_append_left _ (hseen hpos)
        · rcases LiveMap.nextCell_first hc he (Nat.le_of_not_lt hpos) with heq | hafter
          · rw [← hkey, heq]
            exact List.mem_append_right _ List.mem_cons_self
          · have hle : e.index < c.index + 1 := hlt
            omega
  · rename_i hnone
    refine ⟨h.admitted, h.covers, ?_⟩
    intro e he
    rcases List.mem_append.mp he with he | he
    · exact h.reached e he
    · rw [List.mem_singleton.mp he]
      refine ⟨hadmitted, fun g hg => ?_⟩
      obtain ⟨c, hc, -, hseen⟩ := hcovers g hg
      exact hseen (LiveMap.nextCell_eq_none.mp hnone c hc)

theorem covers_start (job : Job E) (event : E) :
    Covers s.handlers (⟨job, event, 0, [], s.handlers.keys⟩ : Delivery E H) [] := by
  intro h hh
  obtain ⟨c, hc, hkey⟩ := List.mem_map.mp hh
  exact ⟨c, hc, hkey, fun hlt => absurd hlt (Nat.not_lt_zero _)⟩

theorem DeliveriesSound.step [DecidableEq H] (h : DeliveriesSound bus s) (a : BusStep E H) :
    DeliveriesSound bus (bus.step s a) := by
  unfold BullMqBus.step
  cases a with
  | subscribe handler =>
      -- A handler that is added takes no other entry from its place.
      have hset : DeliveriesSound bus { s with handlers := s.handlers.set handler () } := by
        refine ⟨h.admitted, ?_, h.reached⟩
        intro a ha g hg
        obtain ⟨c, hc, hkey, hseen⟩ := h.covers a ha g hg
        obtain ⟨e, he, hekey, heindex⟩ := LiveMap.exists_cell_set hc
        exact ⟨e, he, hekey.trans hkey, fun hlt => hseen (heindex ▸ hlt)⟩
      show DeliveriesSound bus (BusState.ensureWorker _)
      unfold BusState.ensureWorker
      split
      · exact hset
      · exact ⟨hset.admitted, hset.covers, hset.reached⟩
  | unsubscribe handler =>
      refine ⟨?_, ?_, h.reached⟩
      · intro a ha
        obtain ⟨b, hb, rfl⟩ := List.mem_map.mp ha
        exact h.admitted b hb
      · intro a ha g hg
        obtain ⟨b, hb, rfl⟩ := List.mem_map.mp ha
        obtain ⟨hmem, hne⟩ := List.mem_filter.mp hg
        obtain ⟨c, hc, hkey, hseen⟩ := h.covers b hb g hmem
        refine ⟨c, LiveMap.mem_erase.mpr ⟨hc, ?_⟩, hkey, hseen⟩
        rw [hkey]
        exact of_decide_eq_true hne
  | publish event => exact ⟨h.admitted, h.covers, h.reached⟩
  | close =>
      dsimp only
      split
      · exact h
      · exact ⟨h.admitted, h.covers, h.reached⟩
  | closed i ok =>
      dsimp only
      split
      · exact ⟨h.admitted, h.covers, h.reached⟩
      · exact h
  | deliver worker i =>
      dsimp only
      split
      · exact h
      · rename_i job hjob
        split
        · have htaken : DeliveriesSound bus { s with waiting := s.waiting.eraseIdx i } :=
            ⟨h.admitted, h.covers, h.reached⟩
          unfold BullMqBus.process
          split
          · exact ⟨h.admitted, h.covers, h.reached⟩
          · rename_i event hevent
            exact htaken.visit hevent (covers_start job event)
        · exact h
  | returned i =>
      dsimp only
      split
      · exact h
      · rename_i a ha
        have hmem := List.mem_of_getElem? ha
        have hrest : DeliveriesSound bus { s with inFlight := s.inFlight.eraseIdx i } :=
          ⟨fun b hb => h.admitted b (List.mem_of_mem_eraseIdx hb),
            fun b hb => h.covers b (List.mem_of_mem_eraseIdx hb), h.reached⟩
        exact hrest.visit (h.admitted a hmem) (h.covers a hmem)
  | threw i message =>
      dsimp only
      split
      · exact h
      · exact ⟨fun b hb => h.admitted b (List.mem_of_mem_eraseIdx hb),
          fun b hb => h.covers b (List.mem_of_mem_eraseIdx hb), h.reached⟩

/-- In every run, the published jobs are waiting, in a delivery or acknowledged, each once. -/
theorem published_perm_jobs [DecidableEq H] (bus : BullMqBus E) (steps : List (BusStep E H)) :
    (run bus.step BusState.initial steps).published.Perm
      (run bus.step BusState.initial steps).jobs :=
  @run_keeps _ _ _ _ (fun s : BusState E H => s.published.Perm s.jobs)
    (fun _ a h => jobs_step bus a h) .nil steps

/-- In every run, what is acknowledged was admitted and handled by every handler registered
throughout its delivery. -/
theorem registered_handlers_reached [DecidableEq H] (bus : BullMqBus E)
    (steps : List (BusStep E H)) :
    ∀ d ∈ (run bus.step BusState.initial steps).acknowledged, Reached bus d := by
  have hsound : DeliveriesSound bus (run bus.step BusState.initial steps) :=
    run_keeps (fun _ a h => h.step a) ⟨nofun, nofun, nofun⟩ steps
  exact hsound.reached

/-! ## When no job is acknowledged unhandled -/

/-- An admitted job is delivered while some handler is registered. -/
def Heard (bus : BullMqBus E) (s : BusState E H) : BusStep E H → Prop
  | .deliver worker i => worker ∈ s.taking → ∀ job ∈ s.waiting[i]?, ∀ event,
      bus.admitted job.data = .ok event → s.handlers.keys ≠ []
  | _ => True

theorem acknowledged_visit {d : Delivery E H} (h : d.handled ≠ [])
    (hold : ∀ e ∈ s.acknowledged, e.handled ≠ []) : ∀ e ∈ (s.visit d).acknowledged, e.handled ≠ [] := by
  unfold BusState.visit
  split
  · exact hold
  · intro e he
    rcases List.mem_append.mp he with he | he
    · exact hold e he
    · rw [List.mem_singleton.mp he]
      exact h

/-- The first round of the loop finds a handler, or the delivery is over at once. -/
theorem acknowledged_start (job : Job E) (event : E) (throughout : List H) :
    (s.handlers.keys ≠ [] ∧
      (s.visit ⟨job, event, 0, [], throughout⟩).acknowledged = s.acknowledged) ∨
    (s.handlers.keys = [] ∧ (s.visit ⟨job, event, 0, [], throughout⟩).acknowledged =
      s.acknowledged ++ [⟨job, event, 0, [], throughout⟩]) := by
  unfold BusState.visit
  split
  · rename_i c hc
    refine .inl ⟨?_, rfl⟩
    exact List.ne_nil_of_mem (List.mem_map_of_mem (LiveMap.nextCell_mem hc))
  · rename_i hnone
    refine .inr ⟨?_, rfl⟩
    show s.handlers.cells.map _ = []
    rw [List.map_eq_nil_iff, List.eq_nil_iff_forall_not_mem]
    intro c hc
    exact Nat.not_lt_zero _ (LiveMap.nextCell_eq_none.mp hnone c hc)

theorem handled_step [DecidableEq H] (a : BusStep E H) (hheard : Heard bus s a)
    (h : ∀ d ∈ s.acknowledged, d.handled ≠ []) :
    ∀ d ∈ (bus.step s a).acknowledged, d.handled ≠ [] := by
  unfold BullMqBus.step
  cases a with
  | subscribe handler =>
      dsimp only [BusState.ensureWorker]
      split <;> exact h
  | unsubscribe handler => exact h
  | publish event => exact h
  | close =>
      dsimp only
      split <;> exact h
  | closed i ok =>
      dsimp only
      split <;> exact h
  | deliver worker i =>
      dsimp only
      split
      · exact h
      · rename_i job hjob
        split
        · rename_i htaking
          unfold BullMqBus.process
          split
          · exact h
          · rename_i event hevent
            have hkeys := hheard htaking job hjob event hevent
            rcases @acknowledged_start E H { s with waiting := s.waiting.eraseIdx i } job event
              s.handlers.keys with ⟨-, heq⟩ | ⟨hnone, -⟩
            · rw [heq]
              exact h
            · exact absurd hnone hkeys
        · exact h
  | returned i =>
      dsimp only
      split
      · exact h
      · rename_i a ha
        refine acknowledged_visit ?_ h
        exact List.append_ne_nil_of_right_ne_nil _ (List.cons_ne_nil _ _)
  | threw i message =>
      dsimp only
      split <;> exact h

theorem mem_acknowledged_visit {d e : Delivery E H} (h : e ∈ s.acknowledged) :
    e ∈ (s.visit d).acknowledged := by
  unfold BusState.visit
  split
  · exact h
  · exact List.mem_append_left _ h

/-- What is acknowledged stays acknowledged. -/
theorem mem_acknowledged_step [DecidableEq H] {d : Delivery E H} (h : d ∈ s.acknowledged) (a : BusStep E H) :
    d ∈ (bus.step s a).acknowledged := by
  unfold BullMqBus.step
  cases a with
  | subscribe handler =>
      dsimp only [BusState.ensureWorker]
      split <;> exact h
  | unsubscribe handler => exact h
  | publish event => exact h
  | close =>
      dsimp only
      split <;> exact h
  | closed i ok =>
      dsimp only
      split <;> exact h
  | deliver worker i =>
      dsimp only
      split
      · exact h
      · split
        · unfold BullMqBus.process
          split
          · exact h
          · exact mem_acknowledged_visit h
        · exact h
  | returned i =>
      dsimp only
      split
      · exact h
      · exact mem_acknowledged_visit h
  | threw i message =>
      dsimp only
      split <;> exact h

theorem mem_acknowledged_run [DecidableEq H] {d : Delivery E H} (h : d ∈ s.acknowledged)
    (steps : List (BusStep E H)) : d ∈ (run bus.step s steps).acknowledged :=
  @run_keeps _ _ _ _ (fun s : BusState E H => d ∈ s.acknowledged)
    (fun _ a h => mem_acknowledged_step h a) h steps

/-- A delivery that nobody hears acknowledges a job that nobody handled. -/
theorem unheard_acknowledged [DecidableEq H] {a : BusStep E H} (h : ¬Heard bus s a) :
    ∃ d ∈ (bus.step s a).acknowledged, d.handled = [] := by
  cases a with
  | deliver worker i =>
      simp only [Heard, not_forall, not_not] at h
      obtain ⟨htaking, job, hjob, event, hevent, hkeys⟩ := h
      refine ⟨⟨job, event, 0, [], s.handlers.keys⟩, ?_, rfl⟩
      have hwaiting : s.waiting[i]? = some job := hjob
      show _ ∈ (BullMqBus.step bus s (.deliver worker i)).acknowledged
      unfold BullMqBus.step
      dsimp only
      rw [hwaiting]
      dsimp only
      rw [if_pos htaking]
      unfold BullMqBus.process
      rw [hevent]
      dsimp only
      rcases @acknowledged_start E H { s with waiting := s.waiting.eraseIdx i } job event
        s.handlers.keys with ⟨hsome, -⟩ | ⟨-, heq⟩
      · exact absurd hkeys hsome
      · rw [heq]
        exact List.mem_append_right _ List.mem_cons_self
  | subscribe => exact absurd trivial h
  | unsubscribe => exact absurd trivial h
  | publish => exact absurd trivial h
  | close => exact absurd trivial h
  | closed => exact absurd trivial h
  | returned => exact absurd trivial h
  | threw => exact absurd trivial h

theorem handled_run_iff [DecidableEq H] {s : BusState E H}
    (h : ∀ d ∈ s.acknowledged, d.handled ≠ []) (steps : List (BusStep E H)) :
    (∀ d ∈ (run bus.step s steps).acknowledged, d.handled ≠ []) ↔
      RunMeets bus.step (Heard bus) s steps := by
  induction steps generalizing s with
  | nil => exact ⟨fun _ => trivial, fun _ => h⟩
  | cons a steps ih =>
      by_cases hheard : Heard bus s a
      · rw [run_cons, ih (handled_step a hheard h)]
        exact ⟨fun hrest => ⟨hheard, hrest⟩, fun hmeets => hmeets.2⟩
      · -- The unhandled job stays in the record to the end of the run.
        constructor
        · intro hall
          obtain ⟨d, hd, hnone⟩ := unheard_acknowledged hheard
          exact absurd hnone (hall d (mem_acknowledged_run hd steps))
        · intro hmeets
          exact absurd hmeets.1 hheard

/-- An acknowledged job that was admitted and handled, by one handler at least and by every handler
registered throughout its delivery. -/
structure Processed (bus : BullMqBus E) (d : Delivery E H) : Prop extends Reached bus d where
  handled : d.handled ≠ []

/-- Every published job is waiting, in a delivery, or acknowledged and processed. -/
structure Durable (bus : BullMqBus E) (s : BusState E H) : Prop where
  kept : s.published.Perm s.jobs
  processed : ∀ d ∈ s.acknowledged, Processed bus d

/-- A run acknowledges only what was processed exactly when every admitted job was delivered while a
handler was registered. -/
theorem durable_iff [DecidableEq H] (bus : BullMqBus E) (steps : List (BusStep E H)) :
    Durable bus (run bus.step BusState.initial steps) ↔
      RunMeets bus.step (Heard bus) BusState.initial steps := by
  rw [← handled_run_iff (s := BusState.initial) nofun steps]
  constructor
  · intro h d hd
    exact (h.processed d hd).handled
  · intro h
    refine ⟨published_perm_jobs bus steps, fun d hd => ?_⟩
    exact ⟨registered_handlers_reached bus steps d hd, h d hd⟩

/-- The only handler unsubscribes; the worker stays, takes the next job and resolves. -/
theorem unheard_job_acknowledged :
    let bus : BullMqBus String := ⟨"nexus.decision", none⟩
    let s := run bus.step (BusState.initial : BusState String ℕ)
      [.subscribe 0, .unsubscribe 0, .publish "decision", .deliver 0 0]
    s.published = [⟨0, "decision"⟩] ∧ s.waiting = [] ∧ s.inFlight = [] ∧ ¬Durable bus s := by
  refine ⟨by decide +kernel, by decide +kernel, by decide +kernel, fun h => ?_⟩
  refine absurd (h.processed ⟨⟨0, "decision"⟩, "decision", 0, [], []⟩ ?_).handled ?_
  · decide +kernel
  · decide

end NexusQuant.Bus
