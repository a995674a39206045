import NexusQuant.Market.Stage

/-!
# Failed executions change nothing

`MarketExecutionAdapter` with the event store it was given: none, the records in memory, or the file
of JSON lines, whose `append` can fail after any part of the line it writes.  A call that fails
leaves the market state, the mirror and the records of the store as they were, unless a subscriber
throws on an update published after the commit, or an append meets a torn line or fails with the
whole JSON text written.
-/

namespace NexusQuant.Market

open Execution Journal Run

/-- The `eventStore` of an adapter. -/
inductive EventStore where
  | absent
  | memory (records : List MarketJournalRecord)
  | file (store : Store)

namespace EventStore

variable (texts : FileMarketEventStore.Texts)

/-- `readAll`. -/
def readAll : EventStore → Except ReadError (List Json)
  | .absent => .ok []
  | .memory records => .ok (records.map MarketJournalRecord.toJson)
  | .file store => FileMarketEventStore.readAll texts store.file

/-- `append`, with the way the write of a file ends: whether it went through, and the store afterwards. -/
def append (store : EventStore) (input : MarketJournalInput) (write : Write) : Bool × EventStore :=
  match store with
  | .absent => (true, .absent)
  | .memory records => (true, .memory (records ++ [{ input with seq := records.length }]))
  | .file store =>
      let out := FileMarketEventStore.append texts store input write
      (out.1.isSome, .file out.2)

/-- The append starts on a line of its own, and does not fail with its whole text written. -/
def Contained (store : EventStore) (input : MarketJournalInput) (write : Write) : Prop :=
  match store with
  | .file store => Journal.Contained marketFormat texts (fun _ => False) store input write
  | _ => True

instance (store : EventStore) (input : MarketJournalInput) (write : Write) :
    Decidable (store.Contained texts input write) := by
  cases store <;> dsimp only [Contained] <;> infer_instance

/-- A file holds completed lines and at most a fragment. -/
def Whole : EventStore → Prop
  | .file store => ∃ completed, Laid marketFormat texts (fun _ => False) store.file completed
  | _ => True

variable {texts} {store : EventStore} {input : MarketJournalInput} {write : Write}

theorem Whole.append (h : store.Whole texts) (hcontained : store.Contained texts input write) :
    (store.append texts input write).2.Whole texts := by
  cases store with
  | absent => trivial
  | memory records => trivial
  | file store =>
      obtain ⟨completed, hlaid⟩ := h
      exact ⟨_, hlaid.append hcontained⟩

/-- A contained append that fails leaves the records of the store as they were. -/
theorem Whole.readAll_append (h : store.Whole texts) (hcontained : store.Contained texts input write)
    (hfailed : (store.append texts input write).1 = false) :
    (store.append texts input write).2.readAll texts = store.readAll texts := by
  cases store with
  | absent => cases hfailed
  | memory records => cases hfailed
  | file store =>
      obtain ⟨completed, hlaid⟩ := h
      have hnone : (Journal.append marketFormat texts store input write).1 = none :=
        Option.not_isSome_iff_eq_none.mp (Bool.eq_false_iff.mp hfailed)
      have hafter := hlaid.append hcontained
      -- No record was completed, so the file is laid out for the same records.
      rw [hnone, Option.toList_none, List.append_nil] at hafter
      show Journal.readAll marketFormat texts _ = Journal.readAll marketFormat texts _
      exact hafter.readAll_congr hlaid

end EventStore

/-- An adapter and its event store. -/
structure StoredAdapter where
  marketState : MarketState
  portfolioMirror : PortfolioState
  eventStore : EventStore

/-- One call: the intent, the world around the adapter, how the write of the record ends, and what is
thrown where it fails. -/
structure StoredCall where
  intent : ExecutionIntent
  quote : String → Except String (Option Quote)
  place : Order → Except String (List OrderEvent)
  subscriber : List MarketStageEvent → MarketStageEvent → Option String
  write : Write
  failure : String

def initialStoredAdapter (cfg : AdapterConfig) (store : EventStore) : StoredAdapter :=
  ⟨emptyMarketState cfg.accountConfig, emptyPortfolioState, store⟩

section Execute

variable (cfg : AdapterConfig) (texts : FileMarketEventStore.Texts) (s : StoredAdapter)
  (call : StoredCall)

/-- The world of the call, whose journal write is the append of the store. -/
def StoredCall.world : World where
  quote := call.quote
  place := call.place
  append input := if (s.eventStore.append texts input call.write).1 then none else some call.failure
  subscriber := call.subscriber

/-- The adapter alone; the records are in the store. -/
def StoredAdapter.state : AdapterState := ⟨s.marketState, s.portfolioMirror, []⟩

/-- What the call has prepared when it reaches the journal. -/
def prepared : Option Commit :=
  match attempt cfg (call.world texts s) s.state call.intent with
  | .ok (.commit c) => some c
  | _ => none

/-- `execute` on an adapter with its store. -/
def executeStored : Outcome × StoredAdapter :=
  let out := execute cfg (call.world texts s) s.state call.intent
  let eventStore := match prepared cfg texts s call with
    | some c => (s.eventStore.append texts (c.input call.intent) call.write).2
    | none => s.eventStore
  (out.1, ⟨out.2.marketState, out.2.portfolioMirror, eventStore⟩)

def stepStored : StoredAdapter := (executeStored cfg texts s call).2

/-- A call that fails leaves the market state, the mirror and the records of the store as they were. -/
def FailureChangesNothing : Prop :=
  (executeStored cfg texts s call).1.Failed →
    (stepStored cfg texts s call).marketState = s.marketState ∧
      (stepStored cfg texts s call).portfolioMirror = s.portfolioMirror ∧
      (stepStored cfg texts s call).eventStore.readAll texts = s.eventStore.readAll texts

/-- If the call reaches its journal, the append is contained, and where it goes through no subscriber
throws on the two updates published after it. -/
def CleanCall : Prop :=
  ∀ c ∈ prepared cfg texts s call,
    s.eventStore.Contained texts (c.input call.intent) call.write ∧
      ((s.eventStore.append texts (c.input call.intent) call.write).1 = true →
        call.subscriber c.published (c.positionUpdated call.intent) = none ∧
          call.subscriber (c.published ++ [c.positionUpdated call.intent])
            (c.accountUpdated cfg) = none)

instance : Decidable (CleanCall cfg texts s call) := by
  dsimp only [CleanCall]; infer_instance

end Execute

variable {cfg : AdapterConfig} {texts : FileMarketEventStore.Texts} {s : StoredAdapter}
  {call : StoredCall}

theorem world_append (input : MarketJournalInput) : (call.world texts s).append input =
    if (s.eventStore.append texts input call.write).1 then none else some call.failure := rfl

theorem prepared_eq_some {c : Commit} : prepared cfg texts s call = some c ↔
    attempt cfg (call.world texts s) s.state call.intent = .ok (.commit c) := by
  unfold prepared
  split
  · rename_i c' heq
    rw [heq]
    simp
  · rename_i hne
    constructor
    · intro h
      cases h
    · intro h
      exact absurd h (hne c)

/-- The adapter of a clean call that fails is as it was. -/
theorem CleanCall.state_eq (h : CleanCall cfg texts s call)
    (hfailed : (executeStored cfg texts s call).1.Failed) :
    (execute cfg (call.world texts s) s.state call.intent).2 = s.state := by
  refine (failureAtomic_iff cfg (call.world texts s) s.state call.intent).mpr ?_ hfailed
  intro c hattempt happend
  refine (h c (prepared_eq_some.mpr hattempt)).2 ?_
  by_contra hnot
  rw [world_append, if_neg hnot] at happend
  cases happend

/-- Where a record was appended, the call fails only after its commit. -/
theorem CleanCall.append_failed (h : CleanCall cfg texts s call)
    (hfailed : (executeStored cfg texts s call).1.Failed) {c : Commit}
    (hc : prepared cfg texts s call = some c) :
    (s.eventStore.append texts (c.input call.intent) call.write).1 = false := by
  by_contra hnot
  have hstate := h.state_eq hfailed
  have hattempt := prepared_eq_some.mp hc
  have happend : (call.world texts s).append (c.input call.intent) = none := by
    rw [world_append, if_pos (by simpa using hnot)]
  -- The journal of the bare adapter would have grown.
  unfold execute at hstate
  rw [hattempt] at hstate
  simp only [happend] at hstate
  split at hstate
  · exact c.state_ne _ _ hstate
  · exact c.state_ne _ _ hstate

theorem CleanCall.failureChangesNothing (h : CleanCall cfg texts s call)
    (hwhole : s.eventStore.Whole texts) : FailureChangesNothing cfg texts s call := by
  intro hfailed
  have hstate := h.state_eq hfailed
  refine ⟨congrArg AdapterState.marketState hstate, congrArg AdapterState.portfolioMirror hstate, ?_⟩
  unfold stepStored executeStored
  cases hc : prepared cfg texts s call with
  | none => rfl
  | some c => exact hwhole.readAll_append (h c hc).1 (h.append_failed hfailed hc)

theorem CleanCall.whole (h : CleanCall cfg texts s call) (hwhole : s.eventStore.Whole texts) :
    (stepStored cfg texts s call).eventStore.Whole texts := by
  unfold stepStored executeStored
  cases hc : prepared cfg texts s call with
  | none => exact hwhole
  | some c => exact hwhole.append (h c hc).1

theorem whole_empty : (EventStore.file ⟨[], none⟩).Whole texts := ⟨[], [], rfl, .inl (.inl rfl)⟩

/-- In every run of clean calls, from any state whose file holds completed lines and at most a fragment
(a new process on the file of an earlier run, say), every call that fails leaves the market state, the
mirror and the records as they were. -/
theorem failed_calls_change_nothing (cfg : AdapterConfig) (texts : FileMarketEventStore.Texts)
    (start : StoredAdapter) (hstart : start.eventStore.Whole texts) (calls visited : List StoredCall)
    (call : StoredCall)
    (h : RunMeets (stepStored cfg texts) (CleanCall cfg texts) start calls)
    (hvisited : visited ++ [call] <+: calls) :
    FailureChangesNothing cfg texts (run (stepStored cfg texts) start visited) call := by
  obtain ⟨rest, rfl⟩ := hvisited
  have hcalls := h.of_append
  have hstep : ∀ (t : StoredAdapter) (c : StoredCall), t.eventStore.Whole texts →
      CleanCall cfg texts t c → (stepStored cfg texts t c).eventStore.Whole texts :=
    fun t c ht hc => hc.whole ht
  have hwhole : (run (stepStored cfg texts) start visited).eventStore.Whole texts :=
    run_invariant hstep hstart hcalls.of_append
  exact hcalls.of_append_right.1.failureChangesNothing hwhole

/-! ## A write that fails, and a subscriber that throws -/

/-- A call at a quote of 100, with the paper broker and silent subscribers. -/
def storedCall (intent : ExecutionIntent) (write : Write) : StoredCall where
  intent
  quote := sampleWorld.quote
  place := sampleWorld.place
  subscriber := sampleWorld.subscriber
  write
  failure := "ENOSPC: no space left on device"

/-- The double of the first target. -/
def doubledIntent : ExecutionIntent := { sampleIntent with targetNotional := "300.00" }

theorem failed_calls_change_nothing_sample :
    RunMeets (stepStored sampleConfig FileMarketEventStore.jsonTexts)
        (CleanCall sampleConfig FileMarketEventStore.jsonTexts)
        (initialStoredAdapter sampleConfig (.file ⟨[], none⟩))
        [storedCall sampleIntent .complete, storedCall doubledIntent (.torn 5)] ∧
      FailureChangesNothing sampleConfig FileMarketEventStore.jsonTexts
        (run (stepStored sampleConfig FileMarketEventStore.jsonTexts)
          (initialStoredAdapter sampleConfig (.file ⟨[], none⟩)) [storedCall sampleIntent .complete])
        (storedCall doubledIntent (.torn 5)) := by
  have h : RunMeets (stepStored sampleConfig FileMarketEventStore.jsonTexts)
      (CleanCall sampleConfig FileMarketEventStore.jsonTexts)
      (initialStoredAdapter sampleConfig (.file ⟨[], none⟩))
      [storedCall sampleIntent .complete, storedCall doubledIntent (.torn 5)] := by decide +kernel
  exact ⟨h, failed_calls_change_nothing sampleConfig FileMarketEventStore.jsonTexts _ whole_empty _ _ _ h
    (List.prefix_refl _)⟩

/-- A subscriber that throws on a position update. -/
def throwingCall : StoredCall :=
  { storedCall sampleIntent .complete with
    subscriber := fun _ e => match e with
      | .positionUpdated .. => some "observer failed"
      | _ => none }

/-- The number of records that are read, where the store can be read. -/
def recordCount (store : EventStore) : Option ℕ :=
  (store.readAll FileMarketEventStore.jsonTexts).toOption.map List.length

theorem recordCount_ne {a : StoredAdapter} {call : StoredCall}
    (hfailed : (executeStored sampleConfig FileMarketEventStore.jsonTexts a call).1.Failed)
    (hcount : recordCount (stepStored sampleConfig FileMarketEventStore.jsonTexts a call).eventStore ≠
      recordCount a.eventStore) :
    ¬FailureChangesNothing sampleConfig FileMarketEventStore.jsonTexts a call := by
  intro h
  rw [recordCount, (h hfailed).2.2] at hcount
  exact hcount rfl

/-- From the empty adapter, the throw comes after the commit, and the write that fails has left the whole
JSON text: both calls fail, and the store has a record more. -/
theorem failed_call_adds_record :
    (executeStored sampleConfig FileMarketEventStore.jsonTexts
      (initialStoredAdapter sampleConfig (.memory [])) throwingCall).1 = .threw "observer failed" ∧
    ¬FailureChangesNothing sampleConfig FileMarketEventStore.jsonTexts
      (initialStoredAdapter sampleConfig (.memory [])) throwingCall ∧
    ¬FailureChangesNothing sampleConfig FileMarketEventStore.jsonTexts
      (initialStoredAdapter sampleConfig (.file ⟨[], none⟩))
      (storedCall sampleIntent (.torn 100000)) := by
  refine ⟨by decide +kernel, recordCount_ne ?_ ?_, recordCount_ne ?_ ?_⟩ <;> decide +kernel

end NexusQuant.Market
