import Mathlib.Algebra.Ring.Nat
import Mathlib.Data.List.MinMax
import NexusQuant.Lib.Run
import NexusQuant.Lib.Slots

/-!
# The shared poller

The registry entry of one URL in `apps/web/src/lib/use-polled-resource.ts`: `load`, `publish`,
`ensureTimer`, `hookVisibility`, `obtain` and the subscription of `usePolledResource`.  An entry that
its last subscriber left stays in `entries`, because its requests may still settle, and the next
subscriber makes another one.  A request is told by its entry and its number, and so is the
controller that it was given.
-/

namespace NexusQuant.Web

open Run

variable {D : Type*}

/-! ## Requests -/

inductive FetchBody (D : Type*) where
  | aborted (cause : String)
  | timedOut
  | invalid
  | envelope (error : Option String) (data : Option D)
deriving DecidableEq, Repr

inductive FetchResult (D : Type*) where
  | aborted (cause : String)
  | timedOut
  | unreachable
  | responded (status : ℕ) (body : FetchBody D)
deriving DecidableEq, Repr

/-- `fetchEnvelope`; an empty error text is none. -/
def fetchEnvelope (name : String) : FetchResult D → Except String D
  | .aborted cause => .error cause
  | .timedOut => .error s!"{name}: timed out after 15s"
  | .unreachable => .error s!"{name}: unreachable"
  | .responded status body =>
      if status = 404 then .error s!"{name}: not found (404)"
      else if status < 200 ∨ 299 < status then .error s!"{name}: HTTP {status}"
      else
        match body with
        | .aborted cause => .error cause
        | .timedOut => .error s!"{name}: timed out after 15s"
        | .invalid => .error s!"{name}: invalid JSON response"
        | .envelope error data =>
            match error.filter (· ≠ ""), data with
            | some error, _ => .error s!"{name}: {error}"
            | none, none => .error s!"{name}: malformed response"
            | none, some data => .ok data

/-! ## Entries -/

structure Snapshot (D : Type*) where
  data : Option D
  error : Option String
  loading : Bool
  lastUpdated : Option ℤ
deriving DecidableEq, Repr

/-- `INITIAL`. -/
def Snapshot.initial : Snapshot D := ⟨none, none, true, none⟩

/-- What a load published. -/
structure Publication (D : Type*) where
  seq : ℕ
  result : Except String D
  snapshot : Snapshot D

/-- `MAX_BACKOFF_MS`. -/
def maxBackoffMs : ℕ := 60000

structure Entry (D : Type*) where
  name : String
  snapshot : Snapshot D
  settled : Bool
  subscribers : List ℕ
  /-- The cadence each subscriber asked for. -/
  intervals : List (ℕ × ℕ)
  /-- Whether the interval runs. -/
  timer : Bool
  timerMs : Option ℕ
  seq : ℕ
  applied : ℕ
  /-- The number of the request that was given the controller. -/
  controller : Option ℕ
  lastLoggedError : Option String
  failures : ℕ
  backoffUntil : ℤ
  published : List (Publication D)

namespace Entry

/-- The entry that `obtain` makes. -/
def new (name : String) : Entry D :=
  ⟨name, .initial, false, [], [], false, none, 0, 0, none, none, 0, 0, []⟩

def publish (entry : Entry D) (p : Publication D) : Entry D :=
  { entry with snapshot := p.snapshot, published := entry.published ++ [p] }

/-- A request that was not superseded has settled.  An error keeps the data that is shown. -/
def commit (entry : Entry D) (seq : ℕ) (result : Except String D) (now : ℤ) : Entry D :=
  match result with
  | .ok data =>
      publish { entry with
        applied := seq
        settled := true
        lastLoggedError := none
        failures := 0
        backoffUntil := 0 } ⟨seq, .ok data, ⟨some data, none, false, some now⟩⟩
  | .error message =>
      publish { entry with
        applied := seq
        settled := true
        lastLoggedError := some message
        failures := entry.failures + 1
        backoffUntil := now +
          min (entry.timerMs.getD 7000 * 2 ^ min (entry.failures + 1) 5) maxBackoffMs }
        ⟨seq, .error message, ⟨entry.snapshot.data, some message, false, entry.snapshot.lastUpdated⟩⟩

def ensureTimer (entry : Entry D) : Entry D :=
  let ms := (entry.intervals.map Prod.snd).min?
  if entry.timer = true ∧ entry.timerMs = ms then entry
  else { entry with timer := true, timerMs := ms }

def join (entry : Entry D) (token intervalMs : ℕ) : Entry D :=
  ensureTimer { entry with
    subscribers := entry.subscribers ++ [token]
    intervals := entry.intervals ++ [(token, intervalMs)] }

def leave (entry : Entry D) (token : ℕ) : Entry D :=
  { entry with
    subscribers := entry.subscribers.filter (· ≠ token)
    intervals := entry.intervals.filter (·.1 ≠ token) }

end Entry

/-! ## The registry -/

/-- A request in flight. -/
structure Load where
  entry : ℕ
  seq : ℕ
  aborted : Bool
deriving DecidableEq, Repr

/-- The controller `controller` of the entry is aborted. -/
def Load.abort (entry : ℕ) (controller : Option ℕ) (l : Load) : Load :=
  if l.entry = entry ∧ controller = some l.seq then { l with aborted := true } else l

/-- A subscription whose cleanup has not run; its callback is its own. -/
structure Subscription where
  entry : ℕ
  token : ℕ
deriving DecidableEq, Repr

structure Poller (D : Type*) where
  entries : List (Entry D)
  registry : Option ℕ
  loads : List Load
  subscriptions : List Subscription
  /-- The number of subscriptions so far. -/
  tokens : ℕ
  hidden : Bool
  visibilityHooked : Bool

inductive PollStep (D : Type*) where
  | subscribe (name : String) (intervalMs : ℕ)
  | unsubscribe (i : ℕ)
  | timer (entry : ℕ) (now : ℤ)
  | visibility (hidden : Bool)
  | refetch
  /-- The request settles, and what follows its await runs. -/
  | settle (i : ℕ) (result : FetchResult D) (now : ℤ)
deriving DecidableEq, Repr

namespace Poller

def initial : Poller D := ⟨[], none, [], [], 0, false, false⟩

variable (s : Poller D)

/-- `load`, up to its await: what is in flight is superseded. -/
def load (e : ℕ) : Poller D :=
  match s.entries[e]? with
  | none => s
  | some entry => { s with
      entries := s.entries.set e
        { entry with seq := entry.seq + 1, controller := some (entry.seq + 1) }
      loads := s.loads.map (Load.abort e entry.controller) ++ [⟨e, entry.seq + 1, false⟩] }

/-- The number of the entry that `obtain` returns. -/
def obtained : ℕ := s.registry.getD s.entries.length

def obtain (name : String) : Poller D :=
  match s.registry with
  | some _ => s
  | none => { s with entries := s.entries ++ [.new name], registry := some s.entries.length }

/-- The entry is loaded unless it has settled or a request is in flight. -/
def loadUnsettled (e : ℕ) : Poller D :=
  match s.entries[e]? with
  | none => s
  | some entry => if entry.settled = false ∧ entry.controller = none then s.load e else s

/-- A subscriber joins the entry, and the listener for the visibility is there. -/
def attach (e intervalMs : ℕ) : Poller D :=
  match s.entries[e]? with
  | none => s
  | some entry => { s with
      entries := s.entries.set e (entry.join s.tokens intervalMs)
      subscriptions := s.subscriptions ++ [⟨e, s.tokens⟩]
      tokens := s.tokens + 1
      visibilityHooked := true }

def subscribe (name : String) (intervalMs : ℕ) : Poller D :=
  ((s.obtain name).attach s.obtained intervalMs).loadUnsettled s.obtained

/-- The subscriber leaves its entry; the last one takes it out of the registry. -/
def detach (e : ℕ) (entry : Entry D) : Poller D :=
  if entry.subscribers = [] then { s with
    entries := s.entries.set e { entry with controller := none, timer := false }
    loads := s.loads.map (Load.abort e entry.controller)
    registry := none }
  else { s with entries := s.entries.set e entry.ensureTimer }

def unsubscribe (i : ℕ) : Poller D :=
  match s.subscriptions[i]? with
  | none => s
  | some sub =>
      match s.entries[sub.entry]? with
      | none => s
      | some entry =>
          detach { s with subscriptions := s.subscriptions.eraseIdx i } sub.entry
            (entry.leave sub.token)

/-- The interval of an entry fires. -/
def tick (e : ℕ) (now : ℤ) : Poller D :=
  match s.entries[e]? with
  | none => s
  | some entry =>
      if entry.timer = true ∧ s.hidden = false ∧ entry.controller = none ∧ entry.backoffUntil ≤ now
      then s.load e else s

/-- The listener catches up once the tab is visible again. -/
def visible : Poller D :=
  match s.registry with
  | none => s
  | some e =>
      match s.entries[e]? with
      | none => s
      | some entry =>
          if entry.subscribers ≠ [] ∧ entry.controller = none then s.load e else s

def refetch : Poller D :=
  match s.registry with
  | none => s
  | some e => s.load e

/-- `load` after its await. -/
def settle (i : ℕ) (result : FetchResult D) (now : ℤ) : Poller D :=
  match s.loads[i]? with
  | none => s
  | some l =>
      match s.entries[l.entry]? with
      | none => s
      | some entry =>
          let entry' :=
            if l.aborted = true ∨ l.seq ≤ entry.applied then entry
            else entry.commit l.seq (fetchEnvelope entry.name result) now
          { s with
            loads := s.loads.eraseIdx i
            entries := s.entries.set l.entry { entry' with
              controller := if entry.controller = some l.seq then none else entry.controller } }

def step : PollStep D → Poller D
  | .subscribe name intervalMs => s.subscribe name intervalMs
  | .unsubscribe i => s.unsubscribe i
  | .timer e now => s.tick e now
  | .visibility hidden =>
      if hidden = false ∧ s.visibilityHooked = true then visible { s with hidden := hidden }
      else { s with hidden := hidden }
  | .refetch => s.refetch
  | .settle i result now => s.settle i result now

end Poller

end NexusQuant.Web
