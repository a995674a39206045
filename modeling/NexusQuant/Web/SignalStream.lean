import Mathlib.Data.Prod.Lex
import Mathlib.Data.List.Sort
import NexusQuant.Lib.Run

/-!
# The signal stream

`GET /api/v1/signals/stream` of `apps/web/src/app/api/v1/signals/stream/route.ts`, the two reads of
`apps/web/src/lib/signals.ts` it makes, and one client that connects again whenever its connection
drops.  The database tells ids apart and orders them by its collation, `collate`.  A read and the
arrival of its answer are two steps; the rows of an answer are sent without a pause between them.
What was sent on a connection and not received is lost with it.
-/

namespace NexusQuant.Web

open Run

/-! ## Rows -/

/-- A row as it is sent; `createdAt` is in milliseconds. -/
structure SignalDTO where
  id : String
  symbol : String
  side : String
  decision : String
  confidence : String
  featureHash : String
  datasetHash : String
  strategyVersionId : String
  featureSnapshotId : String
  createdAt : ℤ
  origin : String
deriving DecidableEq, Repr

structure StreamCursor where
  ts : ℤ
  id : String
deriving DecidableEq, Repr

def SignalDTO.cursor (s : SignalDTO) : StreamCursor := ⟨s.createdAt, s.id⟩

section Reads

variable {κ : Type*} [LinearOrder κ] (collate : String → κ)

/-- `createdAt` after the one of the cursor, or equal to it and the id after. -/
def StreamCursor.Before (c : StreamCursor) (s : SignalDTO) : Prop :=
  c.ts < s.createdAt ∨ (s.createdAt = c.ts ∧ collate c.id < collate s.id)

instance (c : StreamCursor) : DecidablePred (c.Before collate) :=
  fun s => inferInstanceAs (Decidable (c.ts < s.createdAt ∨ _))

/-- `ORDER_DESC`. -/
def orderDesc (rows : List SignalDTO) : List SignalDTO :=
  rows.insertionSort fun a b => b.createdAt < a.createdAt ∨
    (b.createdAt = a.createdAt ∧ collate b.id ≤ collate a.id)

/-- A cursor that is no row's id has nothing after it. -/
def getLatestSignals (rows : List SignalDTO) (limit : ℕ) (cursor : Option String) (offset : ℕ) :
    List SignalDTO :=
  match cursor.filter (· ≠ "") with
  | some cursor => (((orderDesc collate rows).dropWhile (·.id ≠ cursor)).drop 1).take limit
  | none =>
      if 0 < offset then ((orderDesc collate rows).drop offset).take limit
      else (orderDesc collate rows).take limit

def getSignalsAfterCursor (rows : List SignalDTO) (after : StreamCursor) (limit : ℕ) :
    List SignalDTO :=
  ((rows.filter fun s => after.Before collate s).insertionSort fun a b =>
    a.createdAt < b.createdAt ∨ (a.createdAt = b.createdAt ∧ collate a.id ≤ collate b.id)).take limit

end Reads

/-! ## Cursors -/

def eventId (s : SignalDTO) : String := s!"{s.createdAt}:{s.id}"

/-- `CURSOR_ID_RE`. -/
def isCursorId (id : List Char) : Bool :=
  1 ≤ id.length && id.length ≤ 128 && id.all fun c => c.isAlphanum || c = '_' || c = '-'

/-- `MAX_EPOCH_MS`. -/
def maxEpochMs : ℕ := 8640000000000000

def maxSafeInteger : ℕ := 9007199254740991

/-- The milliseconds of a cursor: decimal digits up to the latest date. -/
def epochMs? (msRaw : List Char) : Option ℕ :=
  if msRaw ≠ [] ∧ msRaw.all Char.isDigit then
    let ms := Nat.ofDigitChars 10 msRaw 0
    if maxSafeInteger < ms ∨ maxEpochMs < ms then none else some ms
  else none

def parseCursor (raw : Option String) : Option StreamCursor := do
  let chars := (← raw).toList
  if ':' ∈ chars then
    let ms ← epochMs? (chars.takeWhile (· ≠ ':'))
    let id := (chars.dropWhile (· ≠ ':')).tail
    if isCursorId id then some ⟨ms, String.ofList id⟩ else none
  else none

/-- Where a connection resumes, nowhere on a fresh one; a cursor that is supplied and malformed is
rejected with a 400. -/
def resumePoint (headerRaw queryRaw : Option String) : Except String (Option StreamCursor) :=
  let suppliedRaw := headerRaw.or queryRaw
  let resume := (parseCursor headerRaw).or (parseCursor queryRaw)
  if suppliedRaw ≠ none ∧ suppliedRaw ≠ some "" ∧ resume = none then
    .error "invalid Last-Event-ID cursor: expected \"<epochMs>:<id>\""
  else .ok resume

/-! ## The connection -/

inductive StreamEvent where
  | ready (resumed : Bool)
  | signal (id : String) (data : SignalDTO)
  | ping
deriving DecidableEq, Repr

inductive StreamStage where
  /-- The backlog is to be read. -/
  | backlog
  | idle
  | polling
  /-- The rows of a read are on their way; a poll sends a ping after them. -/
  | answered (rows : List SignalDTO) (poll : Bool)
deriving DecidableEq, Repr

structure StreamConnection where
  /-- `lastTs` and `lastId`. -/
  last : StreamCursor
  stage : StreamStage
  /-- What was sent and not received. -/
  events : List StreamEvent
deriving DecidableEq, Repr

def StreamConnection.open (resume : Option StreamCursor) : StreamConnection :=
  ⟨resume.getD ⟨0, ""⟩, if resume.isSome then .idle else .backlog, [.ready resume.isSome]⟩

def StreamConnection.sendSignal (c : StreamConnection) (s : SignalDTO) : StreamConnection :=
  { c with last := s.cursor, events := c.events ++ [.signal (eventId s) s] }

/-- The answer of a read arrives. -/
def StreamConnection.send (c : StreamConnection) (rows : List SignalDTO) (poll : Bool) :
    StreamConnection :=
  let sent := rows.foldl StreamConnection.sendSignal c
  { sent with stage := .idle, events := sent.events ++ (if poll then [.ping] else []) }

/-! ## The client -/

/-- How a client supplies the id of the last event it received. -/
inductive CursorCarrier where
  | header | query
deriving DecidableEq, Repr

structure StreamState where
  /-- The table, in the order of the inserts. -/
  rows : List SignalDTO
  connection : Option StreamConnection
  received : List SignalDTO
  lastEventId : String
  /-- The backlog that was read last. -/
  backlog : Option (List SignalDTO)
  /-- What was inserted after the first backlog was read. -/
  later : List SignalDTO
  rejected : List String
deriving DecidableEq, Repr

def StreamState.initial : StreamState := ⟨[], none, [], "", none, [], []⟩

inductive StreamStep where
  | insert (row : SignalDTO)
  | connect (carrier : CursorCarrier)
  /-- The timer fires. -/
  | tick
  | read
  | send
  | receive
  | drop
deriving DecidableEq, Repr

def StreamState.on (s : StreamState) (c : StreamConnection) : StreamState :=
  { s with connection := some c }

def StreamState.insert (s : StreamState) (row : SignalDTO) : StreamState :=
  if row.id ∈ s.rows.map SignalDTO.id then s
  else
    { s with
      rows := s.rows ++ [row]
      later := if s.backlog.isSome then s.later ++ [row] else s.later }

/-- What `GET` makes of the id that the client echoes. -/
def StreamState.resume (s : StreamState) (carrier : CursorCarrier) :
    Except String (Option StreamCursor) :=
  let raw := if s.lastEventId = "" then none else some s.lastEventId
  match carrier with
  | .header => resumePoint raw none
  | .query => resumePoint none raw

def StreamState.connect (s : StreamState) (carrier : CursorCarrier) : StreamState :=
  match s.connection, s.resume carrier with
  | some _, _ => s
  | none, .error reason => { s with rejected := s.rejected ++ [reason] }
  | none, .ok resume => s.on (.open resume)

def StreamState.receive (s : StreamState) (c : StreamConnection) : StreamState :=
  match c.events with
  | [] => s
  | .signal id data :: events =>
      { s.on { c with events } with received := s.received ++ [data], lastEventId := id }
  | _ :: events => s.on { c with events }

section Steps

variable {κ : Type*} [LinearOrder κ] (collate : String → κ)

/-- `BACKLOG` rows, the oldest first. -/
def backlogOf (rows : List SignalDTO) : List SignalDTO :=
  (getLatestSignals collate rows 50 none 0).reverse

def StreamState.read (s : StreamState) (c : StreamConnection) : StreamState :=
  match c.stage with
  | .backlog =>
      { s.on { c with stage := .answered (backlogOf collate s.rows) false } with
        backlog := some (backlogOf collate s.rows) }
  | .polling =>
      s.on { c with stage := .answered (getSignalsAfterCursor collate s.rows c.last 100) true }
  | _ => s

def StreamState.step (s : StreamState) : StreamStep → StreamState
  | .insert row => s.insert row
  | .connect carrier => s.connect carrier
  | .tick =>
      match s.connection with
      | some c => if c.stage = .idle then s.on { c with stage := .polling } else s
      | none => s
  | .read =>
      match s.connection with
      | some c => s.read collate c
      | none => s
  | .send =>
      match s.connection with
      | some c =>
          match c.stage with
          | .answered rows poll => s.on (c.send rows poll)
          | _ => s
      | none => s
  | .receive =>
      match s.connection with
      | some c => s.receive c
      | none => s
  | .drop => { s with connection := none }

end Steps

end NexusQuant.Web
