import Mathlib.Data.String.Basic
import NexusQuant.Lib.DecimalText
import NexusQuant.Lib.Keyset
import NexusQuant.Web.SignalStream

/-!
# What the stream delivers

The event id of a row is read back as its cursor exactly where the id has the alphabet of cursors and
the date is one a cursor can name.  A client that connects again as often as it has to gets its
backlog and then every later row once, in the order of the cursors, as long as no row is inserted
behind the cursor of what has been read for it.  Frames are taken whole: an id with a line break, which
no cursor has, would be cut by the lines of the stream.
-/

namespace NexusQuant.Web

open Run DecimalText

/-! ## Event ids -/

/-- A cursor can name the row. -/
def SignalDTO.Resumable (s : SignalDTO) : Prop :=
  0 ≤ s.createdAt ∧ s.createdAt ≤ maxEpochMs ∧ isCursorId s.id.toList = true

instance : DecidablePred SignalDTO.Resumable := fun s =>
  inferInstanceAs (Decidable (0 ≤ s.createdAt ∧ _))

theorem toList_eventId (s : SignalDTO) :
    (eventId s).toList = (toString s.createdAt).toList ++ ':' :: s.id.toList := by
  unfold eventId
  rw [String.toList_append, String.toList_append, List.append_assoc]
  rfl

theorem eventId_ne_empty (s : SignalDTO) : eventId s ≠ "" := by
  intro h
  have hlist := toList_eventId s
  rw [h] at hlist
  exact absurd (hlist.symm : _ = []) (by simp)

theorem ne_colon_of_mem_toString_int {t : ℤ} {c : Char} (hc : c ∈ (toString t).toList) :
    c ≠ ':' := by
  rw [toList_toString_int] at hc
  rintro rfl
  rcases List.mem_append.mp hc with hsign | hdigit
  · split at hsign
    · exact absurd hsign (by decide)
    · cases hsign
  · have := Nat.isDigit_of_mem_toDigits (by decide) (by decide) hdigit
    exact absurd this (by decide)

theorem takeWhile_eventId (s : SignalDTO) :
    (eventId s).toList.takeWhile (· ≠ ':') = (toString s.createdAt).toList := by
  rw [toList_eventId, List.takeWhile_append_of_pos fun c hc =>
    decide_eq_true (ne_colon_of_mem_toString_int hc)]
  rw [List.takeWhile_cons_of_neg (by simp), List.append_nil]

theorem dropWhile_eventId (s : SignalDTO) :
    ((eventId s).toList.dropWhile (· ≠ ':')).tail = s.id.toList := by
  rw [toList_eventId, List.dropWhile_append_of_pos fun c hc =>
    decide_eq_true (ne_colon_of_mem_toString_int hc)]
  rw [List.dropWhile_cons_of_neg (by simp)]
  rfl

theorem epochMs?_toString (t : ℤ) : epochMs? (toString t).toList =
    if 0 ≤ t ∧ t ≤ maxEpochMs then some t.toNat else none := by
  unfold epochMs?
  rw [toList_toString_int]
  by_cases hneg : t < 0
  · -- A sign is no digit.
    rw [if_neg (by simp [hneg]), if_neg (by omega)]
  · have hdigits : (Nat.toDigits 10 t.natAbs).all Char.isDigit = true :=
      List.all_eq_true.mpr fun c hc => Nat.isDigit_of_mem_toDigits (by decide) (by decide) hc
    rw [if_neg hneg, List.nil_append, if_pos ⟨Nat.toDigits_ne_nil, hdigits⟩]
    show (if maxSafeInteger < Nat.ofDigitChars 10 (Nat.toDigits 10 t.natAbs) 0 ∨ _ then _ else _) = _
    rw [Nat.ofDigitChars_ten_toDigits]
    have hmax : maxEpochMs ≤ maxSafeInteger := by decide
    by_cases hle : t ≤ maxEpochMs
    · rw [if_neg (by omega), if_pos ⟨by omega, hle⟩]
      congr 1
      omega
    · rw [if_pos (.inr (by omega)), if_neg fun h => hle h.2]

/-- The event id of a row, read back. -/
theorem parseCursor_eventId (s : SignalDTO) :
    parseCursor (some (eventId s)) = some s.cursor ↔ s.Resumable := by
  have hcolon : ':' ∈ (eventId s).toList := by
    rw [toList_eventId]
    exact List.mem_append_right _ List.mem_cons_self
  have hparse : parseCursor (some (eventId s)) = (epochMs? (toString s.createdAt).toList).bind
      fun ms => if isCursorId s.id.toList then some ⟨ms, String.ofList s.id.toList⟩ else none := by
    unfold parseCursor
    show (if ':' ∈ (eventId s).toList then _ else _) = _
    rw [if_pos hcolon, takeWhile_eventId, dropWhile_eventId]
    rfl
  rw [hparse, epochMs?_toString, String.ofList_toList]
  unfold SignalDTO.Resumable
  by_cases hms : 0 ≤ s.createdAt ∧ s.createdAt ≤ maxEpochMs
  · rw [if_pos hms, Option.bind_some]
    by_cases hid : isCursorId s.id.toList = true
    · rw [if_pos hid, Int.toNat_of_nonneg hms.1]
      exact iff_of_true rfl ⟨hms.1, hms.2, hid⟩
    · rw [if_neg hid]
      exact iff_of_false nofun fun h => hid h.2.2
  · rw [if_neg hms]
    exact iff_of_false nofun fun h => hms ⟨h.1, h.2.1⟩

/-! ## Keys -/

section Keys

variable {κ : Type*} [LinearOrder κ] (collate : String → κ)

def StreamCursor.key (c : StreamCursor) : ℤ ×ₗ κ := toLex (c.ts, collate c.id)

def SignalDTO.key (s : SignalDTO) : ℤ ×ₗ κ := s.cursor.key collate

theorem before_iff {c : StreamCursor} {s : SignalDTO} :
    c.Before collate s ↔ c.key collate < s.key collate := by
  show _ ↔ toLex (c.ts, collate c.id) < toLex (s.createdAt, collate s.id)
  rw [Prod.Lex.toLex_lt_toLex]
  exact or_congr Iff.rfl (and_congr_left' eq_comm)

theorem key_le_iff {a b : SignalDTO} : a.key collate ≤ b.key collate ↔
    a.createdAt < b.createdAt ∨ (a.createdAt = b.createdAt ∧ collate a.id ≤ collate b.id) := by
  show toLex (a.createdAt, collate a.id) ≤ toLex (b.createdAt, collate b.id) ↔ _
  exact Prod.Lex.toLex_le_toLex

theorem getSignalsAfterCursor_eq (rows : List SignalDTO) (c : StreamCursor) (limit : ℕ) :
    getSignalsAfterCursor collate rows c limit =
      Keyset.after (SignalDTO.key collate) (c.key collate) limit rows := by
  unfold getSignalsAfterCursor Keyset.after Keyset.ascending
  simp only [before_iff, key_le_iff]

theorem backlogOf_eq (rows : List SignalDTO) :
    backlogOf collate rows = (Keyset.latest (SignalDTO.key collate) 50 rows).reverse := by
  show ((orderDesc collate rows).take 50).reverse = _
  unfold orderDesc Keyset.latest Keyset.descending
  simp only [key_le_iff]

omit [LinearOrder κ] in
theorem nodup_keys (hcollate : Function.Injective collate) {rows : List SignalDTO}
    (hids : (rows.map SignalDTO.id).Nodup) : (rows.map (SignalDTO.key collate)).Nodup := by
  rw [List.Nodup, List.pairwise_map] at hids ⊢
  apply hids.imp
  intro a b hne hkey
  exact hne (hcollate (congrArg (fun k => (ofLex k).2) hkey))

omit [LinearOrder κ] in
theorem key_moved (rows : List SignalDTO) (cursor : StreamCursor) :
    ((rows.getLast?.map SignalDTO.cursor).getD cursor).key collate =
      Keyset.moved (SignalDTO.key collate) (cursor.key collate) rows := by
  unfold Keyset.moved
  cases rows.getLast? <;> rfl

end Keys

/-! ## Delivery -/

def StreamEvent.signal? : StreamEvent → Option SignalDTO
  | .signal _ data => some data
  | _ => none

/-- The rows of an answer on its way. -/
def StreamStage.rows : StreamStage → List SignalDTO
  | .answered rows _ => rows
  | _ => []

namespace StreamConnection

/-- Sent or on its way. -/
def unreceived (c : StreamConnection) : List SignalDTO :=
  c.events.filterMap StreamEvent.signal? ++ c.stage.rows

/-- The cursor, or the last row of an answer on its way. -/
def passed (c : StreamConnection) : Option StreamCursor :=
  if c.stage = .backlog then none
  else some ((c.stage.rows.getLast?.map SignalDTO.cursor).getD c.last)

end StreamConnection

namespace StreamState

/-- What the client is to receive: its backlog and what was inserted after. -/
def owed (s : StreamState) : List SignalDTO := s.backlog.getD [] ++ s.later

/-- Where the reads for the client have come to; between connections, what it received last. -/
def passed (s : StreamState) : Option StreamCursor :=
  match s.connection with
  | none => s.received.getLast?.map SignalDTO.cursor
  | some c => c.passed

/-- Received, sent, or on its way. -/
def pipe (s : StreamState) : List SignalDTO :=
  s.received ++ (s.connection.map StreamConnection.unreceived).getD []

section Conditions

variable {κ : Type*} [LinearOrder κ] (collate : String → κ)

/-- A row is inserted after the cursor of what has been read for the client, the id of the event it
echoes can be read back, and a client that received nothing over an earlier connection finds what was
inserted since in its backlog. -/
def InOrder (s : StreamState) : StreamStep → Prop
  | .insert row => row.id ∉ s.rows.map SignalDTO.id → ∀ c ∈ s.passed, c.Before collate row
  | .connect _ => s.connection = none → ∀ last ∈ s.received.getLast?, last.Resumable
  | .read => ∀ c ∈ s.connection, c.stage = .backlog → ∀ row ∈ s.later,
      row ∈ backlogOf collate s.rows
  | _ => True

instance (s : StreamState) : DecidablePred (s.InOrder collate)
  | .insert _ => inferInstanceAs (Decidable (_ → _))
  | .connect _ => inferInstanceAs (Decidable (_ → _))
  | .read => inferInstanceAs (Decidable (∀ c ∈ s.connection, _))
  | .tick => inferInstanceAs (Decidable True)
  | .send => inferInstanceAs (Decidable True)
  | .receive => inferInstanceAs (Decidable True)
  | .drop => inferInstanceAs (Decidable True)

/-- Polls, one after the other. -/
def rounds : ℕ → List StreamStep
  | 0 => []
  | n + 1 => .tick :: .read :: .send :: rounds n

def sent (s : StreamState) : ℕ := (s.connection.map fun c => c.events.length).getD 0

/-- The connection is left alone until the client has received what there is. -/
def catchUp (s : StreamState) : StreamState :=
  let polled := run (step collate) s (rounds (s.rows.length + 1))
  run (step collate) polled (List.replicate polled.sent .receive)

/-- The client is not rejected; it receives rows in the order of their cursors, each of them once, and
only what it is owed; it has everything it is owed up to the last row that it received, and what is
still missing comes over the connection it has. -/
structure ExactlyOnce (s : StreamState) : Prop where
  accepted : s.rejected = []
  ordered : s.received.Pairwise fun a b => a.cursor.Before collate b
  owed : ∀ row ∈ s.received, row ∈ s.owed
  unskipped : ∀ last ∈ s.received.getLast?, ∀ row ∈ s.owed,
    ¬last.cursor.Before collate row → row ∈ s.received
  complete : ∀ c ∈ s.connection, c.stage ≠ .backlog →
    ∀ row ∈ s.owed, row ∈ (s.catchUp collate).received

/-- What was read for the client is a window of the table, from the first row it is owed. -/
structure Feed (s : StreamState) : Prop where
  ids : (s.rows.map SignalDTO.id).Nodup
  accepted : s.rejected = []
  echo : s.lastEventId = (s.received.getLast?.map eventId).getD ""
  labelled : ∀ c ∈ s.connection, ∀ id data, .signal id data ∈ c.events → id = eventId data
  silent : s.passed = none → s.pipe = []
  begun : ∀ c ∈ s.passed, s.backlog.isSome = true
  window : ∀ c ∈ s.passed, ∃ lo, Keyset.Window (SignalDTO.key collate) s.rows lo (c.key collate) s.pipe ∧
    ∀ row, row ∈ s.owed ↔ row ∈ s.rows ∧ lo ≤ row.key collate

end Conditions

/-! ## Steps -/

section Feed

variable {κ : Type*} [LinearOrder κ] {collate : String → κ} {s s' : StreamState}
  {c c' : StreamConnection}

theorem passed_of_none (h : s.connection = none) :
    s.passed = s.received.getLast?.map SignalDTO.cursor := by
  unfold passed
  rw [h]

theorem passed_of_some (h : s.connection = some c) : s.passed = c.passed := by
  unfold passed
  rw [h]

theorem pipe_of_none (h : s.connection = none) : s.pipe = s.received := by
  unfold pipe
  rw [h]
  exact List.append_nil s.received

theorem pipe_of_some (h : s.connection = some c) : s.pipe = s.received ++ c.unreceived := by
  unfold pipe
  rw [h]
  rfl

/-- A step that moves rows along the pipe. -/
theorem Feed.along (h : s.Feed collate) (hrows : s'.rows = s.rows) (hbacklog : s'.backlog = s.backlog)
    (hlater : s'.later = s.later) (hrejected : s'.rejected = s.rejected)
    (hpassed : s'.passed = s.passed) (hpipe : s'.pipe = s.pipe)
    (hecho : s'.lastEventId = (s'.received.getLast?.map eventId).getD "")
    (hlabelled : ∀ c ∈ s'.connection, ∀ id data, .signal id data ∈ c.events → id = eventId data) :
    s'.Feed collate := by
  have howed : s'.owed = s.owed := by
    unfold owed
    rw [hbacklog, hlater]
  constructor
  · rw [hrows]
    exact h.ids
  · rw [hrejected]
    exact h.accepted
  · exact hecho
  · exact hlabelled
  · rw [hpassed, hpipe]
    exact h.silent
  · rw [hpassed, hbacklog]
    exact h.begun
  · rw [hpassed, hpipe, hrows, howed]
    exact h.window

theorem Feed.insert (h : s.Feed collate) (row : SignalDTO)
    (hok : s.InOrder collate (.insert row)) : (s.insert row).Feed collate := by
  unfold StreamState.insert
  split
  · exact h
  · rename_i hnew
    have hafter := hok hnew
    constructor
    · show ((s.rows ++ [row]).map SignalDTO.id).Nodup
      rw [List.map_append]
      apply h.ids.append (List.nodup_singleton row.id)
      intro id hold hid
      rw [List.mem_singleton.mp hid] at hold
      exact hnew hold
    · exact h.accepted
    · exact h.echo
    · exact h.labelled
    · exact h.silent
    · exact h.begun
    · intro cursor hcursor
      obtain ⟨lo, hwindow, howed⟩ := h.window cursor hcursor
      have hlt : cursor.key collate < row.key collate :=
        (before_iff collate).mp (hafter cursor hcursor)
      refine ⟨lo, hwindow.insert hlt, fun other => ?_⟩
      show other ∈ s.backlog.getD [] ++ (if s.backlog.isSome then s.later ++ [row] else s.later) ↔
        other ∈ s.rows ++ [row] ∧ _
      rw [if_pos (h.begun cursor hcursor), ← List.append_assoc, List.mem_append,
        List.mem_append, List.mem_append, List.mem_singleton]
      have hsplit := howed other
      unfold owed at hsplit
      rw [List.mem_append] at hsplit
      rw [hsplit]
      constructor
      · rintro (⟨hrow, hlo⟩ | rfl)
        · exact ⟨.inl hrow, hlo⟩
        · exact ⟨.inr rfl, hwindow.le.trans hlt.le⟩
      · rintro ⟨hrow | rfl, hlo⟩
        · exact .inl ⟨hrow, hlo⟩
        · exact .inr rfl

/-! A connection resumes after the event that was received last. -/

theorem resume_of_nil (h : s.Feed collate) (hnone : s.received = []) (carrier : CursorCarrier) :
    s.resume carrier = .ok none := by
  have hid : s.lastEventId = "" := by
    rw [h.echo, hnone]
    rfl
  unfold resume
  rw [if_pos hid]
  cases carrier <;> rfl

theorem resume_of_getLast (h : s.Feed collate) {row : SignalDTO}
    (hlast : s.received.getLast? = some row) (hrow : row.Resumable) (carrier : CursorCarrier) :
    s.resume carrier = .ok (some row.cursor) := by
  have hid : s.lastEventId = eventId row := by
    rw [h.echo, hlast]
    rfl
  have hparse := (parseCursor_eventId row).mpr hrow
  unfold resume
  rw [hid, if_neg (eventId_ne_empty row)]
  cases carrier with
  | header =>
      show resumePoint (some (eventId row)) none = _
      unfold resumePoint
      rw [hparse]
      exact if_neg fun h => Option.some_ne_none row.cursor h.2.2
  | query =>
      show resumePoint none (some (eventId row)) = _
      unfold resumePoint
      rw [hparse]
      exact if_neg fun h => Option.some_ne_none row.cursor h.2.2

theorem Feed.connect (h : s.Feed collate) (carrier : CursorCarrier)
    (hok : s.InOrder collate (.connect carrier)) : (s.connect carrier).Feed collate := by
  unfold StreamState.connect
  cases hconn : s.connection with
  | some c => exact h
  | none =>
      cases hlast : s.received.getLast? with
      | none =>
          have hnone := List.getLast?_eq_none_iff.mp hlast
          rw [resume_of_nil h hnone carrier]
          -- A fresh connection: nothing has been read on it.
          have hpassed : (s.on (.open none)).passed = none := rfl
          constructor
          · exact h.ids
          · exact h.accepted
          · exact h.echo
          · intro c hc id data hsignal
            cases hc
            exact absurd hsignal (by simp [StreamConnection.open])
          · intro _
            show s.received ++ _ = []
            rw [hnone]
            rfl
          · intro cursor hcursor
            rw [hpassed] at hcursor
            cases hcursor
          · intro cursor hcursor
            rw [hpassed] at hcursor
            cases hcursor
      | some row =>
          rw [resume_of_getLast h hlast (hok hconn row hlast) carrier]
          show (s.on (.open (some row.cursor))).Feed collate
          apply h.along
          · rfl
          · rfl
          · rfl
          · rfl
          · rw [passed_of_none hconn, hlast]
            rfl
          · rw [pipe_of_none hconn]
            exact List.append_nil s.received
          · exact h.echo
          · intro c hc id data hsignal
            cases hc
            exact absurd hsignal (by simp [StreamConnection.open])

theorem Feed.tick (h : s.Feed collate) (hconn : s.connection = some c) (hidle : c.stage = .idle) :
    (s.on { c with stage := .polling }).Feed collate := by
  have hpassed : c.passed = some c.last := by
    unfold StreamConnection.passed
    rw [hidle]
    rfl
  have hunreceived : c.unreceived = c.events.filterMap StreamEvent.signal? := by
    unfold StreamConnection.unreceived
    rw [hidle]
    exact List.append_nil _
  apply h.along
  · rfl
  · rfl
  · rfl
  · rfl
  · rw [passed_of_some hconn, hpassed]
    rfl
  · rw [pipe_of_some hconn, hunreceived]
    show s.received ++ (c.events.filterMap StreamEvent.signal? ++ []) = _
    rw [List.append_nil]
  · exact h.echo
  · intro d hd
    cases hd
    exact h.labelled c hconn

/-! What the answer of a read leaves of a connection. -/

theorem foldl_sendSignal (rows : List SignalDTO) (c : StreamConnection) :
    rows.foldl StreamConnection.sendSignal c =
      { c with
        last := (rows.getLast?.map SignalDTO.cursor).getD c.last
        events := c.events ++ rows.map fun s => .signal (eventId s) s } := by
  induction rows generalizing c with
  | nil =>
      show c = { c with last := c.last, events := c.events ++ [] }
      rw [List.append_nil]
  | cons row rows ih =>
      rw [List.foldl_cons, ih, List.getLast?_cons]
      unfold StreamConnection.sendSignal
      rw [List.append_assoc, Option.map_some, Option.getD_some]
      cases rows.getLast? <;> rfl

theorem passed_send (c : StreamConnection) (rows : List SignalDTO) (poll : Bool) :
    (c.send rows poll).passed = some ((rows.getLast?.map SignalDTO.cursor).getD c.last) := by
  unfold StreamConnection.send
  rw [foldl_sendSignal]
  rfl

theorem unreceived_send (c : StreamConnection) (rows : List SignalDTO) (poll : Bool) :
    (c.send rows poll).unreceived = c.events.filterMap StreamEvent.signal? ++ rows := by
  have hping : (if poll then [StreamEvent.ping] else []).filterMap StreamEvent.signal? = [] := by
    cases poll <;> rfl
  have hrows : (rows.map fun s => StreamEvent.signal (eventId s) s).filterMap StreamEvent.signal? =
      rows := by
    rw [List.filterMap_map]
    exact List.filterMap_some
  unfold StreamConnection.send
  rw [foldl_sendSignal]
  show ((c.events ++ _) ++ _).filterMap StreamEvent.signal? ++ [] = _
  rw [List.filterMap_append, List.filterMap_append, hping, hrows, List.append_nil, List.append_nil]

theorem mem_events_send {rows : List SignalDTO} {poll : Bool} {id : String} {data : SignalDTO}
    (h : .signal id data ∈ (c.send rows poll).events) :
    .signal id data ∈ c.events ∨ id = eventId data := by
  unfold StreamConnection.send at h
  rw [foldl_sendSignal] at h
  rcases List.mem_append.mp h with hsent | hping
  · rcases List.mem_append.mp hsent with hold | hnew
    · exact .inl hold
    · obtain ⟨row, -, hrow⟩ := List.mem_map.mp hnew
      cases hrow
      exact .inr rfl
  · cases poll with
    | true => exact absurd hping (by simp)
    | false => exact absurd hping List.not_mem_nil

theorem Feed.send (h : s.Feed collate) (hconn : s.connection = some c) {rows : List SignalDTO}
    {poll : Bool} (hstage : c.stage = .answered rows poll) :
    (s.on (c.send rows poll)).Feed collate := by
  have hpassed : c.passed = some ((rows.getLast?.map SignalDTO.cursor).getD c.last) := by
    unfold StreamConnection.passed
    rw [hstage]
    rfl
  have hunreceived : c.unreceived = c.events.filterMap StreamEvent.signal? ++ rows := by
    unfold StreamConnection.unreceived
    rw [hstage]
    rfl
  apply h.along
  · rfl
  · rfl
  · rfl
  · rfl
  · rw [passed_of_some hconn, hpassed]
    exact passed_send c rows poll
  · rw [pipe_of_some hconn, hunreceived, ← unreceived_send c rows poll]
    rfl
  · exact h.echo
  · intro d hd id data hsignal
    cases hd
    rcases mem_events_send hsignal with hold | heq
    · exact h.labelled c hconn id data hold
    · exact heq

theorem Feed.receive (h : s.Feed collate) (hconn : s.connection = some c) :
    (s.receive c).Feed collate := by
  have hpipe : s.pipe = s.received ++ c.unreceived := pipe_of_some hconn
  unfold StreamConnection.unreceived at hpipe
  unfold StreamState.receive
  split
  · exact h
  · rename_i id data events hevents
    have hsignal : StreamEvent.signal? (.signal id data) = some data := rfl
    rw [hevents, List.filterMap_cons_some hsignal] at hpipe
    apply h.along
    · rfl
    · rfl
    · rfl
    · rfl
    · rw [passed_of_some hconn]
      rfl
    · rw [hpipe]
      show (s.received ++ [data]) ++ (events.filterMap StreamEvent.signal? ++ c.stage.rows) = _
      rw [List.append_assoc, List.singleton_append, List.cons_append]
    · show id = ((s.received ++ [data]).getLast?.map eventId).getD ""
      rw [List.getLast?_concat]
      exact h.labelled c hconn id data (hevents ▸ List.mem_cons_self)
    · intro d hd id' data' hsignal
      cases hd
      exact h.labelled c hconn id' data' (hevents ▸ List.mem_cons_of_mem _ hsignal)
  · rename_i event events hnot hevents
    have hsilent : event.signal? = none := by
      cases event with
      | signal id data => exact (hnot id data rfl).elim
      | ready resumed => rfl
      | ping => rfl
    rw [hevents, List.filterMap_cons_none hsilent] at hpipe
    apply h.along
    · rfl
    · rfl
    · rfl
    · rfl
    · rw [passed_of_some hconn]
      rfl
    · exact hpipe.symm
    · exact h.echo
    · intro d hd id' data' hsignal
      cases hd
      exact h.labelled c hconn id' data' (hevents ▸ List.mem_cons_of_mem _ hsignal)

/-- What was received of a window is a window again; the rest is read again. -/
theorem Feed.drop (h : s.Feed collate) : ({ s with connection := none } : StreamState).Feed collate := by
  have hpipe : s.pipe = s.received ++ (s.connection.map StreamConnection.unreceived).getD [] := rfl
  have hpassed : ∀ last, s.received.getLast? = some last → ∃ cursor, s.passed = some cursor := by
    intro last hlast
    cases hp : s.passed with
    | some cursor => exact ⟨cursor, rfl⟩
    | none =>
        have hnil := h.silent hp
        rw [hpipe, List.append_eq_nil_iff] at hnil
        rw [hnil.1] at hlast
        cases hlast
  constructor
  · exact h.ids
  · exact h.accepted
  · exact h.echo
  · exact nofun
  · intro hnone
    rw [pipe_of_none rfl]
    rw [passed_of_none rfl, Option.map_eq_none_iff] at hnone
    exact List.getLast?_eq_none_iff.mp hnone
  · intro cursor hcursor
    rw [passed_of_none rfl] at hcursor
    obtain ⟨last, hlast, -⟩ := Option.map_eq_some_iff.mp hcursor
    obtain ⟨cursor', hcursor'⟩ := hpassed last hlast
    exact h.begun cursor' hcursor'
  · intro cursor hcursor
    rw [passed_of_none rfl] at hcursor
    obtain ⟨last, hlast, rfl⟩ := Option.map_eq_some_iff.mp hcursor
    obtain ⟨cursor', hcursor'⟩ := hpassed last hlast
    obtain ⟨lo, hwindow, howed⟩ := h.window cursor' hcursor'
    rw [hpipe] at hwindow
    refine ⟨lo, ?_, howed⟩
    rw [pipe_of_none rfl]
    exact hwindow.of_append hlast

variable (hcollate : Function.Injective collate)

include hcollate

theorem Feed.readPage (h : s.Feed collate) (hconn : s.connection = some c)
    (hstage : c.stage = .polling) :
    (s.on { c with stage := .answered (getSignalsAfterCursor collate s.rows c.last 100) true }).Feed
      collate := by
  have hpassed : s.passed = some c.last := by
    rw [passed_of_some hconn]
    unfold StreamConnection.passed
    rw [hstage]
    rfl
  have hpipe : s.pipe = s.received ++ c.events.filterMap StreamEvent.signal? := by
    rw [pipe_of_some hconn]
    unfold StreamConnection.unreceived
    rw [hstage]
    exact congrArg (s.received ++ ·) (List.append_nil _)
  obtain ⟨lo, hwindow, howed⟩ := h.window c.last hpassed
  constructor
  · exact h.ids
  · exact h.accepted
  · exact h.echo
  · intro d hd
    cases hd
    exact h.labelled c hconn
  · intro hnone
    exact absurd hnone (Option.some_ne_none _)
  · intro cursor _
    exact h.begun c.last hpassed
  · intro cursor hcursor
    cases hcursor
    refine ⟨lo, ?_, howed⟩
    have hpage := hwindow.after (nodup_keys collate hcollate h.ids) 100
    rw [← getSignalsAfterCursor_eq, ← key_moved collate, hpipe, List.append_assoc] at hpage
    exact hpage

/-- The backlog is the end of the table, and everything inserted since an earlier one is in it. -/
theorem Feed.readBacklog (h : s.Feed collate) (hconn : s.connection = some c)
    (hstage : c.stage = .backlog) (hlater : ∀ row ∈ s.later, row ∈ backlogOf collate s.rows) :
    ({ s.on { c with stage := .answered (backlogOf collate s.rows) false } with
      backlog := some (backlogOf collate s.rows) } : StreamState).Feed collate := by
  have hnone : s.passed = none := by
    rw [passed_of_some hconn]
    exact if_pos hstage
  have hnil := h.silent hnone
  rw [pipe_of_some hconn, List.append_eq_nil_iff] at hnil
  obtain ⟨hreceived, hunreceived⟩ := hnil
  have hevents := (List.append_eq_nil_iff.mp hunreceived).1
  have hpipe : s.received ++ (c.events.filterMap StreamEvent.signal? ++ backlogOf collate s.rows) =
      backlogOf collate s.rows := by
    rw [hreceived, hevents]
    rfl
  have howed : ∀ row, row ∈ backlogOf collate s.rows ++ s.later ↔ row ∈ backlogOf collate s.rows := by
    intro row
    rw [List.mem_append, or_iff_left_of_imp (hlater row)]
  have hkeys := nodup_keys collate hcollate h.ids
  constructor
  · exact h.ids
  · exact h.accepted
  · exact h.echo
  · intro d hd
    cases hd
    exact h.labelled c hconn
  · intro hnone'
    exact absurd hnone' (Option.some_ne_none _)
  · intro cursor _
    rfl
  · intro cursor hcursor
    cases hcursor
    cases hhead : (backlogOf collate s.rows).head? with
    | none =>
        have hempty := List.head?_eq_none_iff.mp hhead
        have hrows : s.rows = [] := by
          rw [backlogOf_eq, List.reverse_eq_nil_iff] at hempty
          exact Keyset.eq_nil_of_latest (by decide) hempty
        refine ⟨c.last.key collate, ?_, fun row => (howed row).trans ?_⟩
        · show Keyset.Window _ s.rows _
            ((((backlogOf collate s.rows).getLast?.map SignalDTO.cursor).getD c.last).key collate)
            (s.received ++ (c.events.filterMap StreamEvent.signal? ++ backlogOf collate s.rows))
          rw [hpipe, key_moved, hempty, hrows, Keyset.moved_nil]
          exact Keyset.window_nil _
        · show row ∈ backlogOf collate s.rows ↔ row ∈ s.rows ∧ _
          rw [hempty, hrows]
          exact iff_of_false List.not_mem_nil fun hrow => List.not_mem_nil hrow.1
    | some first =>
        rw [backlogOf_eq] at hhead
        obtain ⟨hwindow, htop⟩ := Keyset.window_latest hkeys (c.last.key collate) hhead
        rw [← backlogOf_eq, ← key_moved collate] at hwindow htop
        refine ⟨first.key collate, ?_, fun row => (howed row).trans ?_⟩
        · show Keyset.Window _ s.rows _ _
            (s.received ++ (c.events.filterMap StreamEvent.signal? ++ backlogOf collate s.rows))
          rw [hpipe]
          exact hwindow
        · rw [hwindow.mem_iff]
          exact ⟨fun hrow => ⟨hrow.1, hrow.2.1⟩, fun hrow => ⟨hrow.1, hrow.2, htop row hrow.1⟩⟩

theorem Feed.step (h : s.Feed collate) (step : StreamStep) (hok : s.InOrder collate step) :
    (s.step collate step).Feed collate := by
  cases step with
  | insert row => exact h.insert row hok
  | connect carrier => exact h.connect carrier hok
  | drop => exact h.drop
  | tick =>
      unfold StreamState.step
      cases hconn : s.connection with
      | none => exact h
      | some c =>
          by_cases hidle : c.stage = .idle
          · simp only [if_pos hidle]
            exact h.tick hconn hidle
          · simp only [if_neg hidle]
            exact h
  | read =>
      unfold StreamState.step
      cases hconn : s.connection with
      | none => exact h
      | some c =>
          show (s.read collate c).Feed collate
          unfold StreamState.read
          split
          · rename_i hstage
            exact h.readBacklog hcollate hconn hstage (hok c hconn hstage)
          · rename_i hstage
            exact h.readPage hcollate hconn hstage
          · exact h
  | send =>
      unfold StreamState.step
      cases hconn : s.connection with
      | none => exact h
      | some c =>
          cases hstage : c.stage with
          | answered rows poll =>
              simp only [hstage]
              exact h.send hconn hstage
          | backlog =>
              simp only [hstage]
              exact h
          | idle =>
              simp only [hstage]
              exact h
          | polling =>
              simp only [hstage]
              exact h
  | receive =>
      unfold StreamState.step
      cases hconn : s.connection with
      | none => exact h
      | some c => exact h.receive hconn

theorem Feed.run {steps : List StreamStep} (h : s.Feed collate)
    (hok : RunMeets (StreamState.step collate) (InOrder collate) s steps) :
    (Run.run (StreamState.step collate) s steps).Feed collate :=
  run_invariant (fun _ step hs hstep => hs.step hcollate step hstep) h hok

omit hcollate

theorem feed_initial : initial.Feed collate := by
  constructor
  · exact List.nodup_nil
  · rfl
  · rfl
  · exact nofun
  · exact fun _ => rfl
  · exact nofun
  · exact nofun

/-! ## Catching up -/

theorem step_tick_of_idle (hconn : s.connection = some c) (hidle : c.stage = .idle) :
    s.step collate .tick = s.on { c with stage := .polling } := by
  simp only [StreamState.step, hconn, if_pos hidle]

theorem step_tick_of_ne (hconn : s.connection = some c) (hbusy : c.stage ≠ .idle) :
    s.step collate .tick = s := by
  simp only [StreamState.step, hconn, if_neg hbusy]

theorem step_read_of_polling (hconn : s.connection = some c) (hpolling : c.stage = .polling) :
    s.step collate .read =
      s.on { c with stage := .answered (getSignalsAfterCursor collate s.rows c.last 100) true } := by
  simp only [StreamState.step, hconn, StreamState.read, hpolling]

theorem step_read_of_answered {rows : List SignalDTO} {poll : Bool} (hconn : s.connection = some c)
    (hanswered : c.stage = .answered rows poll) : s.step collate .read = s := by
  simp only [StreamState.step, hconn, StreamState.read, hanswered]

theorem step_send_of_answered {rows : List SignalDTO} {poll : Bool} (hconn : s.connection = some c)
    (hanswered : c.stage = .answered rows poll) : s.step collate .send = s.on (c.send rows poll) := by
  simp only [StreamState.step, hconn, hanswered]

theorem run_round (s : StreamState) (n : ℕ) : run (step collate) s (rounds (n + 1)) =
    run (step collate) (((s.step collate .tick).step collate .read).step collate .send) (rounds n) :=
  rfl

theorem stage_send (c : StreamConnection) (rows : List SignalDTO) (poll : Bool) :
    (c.send rows poll).stage = .idle := rfl

theorem last_send (c : StreamConnection) (rows : List SignalDTO) (poll : Bool) :
    (c.send rows poll).last = (rows.getLast?.map SignalDTO.cursor).getD c.last := by
  unfold StreamConnection.send
  rw [foldl_sendSignal]

section Rounds

variable (hcollate : Function.Injective collate)

include hcollate

/-- A poll leaves fewer rows ahead of the cursor. -/
theorem Feed.poll (h : s.Feed collate) (hconn : s.connection = some c)
    (hpolling : c.stage = .polling) :
    ∃ c', (s.step collate .read).step collate .send = s.on c' ∧ c'.stage = .idle ∧
      (s.on c').Feed collate ∧ Keyset.ahead (SignalDTO.key collate) (c'.last.key collate) s.rows ≤
        Keyset.ahead (SignalDTO.key collate) (c.last.key collate) s.rows - 1 := by
  have hread := h.readPage hcollate hconn hpolling
  have hsend := hread.send rfl rfl
  refine ⟨_, ?_, stage_send _ _ _, hsend, ?_⟩
  · rw [step_read_of_polling hconn hpolling]
    exact step_send_of_answered rfl rfl
  · rw [last_send, key_moved, getSignalsAfterCursor_eq]
    exact Keyset.ahead_after (by decide)

theorem Feed.round (h : s.Feed collate) (hconn : s.connection = some c) (hidle : c.stage = .idle) :
    ∃ c', ((s.step collate .tick).step collate .read).step collate .send = s.on c' ∧
      c'.stage = .idle ∧ (s.on c').Feed collate ∧
        Keyset.ahead (SignalDTO.key collate) (c'.last.key collate) s.rows ≤
          Keyset.ahead (SignalDTO.key collate) (c.last.key collate) s.rows - 1 := by
  rw [step_tick_of_idle hconn hidle]
  have htick := h.tick hconn hidle
  exact htick.poll (c := { c with stage := .polling }) hcollate rfl rfl

/-- Whatever a connection is waiting for, a round brings it to rest. -/
theorem Feed.settle (h : s.Feed collate) (hconn : s.connection = some c)
    (hbegun : c.stage ≠ .backlog) :
    ∃ c', ((s.step collate .tick).step collate .read).step collate .send = s.on c' ∧
      c'.stage = .idle ∧ (s.on c').Feed collate := by
  cases hstage : c.stage with
  | backlog => exact absurd hstage hbegun
  | idle =>
      obtain ⟨c', hrun, hidle, hfeed, -⟩ := h.round hcollate hconn hstage
      exact ⟨c', hrun, hidle, hfeed⟩
  | polling =>
      rw [step_tick_of_ne hconn (by rw [hstage]; decide)]
      obtain ⟨c', hrun, hidle, hfeed, -⟩ := h.poll hcollate hconn hstage
      exact ⟨c', hrun, hidle, hfeed⟩
  | answered rows poll =>
      rw [step_tick_of_ne hconn (by rw [hstage]; exact nofun), step_read_of_answered hconn hstage,
        step_send_of_answered hconn hstage]
      exact ⟨_, rfl, stage_send c rows poll, h.send hconn hstage⟩

/-- As many polls as there are rows ahead read all of them. -/
theorem Feed.polled {n : ℕ} (h : s.Feed collate) (hconn : s.connection = some c)
    (hidle : c.stage = .idle)
    (hahead : Keyset.ahead (SignalDTO.key collate) (c.last.key collate) s.rows ≤ n) :
    ∃ c', Run.run (StreamState.step collate) s (rounds n) = s.on c' ∧ c'.stage = .idle ∧
      (s.on c').Feed collate ∧
        Keyset.ahead (SignalDTO.key collate) (c'.last.key collate) s.rows = 0 := by
  induction n generalizing s c with
  | zero =>
      have hself : s.on c = s := by
        unfold on
        rw [← hconn]
      exact ⟨c, hself.symm, hidle, hself ▸ h, Nat.le_zero.mp hahead⟩
  | succ n ih =>
      obtain ⟨c₁, hrun, hidle₁, hfeed, hless⟩ := h.round hcollate hconn hidle
      obtain ⟨c', hrest, hidle', hfeed', hnone⟩ := ih hfeed rfl hidle₁ (by
        show Keyset.ahead _ _ s.rows ≤ n
        omega)
      refine ⟨c', ?_, hidle', hfeed', hnone⟩
      rw [run_round, hrun, hrest]
      rfl

end Rounds

/-- The client receives what was sent, to the last event. -/
theorem Feed.received {n : ℕ} (h : s.Feed collate) (hconn : s.connection = some c)
    (hn : c.events.length = n) :
    ∃ c', (Run.run (StreamState.step collate) s (List.replicate n .receive)).connection = some c' ∧
      c'.events = [] ∧ c'.stage = c.stage ∧ c'.last = c.last ∧
      (Run.run (StreamState.step collate) s (List.replicate n .receive)).rows = s.rows ∧
      (Run.run (StreamState.step collate) s (List.replicate n .receive)).owed = s.owed ∧
      (Run.run (StreamState.step collate) s (List.replicate n .receive)).Feed collate := by
  induction n generalizing s c with
  | zero => exact ⟨c, hconn, List.length_eq_zero_iff.mp hn, rfl, rfl, rfl, rfl, h⟩
  | succ n ih =>
      have hstep : s.step collate .receive = s.receive c := by
        simp only [StreamState.step, hconn]
      obtain ⟨event, events, hevents⟩ := List.exists_cons_of_length_eq_add_one hn
      have hnext : (s.receive c).connection = some { c with events } ∧
          (s.receive c).rows = s.rows ∧ (s.receive c).owed = s.owed := by
        unfold StreamState.receive
        rw [hevents]
        cases event <;> exact ⟨rfl, rfl, rfl⟩
      have hlength : events.length = n := by
        rw [hevents] at hn
        exact Nat.succ.inj hn
      obtain ⟨c', hconn', hempty, hstage, hlast, hrows, howed, hfeed⟩ :=
        ih (h.receive hconn) hnext.1 hlength
      rw [List.replicate_succ, run_cons, hstep]
      exact ⟨c', hconn', hempty, hstage, hlast, hrows.trans hnext.2.1, howed.trans hnext.2.2, hfeed⟩

theorem Feed.caughtUp (hcollate : Function.Injective collate) (h : s.Feed collate)
    (hconn : s.connection = some c) (hbegun : c.stage ≠ .backlog) :
    ∀ row ∈ s.owed, row ∈ (s.catchUp collate).received := by
  obtain ⟨c₁, hrun₁, hidle₁, hfeed₁⟩ := h.settle hcollate hconn hbegun
  obtain ⟨c₂, hrun₂, hidle₂, hfeed₂, hahead⟩ := hfeed₁.polled hcollate rfl hidle₁
    (List.length_filter_le _ s.rows)
  have hpolled : Run.run (StreamState.step collate) s (rounds (s.rows.length + 1)) = s.on c₂ := by
    rw [run_round, hrun₁]
    exact hrun₂
  obtain ⟨c₃, hconn₃, hempty, hstage, hlast, hrows, howed, hfeed₃⟩ :=
    hfeed₂.received rfl rfl
  have hcatch : s.catchUp collate =
      Run.run (StreamState.step collate) (s.on c₂) (List.replicate c₂.events.length .receive) := by
    unfold catchUp
    rw [hpolled]
    rfl
  rw [hcatch]
  intro row hrow
  have hstage₃ : c₃.stage = .idle := hstage.trans hidle₂
  obtain ⟨lo, hwindow, howed₃⟩ := hfeed₃.window c₃.last (by
    rw [passed_of_some hconn₃]
    unfold StreamConnection.passed
    rw [hstage₃]
    rfl)
  have hin := (howed₃ row).mp (howed ▸ hrow)
  -- Nothing is ahead of the cursor, and nothing is left in the pipe.
  have hbound : row.key collate ≤ c₃.last.key collate := by
    rw [hlast]
    exact Keyset.lt_of_ahead_eq_zero hahead (hrows ▸ hin.1)
  have hpipe := (hwindow.mem_iff row).mpr ⟨hin.1, hin.2, hbound⟩
  rw [pipe_of_some hconn₃] at hpipe
  unfold StreamConnection.unreceived at hpipe
  rw [hempty, hstage₃] at hpipe
  rcases List.mem_append.mp hpipe with hreceived | hnone
  · exact hreceived
  · exact absurd hnone List.not_mem_nil

theorem Feed.exactlyOnce (hcollate : Function.Injective collate) (h : s.Feed collate) :
    s.ExactlyOnce collate := by
  have hpipe : s.pipe = s.received ++ (s.connection.map StreamConnection.unreceived).getD [] := rfl
  have hwindow : s.received = [] ∨ ∃ last lo, s.received.getLast? = some last ∧
      Keyset.Window (SignalDTO.key collate) s.rows lo (last.key collate) s.received ∧
        ∀ row, row ∈ s.owed ↔ row ∈ s.rows ∧ lo ≤ row.key collate := by
    cases hlast : s.received.getLast? with
    | none => exact .inl (List.getLast?_eq_none_iff.mp hlast)
    | some last =>
        obtain ⟨lo, hwindow, howed⟩ := h.drop.window last.cursor (by
          rw [passed_of_none rfl, hlast]
          rfl)
        rw [pipe_of_none rfl] at hwindow
        exact .inr ⟨last, lo, rfl, hwindow, howed⟩
  constructor
  · exact h.accepted
  · rcases hwindow with hnil | ⟨last, lo, -, hwindow, -⟩
    · rw [hnil]
      exact List.Pairwise.nil
    · exact hwindow.increasing.imp fun hlt => (before_iff collate).mpr hlt
  · intro row hrow
    rcases hwindow with hnil | ⟨last, lo, -, hwindow, howed⟩
    · rw [hnil] at hrow
      cases hrow
    · have hin := (hwindow.mem_iff row).mp hrow
      exact (howed row).mpr ⟨hin.1, hin.2.1⟩
  · intro last hlast row hrow hnot
    rcases hwindow with hnil | ⟨last', lo, hlast', hwindow, howed⟩
    · rw [hnil] at hlast
      cases hlast
    · obtain rfl : last' = last := Option.some.inj (hlast'.symm.trans hlast)
      have hin := (howed row).mp hrow
      rw [before_iff] at hnot
      exact (hwindow.mem_iff row).mpr ⟨hin.1, hin.2, not_lt.mp hnot⟩
  · intro c hconn hbegun
    exact h.caughtUp hcollate hconn hbegun

end Feed

end StreamState

open StreamState

/-- The event id of a row is read back exactly where a cursor can name the row; and in every run in
which rows are inserted after the cursor of what has been read for the client, and every event the
client echoes is one a cursor can name, it gets what it is owed exactly once and in order. -/
theorem stream_exactly_once {κ : Type*} [LinearOrder κ] (collate : String → κ)
    (hcollate : Function.Injective collate) (steps : List StreamStep)
    (hok : RunMeets (step collate) (InOrder collate) initial steps) :
    (∀ row, parseCursor (some (eventId row)) = some row.cursor ↔ row.Resumable) ∧
      (run (step collate) initial steps).ExactlyOnce collate := by
  constructor
  · exact parseCursor_eventId
  · exact (feed_initial.run hcollate hok).exactlyOnce hcollate

/-- A signal on BTC with the given id and time. -/
def signalRow (id : String) (createdAt : ℤ) : SignalDTO :=
  ⟨id, "BTC-PERP", "LONG", "LONG", "0.7000", "fh", "dh", "sv", "fs", createdAt, "BINANCE"⟩

/-- Two signals of one millisecond: the client receives the first, loses its connection and gets the
second over the next one. -/
theorem stream_exactly_once_reconnect :
    (run (step id) initial [.insert (signalRow "a1" 1000), .connect .header, .read, .send, .receive,
      .receive, .insert (signalRow "a2" 1000), .drop, .connect .query, .receive, .tick, .read,
      .send]).ExactlyOnce id :=
  (stream_exactly_once id Function.injective_id _ (by decide +kernel)).2

/-- A signal of the same millisecond with a smaller id is inserted after the client has received the
other one: no poll ever reads it. -/
theorem same_millisecond_skipped :
    let s := run (step id) initial [.insert (signalRow "b" 1000), .connect .header, .read, .send,
      .receive, .receive, .insert (signalRow "a" 1000)]
    signalRow "a" 1000 ∈ s.owed ∧ signalRow "a" 1000 ∉ (s.catchUp id).received ∧
      ¬s.ExactlyOnce id := by
  refine ⟨by decide +kernel, by decide +kernel, fun h => ?_⟩
  have hreceived := h.unskipped (signalRow "b" 1000) (by decide +kernel) (signalRow "a" 1000)
    (by decide +kernel) (by decide +kernel)
  revert hreceived
  decide +kernel

end NexusQuant.Web
