import NexusQuant.Ingestion.LiveSocket

/-!
# A live subscription keeps itself up

Until it is closed a subscription has either one socket that connects or is open, or one timer that will
make the next; never both, and never neither.  The last socket carries the invariant: all the others are
closed.
-/

namespace NexusQuant.Ingestion

open Run StreamState

/-! ## What is observed -/

/-- The sockets that have not closed. -/
def StreamState.live (s : StreamState) : List SocketPhase := s.sockets.filter (· ≠ .closed)

/-- What was sent on a socket. -/
def StreamState.sentOn (s : StreamState) (socket : ℕ) : List Rpc :=
  (s.sent.filter (·.socket = socket)).map (·.rpc)

/-- The disconnections since the last connection. -/
def failures (calls : List HandlerCall) : ℕ :=
  calls.foldl
    (fun n c =>
      match c with
      | .connected => 0
      | .disconnected _ => n + 1
      | _ => n) 0

/-- The delay before the attempt that follows `n` failures. -/
def backoffMs (n : ℕ) : ℕ := min (wsReconnectMinMs * 2 ^ n) wsReconnectMaxMs

def HandlerCall.isLink : HandlerCall → Bool
  | .connected => true
  | .disconnected _ => true
  | _ => false

/-! ## The invariant -/

variable {p : StreamProtocol} {s : StreamState} {old : List SocketPhase} {phase : SocketPhase}

/-- The last socket is `phase`, and the ones before it are closed. -/
structure StreamState.Upkeep (s : StreamState) (old : List SocketPhase) (phase : SocketPhase) : Prop where
  sockets : s.sockets = old ++ [phase]
  past : ∀ q ∈ old, q = .closed
  up : s.closed = false → s.ws = some old.length ∧ s.deaf = [] ∧
    (phase = .closed ∧ s.reconnectTimer.isSome ∨
      (phase = .connecting ∨ phase = .open) ∧ s.reconnectTimer = none)
  down : s.closed = true → s.ws = none ∧ s.reconnectTimer = none ∧
    (phase = .closed ∨ phase = .closing ∧ old.length ∈ s.deaf)

/-- The delay that is next, and the one that was last. -/
structure StreamState.Backoff (s : StreamState) : Prop where
  next : s.reconnectDelayMs = backoffMs (failures s.calls)
  armed : ∀ delay ∈ s.reconnectTimer, ∃ n, failures s.calls = n + 1 ∧ delay = backoffMs n

/-- Requests are numbered, and the subscription goes first on its socket. -/
structure StreamState.Subscribed (p : StreamProtocol) (s : StreamState) : Prop where
  ids : s.sent.map (·.id) = List.range' 1 s.sent.length
  next : s.rpcId = s.sent.length + 1
  first : ∀ socket, s.sentOn socket = [] ∨ p.onOpen <+: s.sentOn socket
  opened : ∀ socket, s.sockets[socket]? = some .open → p.onOpen <+: s.sentOn socket
  unused : ∀ socket, s.sockets[socket]? = some .connecting ∨ s.sockets[socket]? = none →
    s.sentOn socket = []

/-! ## Sockets -/

/-- A socket that has not closed is the last. -/
theorem StreamState.Upkeep.eq_last (h : s.Upkeep old phase) {socket : ℕ} {q : SocketPhase}
    (hq : s.sockets[socket]? = some q) (hopen : q ≠ .closed) : socket = old.length ∧ q = phase := by
  rw [h.sockets] at hq
  rcases Nat.lt_trichotomy socket old.length with hlt | heq | hgt
  · rw [List.getElem?_append_left hlt] at hq
    exact absurd (h.past q (List.mem_of_getElem? hq)) hopen
  · rw [heq, List.getElem?_concat_length] at hq
    exact ⟨heq, (Option.some.inj hq).symm⟩
  · rw [List.getElem?_eq_none (by simp; omega)] at hq
    cases hq

theorem set_last (old : List SocketPhase) (phase next : SocketPhase) :
    (old ++ [phase]).set old.length next = old ++ [next] := by
  simp

theorem StreamState.Upkeep.live_eq (h : s.Upkeep old phase) :
    s.live = if phase = .closed then [] else [phase] := by
  have hpast : old.filter (· ≠ .closed) = [] := by
    rw [List.filter_eq_nil_iff]
    intro q hq
    simp [h.past q hq]
  unfold live
  rw [h.sockets, List.filter_append, hpast, List.nil_append, List.filter_singleton]
  by_cases hphase : phase = .closed
  · simp [hphase]
  · simp [hphase]

/-! ## Frames -/

/-- The frames of some requests, from a number on. -/
def framesFrom (socket : ℕ) : ℕ → List Rpc → List Frame
  | _, [] => []
  | id, rpc :: rpcs => ⟨socket, id, rpc⟩ :: framesFrom socket (id + 1) rpcs

theorem send_of_open {socket : ℕ} (hws : s.ws = some socket) (hopen : s.sockets[socket]? = some .open)
    (rpc : Rpc) : s.send rpc =
      { s with sent := s.sent ++ framesFrom socket s.rpcId [rpc], rpcId := s.rpcId + 1 } := by
  unfold send
  rw [hws]
  dsimp only
  rw [if_pos hopen]
  rfl

theorem foldl_send_of_open {socket : ℕ} (hws : s.ws = some socket)
    (hopen : s.sockets[socket]? = some .open) (rpcs : List Rpc) :
    rpcs.foldl send s =
      { s with sent := s.sent ++ framesFrom socket s.rpcId rpcs, rpcId := s.rpcId + rpcs.length } := by
  induction rpcs generalizing s with
  | nil => simp [framesFrom]
  | cons rpc rpcs ih =>
      let next : StreamState :=
        { s with sent := s.sent ++ framesFrom socket s.rpcId [rpc], rpcId := s.rpcId + 1 }
      have hrest := ih (s := next) hws hopen
      rw [List.foldl_cons, send_of_open hws hopen, hrest]
      simp [next, framesFrom, Nat.add_comm, Nat.add_left_comm]

theorem framesFrom_ids (socket id : ℕ) (rpcs : List Rpc) :
    (framesFrom socket id rpcs).map (·.id) = List.range' id rpcs.length := by
  induction rpcs generalizing id with
  | nil => rfl
  | cons rpc rpcs ih => rw [framesFrom, List.map_cons, ih, List.length_cons, List.range'_succ]

theorem length_framesFrom (socket id : ℕ) (rpcs : List Rpc) :
    (framesFrom socket id rpcs).length = rpcs.length := by
  rw [← List.length_map (f := (·.id)), framesFrom_ids, List.length_range']

theorem framesFrom_on_self (socket id : ℕ) (rpcs : List Rpc) :
    ((framesFrom socket id rpcs).filter (·.socket = socket)).map (·.rpc) = rpcs := by
  induction rpcs generalizing id with
  | nil => rfl
  | cons rpc rpcs ih => simpa [framesFrom] using ih (id + 1)

theorem framesFrom_on_other {socket other : ℕ} (h : other ≠ socket) (id : ℕ) (rpcs : List Rpc) :
    ((framesFrom socket id rpcs).filter (·.socket = other)).map (·.rpc) = [] := by
  induction rpcs generalizing id with
  | nil => rfl
  | cons rpc rpcs ih => simpa [framesFrom, h.symm] using ih (id + 1)

/-! ## Steps -/

theorem upkeep_send (h : s.Upkeep old phase) (rpc : Rpc) : (s.send rpc).Upkeep old phase := by
  unfold send
  split
  · exact h
  · split
    · exact ⟨h.sockets, h.past, h.up, h.down⟩
    · exact h

theorem upkeep_foldl_send (h : s.Upkeep old phase) (rpcs : List Rpc) :
    (rpcs.foldl send s).Upkeep old phase := by
  induction rpcs generalizing s with
  | nil => exact h
  | cons rpc rpcs ih => exact ih (upkeep_send h rpc)

theorem upkeep_call (h : s.Upkeep old phase) (c : HandlerCall) : (s.call c).Upkeep old phase :=
  ⟨h.sockets, h.past, h.up, h.down⟩

theorem upkeep_onMessage (h : s.Upkeep old phase) (text : Option JsValue) :
    (s.onMessage p text).Upkeep old phase := by
  unfold onMessage
  split
  · exact h
  · exact upkeep_send h _
  · exact upkeep_call h _
  · exact upkeep_call h _
  · exact upkeep_call h _

theorem upkeep_opened (h : s.Upkeep old .connecting) :
    ((s.setPhase old.length .open).onOpen p).Upkeep old .open := by
  have hphase : (s.setPhase old.length .open).sockets = old ++ [.open] := by
    unfold setPhase
    rw [h.sockets]
    exact set_last old .connecting .open
  have hclosed : s.closed = false := by
    by_contra hdown
    simpa using (h.down (by simpa using hdown)).2.2
  have hready : StreamState.Upkeep { s.setPhase old.length .open with
      reconnectDelayMs := wsReconnectMinMs } old .open := by
    constructor
    · exact hphase
    · exact h.past
    · intro _
      obtain ⟨hws, hdeaf, hmode⟩ := h.up hclosed
      refine ⟨hws, hdeaf, .inr ⟨.inr rfl, ?_⟩⟩
      show s.reconnectTimer = none
      simpa using hmode
    · intro hdown
      exact absurd (hclosed.symm.trans hdown) (by decide)
  have hsent := upkeep_call (upkeep_foldl_send hready p.onOpen) .connected
  exact ⟨hsent.sockets, hsent.past, hsent.up, hsent.down⟩

/-- A socket that ends leaves a timer behind, unless the subscription was closed. -/
theorem upkeep_ended (h : s.Upkeep old phase) (hphase : phase ≠ .closed) (code : ℕ) :
    (streamStep p s (.ended old.length code)).Upkeep old .closed := by
  have hlast : s.sockets[old.length]? = some phase := by
    rw [h.sockets, List.getElem?_concat_length]
  have hsockets : (s.setPhase old.length .closed).sockets = old ++ [.closed] := by
    unfold setPhase
    rw [h.sockets]
    exact set_last old phase .closed
  unfold streamStep
  dsimp only
  rw [if_neg (by simp [hlast, hphase])]
  cases hclosed : s.closed with
  | true =>
      obtain ⟨hws, htimer, hmode⟩ := h.down hclosed
      have hdeaf : old.length ∈ s.deaf := (hmode.resolve_left hphase).2
      rw [if_pos (show old.length ∈ (s.setPhase old.length .closed).deaf from hdeaf)]
      refine ⟨hsockets, h.past, fun hup => ?_, fun _ => ⟨hws, htimer, .inl rfl⟩⟩
      exact absurd (hclosed.symm.trans hup) (by decide)
  | false =>
      obtain ⟨hws, hdeaf, -⟩ := h.up hclosed
      have hheard : old.length ∉ (s.setPhase old.length .closed).deaf := by
        show old.length ∉ s.deaf
        rw [hdeaf]
        exact List.not_mem_nil
      have hopen : ¬((s.setPhase old.length .closed).call (.disconnected code)).closed = true := by
        show ¬s.closed = true
        rw [hclosed]
        exact Bool.false_ne_true
      rw [if_neg hheard]
      unfold scheduleReconnect
      rw [if_neg hopen]
      refine ⟨hsockets, h.past, fun _ => ⟨hws, hdeaf, .inl ⟨rfl, rfl⟩⟩, fun hdown => ?_⟩
      exact absurd (hclosed.symm.trans hdown) (by decide)

theorem upkeep_close (h : s.Upkeep old phase) : ∃ phase', s.close.Upkeep old phase' := by
  cases hclosed : s.closed with
  | true =>
      obtain ⟨hws, htimer, hmode⟩ := h.down hclosed
      have hsame : s.close = { s with closed := true, reconnectTimer := none } := by
        unfold close
        dsimp only
        rw [hws]
      rw [hsame]
      exact ⟨phase, h.sockets, h.past, (fun hup => nomatch hup), fun _ => ⟨hws, rfl, hmode⟩⟩
  | false =>
      obtain ⟨hws, -, -⟩ := h.up hclosed
      have hlast : s.sockets[old.length]? = some phase := by
        rw [h.sockets, List.getElem?_concat_length]
      by_cases hphase : phase = .closed
      · subst hphase
        refine ⟨.closed, ?_, h.past, ?_, ?_⟩
        · simp [close, hws, closeSocket, h.sockets]
        · simp [close, hws, closeSocket, hlast]
        · simp [close, hws, closeSocket, hlast]
      · have hset : s.sockets.set old.length .closing = old ++ [.closing] := by
          rw [h.sockets]
          exact set_last old phase .closing
        refine ⟨.closing, ?_, h.past, ?_, ?_⟩
        · simp [close, hws, closeSocket, hlast, hphase, setPhase, hset]
        · simp [close, hws, closeSocket, hlast, hphase, setPhase]
        · simp [close, hws, closeSocket, hlast, hphase, setPhase]

theorem streamStep_upkeep (h : s.Upkeep old phase) (event : StreamEvent) :
    ∃ old' phase', (streamStep p s event).Upkeep old' phase' := by
  cases event with
  | opened socket =>
      unfold streamStep
      dsimp only
      split
      · rename_i hconnecting
        obtain ⟨rfl, rfl⟩ := h.eq_last hconnecting (by decide)
        exact ⟨old, .open, upkeep_opened h⟩
      · exact ⟨old, phase, h⟩
  | message socket text =>
      unfold streamStep
      dsimp only
      split
      · exact ⟨old, phase, upkeep_onMessage h text⟩
      · exact ⟨old, phase, h⟩
  | errored socket message =>
      unfold streamStep
      dsimp only
      split
      · exact ⟨old, phase, h⟩
      · exact ⟨old, phase, upkeep_call h _⟩
  | ended socket code =>
      cases hsocket : s.sockets[socket]? with
      | none =>
          have hidle : streamStep p s (.ended socket code) = s := by simp [streamStep, hsocket]
          rw [hidle]
          exact ⟨old, phase, h⟩
      | some q =>
          -- A socket that is not closed yet is the last one.
          by_cases hq : q = .closed
          · have hidle : streamStep p s (.ended socket code) = s := by simp [streamStep, hsocket, hq]
            rw [hidle]
            exact ⟨old, phase, h⟩
          · obtain ⟨rfl, rfl⟩ := h.eq_last hsocket hq
            exact ⟨old, .closed, upkeep_ended h hq code⟩
  | timer =>
      unfold streamStep
      dsimp only
      split
      · rename_i harmed
        -- An armed timer means that the last socket is gone, so the new one is the only live one.
        have hclosed : s.closed = false := by
          by_contra hdown
          rw [(h.down (by simpa using hdown)).2.1] at harmed
          cases harmed
        obtain ⟨-, hdeaf, hmode⟩ := h.up hclosed
        have hphase : phase = .closed := by
          rcases hmode with hwaiting | hrunning
          · exact hwaiting.1
          · rw [hrunning.2] at harmed
            cases harmed
        refine ⟨old ++ [phase], .connecting, ?_, ?_, ?_, ?_⟩
        · simp [connect, hclosed, h.sockets]
        · intro q hq
          rcases List.mem_append.mp hq with hold | hlast
          · exact h.past q hold
          · rw [List.mem_singleton.mp hlast, hphase]
        · intro _
          simp [connect, hclosed, h.sockets, hdeaf]
        · simp [connect, hclosed]
      · exact ⟨old, phase, h⟩
  | close =>
      unfold streamStep
      dsimp only
      split
      · obtain ⟨phase', hclosed⟩ := upkeep_close h
        exact ⟨old, phase', hclosed⟩
      · exact ⟨old, phase, h⟩

/-! ## Delays -/

theorem failures_concat (calls : List HandlerCall) (c : HandlerCall) :
    failures (calls ++ [c]) =
      match c with
      | .connected => 0
      | .disconnected _ => failures calls + 1
      | _ => failures calls := by
  unfold failures
  rw [List.foldl_append]
  rfl

theorem backoffMs_succ (n : ℕ) : backoffMs (n + 1) = min (backoffMs n * 2) wsReconnectMaxMs := by
  unfold backoffMs
  rw [pow_succ, ← Nat.mul_assoc]
  omega

theorem foldl_send_frame (rpcs : List Rpc) :
    (rpcs.foldl send s).calls = s.calls ∧ (rpcs.foldl send s).reconnectTimer = s.reconnectTimer ∧
      (rpcs.foldl send s).reconnectDelayMs = s.reconnectDelayMs := by
  induction rpcs generalizing s with
  | nil => exact ⟨rfl, rfl, rfl⟩
  | cons rpc rpcs ih =>
      have hsend : (s.send rpc).calls = s.calls ∧ (s.send rpc).reconnectTimer = s.reconnectTimer ∧
          (s.send rpc).reconnectDelayMs = s.reconnectDelayMs := by
        unfold send
        split
        · exact ⟨rfl, rfl, rfl⟩
        · split <;> exact ⟨rfl, rfl, rfl⟩
      obtain ⟨hcalls, htimer, hdelay⟩ := ih (s := s.send rpc)
      exact ⟨hcalls.trans hsend.1, htimer.trans hsend.2.1, hdelay.trans hsend.2.2⟩

/-- A call that is about no connection leaves the delays alone. -/
theorem backoff_call (h : s.Backoff) {c : HandlerCall} (hc : c.isLink = false) : (s.call c).Backoff := by
  have hsame : failures (s.call c).calls = failures s.calls := by
    show failures (s.calls ++ [c]) = _
    rw [failures_concat]
    cases c with
    | connected => cases hc
    | disconnected code => cases hc
    | data channel data => rfl
    | rpcError code message => rfl
    | error message => rfl
  constructor
  · rw [hsame]
    exact h.next
  · intro delay hdelay
    rw [hsame]
    exact h.armed delay hdelay

theorem backoff_onMessage (h : s.Backoff) (text : Option JsValue) : (s.onMessage p text).Backoff := by
  unfold onMessage
  split
  · exact h
  · rename_i rpc hreply
    obtain ⟨hcalls, htimer, hdelay⟩ := foldl_send_frame (s := s) [rpc]
    constructor
    · rw [show (s.send rpc).calls = s.calls from hcalls]
      exact hdelay.trans h.next
    · rw [show (s.send rpc).calls = s.calls from hcalls,
        show (s.send rpc).reconnectTimer = s.reconnectTimer from htimer]
      exact h.armed
  · exact backoff_call h rfl
  · exact backoff_call h rfl
  · exact backoff_call h rfl

theorem streamStep_backoff (hup : s.Upkeep old phase) (h : s.Backoff) (event : StreamEvent) :
    (streamStep p s event).Backoff := by
  cases event with
  | opened socket =>
      unfold streamStep
      dsimp only
      split
      · rename_i hconnecting
        obtain ⟨rfl, rfl⟩ := hup.eq_last hconnecting (by decide)
        have htimer : s.reconnectTimer = none := by
          cases hclosed : s.closed with
          | true => exact (hup.down hclosed).2.1
          | false => simpa using (hup.up hclosed).2.2
        obtain ⟨hcalls, hsame, hdelay⟩ := foldl_send_frame p.onOpen
          (s := { s.setPhase old.length .open with reconnectDelayMs := wsReconnectMinMs })
        -- `onOpen` reports the connection, from which failures are counted anew.
        have hzero : failures ((s.setPhase old.length .open).onOpen p).calls = 0 := by
          unfold onOpen call
          dsimp only
          rw [failures_concat]
        constructor
        · rw [hzero]
          exact hdelay
        · intro delay harmed
          have hnone : ((s.setPhase old.length .open).onOpen p).reconnectTimer = none :=
            hsame.trans htimer
          rw [hnone] at harmed
          cases harmed
      · exact h
  | message socket text =>
      unfold streamStep
      dsimp only
      split
      · exact backoff_onMessage h text
      · exact h
  | errored socket message =>
      unfold streamStep
      dsimp only
      split
      · exact h
      · exact backoff_call h rfl
  | ended socket code =>
      unfold streamStep
      dsimp only
      split
      · exact h
      · rename_i hopen
        split
        · exact ⟨h.next, h.armed⟩
        · rename_i hheard
          -- The socket of a closed subscription is deaf by now, and this one was heard.
          have hclosed : s.closed = false := by
            by_contra hdown
            obtain ⟨hnone, hlive⟩ := not_or.mp hopen
            obtain ⟨q, hq⟩ := Option.ne_none_iff_exists'.mp hnone
            obtain ⟨rfl, rfl⟩ := hup.eq_last hq fun heq => hlive (heq ▸ hq)
            rcases (hup.down (by simpa using hdown)).2.2 with hphase | hclosing
            · exact hlive (hphase ▸ hq)
            · exact hheard hclosing.2
          have hup : ¬((s.setPhase socket .closed).call (.disconnected code)).closed = true := by
            show ¬s.closed = true
            simp [hclosed]
          unfold scheduleReconnect
          rw [if_neg hup]
          have hcount : failures (s.calls ++ [.disconnected code]) = failures s.calls + 1 := by
            rw [failures_concat]
          constructor
          · show min (s.reconnectDelayMs * 2) wsReconnectMaxMs =
              backoffMs (failures (s.calls ++ [.disconnected code]))
            rw [hcount, backoffMs_succ, h.next]
          · intro delay hdelay
            have hdelay : s.reconnectDelayMs = delay := Option.some.inj hdelay
            exact ⟨failures s.calls, hcount, hdelay.symm.trans h.next⟩
  | timer =>
      unfold streamStep
      dsimp only
      split
      · unfold connect
        split
        · exact ⟨h.next, fun delay hdelay => nomatch hdelay⟩
        · exact ⟨h.next, fun delay hdelay => nomatch hdelay⟩
      · exact h
  | close =>
      unfold streamStep
      dsimp only
      split
      · unfold close
        dsimp only
        split
        · exact ⟨h.next, fun delay hdelay => nomatch hdelay⟩
        · unfold closeSocket
          split
          · exact ⟨h.next, fun delay hdelay => nomatch hdelay⟩
          · exact ⟨h.next, fun delay hdelay => nomatch hdelay⟩
      · exact h

/-! ## Subscriptions -/

theorem sentOn_append {socket id : ℕ} (rpcs : List Rpc) {s' : StreamState}
    (h : s'.sent = s.sent ++ framesFrom socket id rpcs) (other : ℕ) :
    s'.sentOn other = s.sentOn other ++ (if other = socket then rpcs else []) := by
  unfold sentOn
  rw [h, List.filter_append, List.map_append]
  split
  · rename_i heq
    rw [heq, framesFrom_on_self]
  · rename_i hne
    rw [framesFrom_on_other hne]

/-- What is sent depends on the phases of the sockets only as far as they connect or are open. -/
theorem subscribed_frame (h : s.Subscribed p) {s' : StreamState} (hsent : s'.sent = s.sent)
    (hid : s'.rpcId = s.rpcId)
    (hopen : ∀ socket : ℕ, s'.sockets[socket]? = some .open → s.sockets[socket]? = some .open)
    (hunused : ∀ socket : ℕ, s'.sockets[socket]? = some .connecting ∨ s'.sockets[socket]? = none →
      s.sockets[socket]? = some .connecting ∨ s.sockets[socket]? = none) : s'.Subscribed p := by
  have hon : ∀ socket, s'.sentOn socket = s.sentOn socket := by
    intro socket
    unfold sentOn
    rw [hsent]
  constructor
  · rw [hsent]
    exact h.ids
  · rw [hsent, hid]
    exact h.next
  · intro socket
    rw [hon]
    exact h.first socket
  · intro socket hsocket
    rw [hon]
    exact h.opened socket (hopen socket hsocket)
  · intro socket hsocket
    rw [hon]
    exact h.unused socket (hunused socket hsocket)

/-- A phase after connecting is no occasion to send. -/
theorem subscribed_setPhase (h : s.Subscribed p) (socket : ℕ) {phase : SocketPhase}
    (hphase : phase = .closing ∨ phase = .closed) : (s.setPhase socket phase).Subscribed p := by
  have hset : ∀ other, (s.setPhase socket phase).sockets[other]? =
      if socket = other then (s.sockets[other]?).map fun _ => phase else s.sockets[other]? := by
    intro other
    unfold setPhase
    rw [List.getElem?_set']
    split
    · rfl
    · rfl
  refine @subscribed_frame p s h (s.setPhase socket phase) rfl rfl ?_ ?_
  · intro other hother
    rw [hset] at hother
    split at hother
    · cases hold : s.sockets[other]? with
      | none =>
          rw [hold] at hother
          cases hother
      | some q =>
          rw [hold] at hother
          rcases hphase with rfl | rfl
          · cases hother
          · cases hother
    · exact hother
  · intro other hother
    rw [hset] at hother
    split at hother
    · cases hold : s.sockets[other]? with
      | none => exact .inr rfl
      | some q =>
          rw [hold] at hother
          rcases hphase with rfl | rfl
          · simp at hother
          · simp at hother
    · exact hother

theorem subscribed_send (h : s.Subscribed p) (rpc : Rpc) : (s.send rpc).Subscribed p := by
  cases hws : s.ws with
  | none =>
      have hidle : s.send rpc = s := by
        unfold send
        rw [hws]
      rw [hidle]
      exact h
  | some socket =>
      by_cases hopen : s.sockets[socket]? = some .open
      · rw [send_of_open hws hopen]
        have hon : ∀ other, StreamState.sentOn
            { s with sent := s.sent ++ framesFrom socket s.rpcId [rpc], rpcId := s.rpcId + 1 } other =
              s.sentOn other ++ (if other = socket then [rpc] else []) := sentOn_append [rpc] rfl
        have hkept : ∀ other, p.onOpen <+: s.sentOn other → p.onOpen <+: StreamState.sentOn
            { s with sent := s.sent ++ framesFrom socket s.rpcId [rpc], rpcId := s.rpcId + 1 } other := by
          intro other hother
          rw [hon]
          exact hother.trans (List.prefix_append _ _)
        constructor
        · simp only [List.map_append, h.ids, framesFrom_ids, List.length_append, length_framesFrom,
            List.length_singleton, h.next, List.range'_append_1, Nat.add_comm s.sent.length 1]
        · simp [length_framesFrom, h.next]
        · intro other
          rcases h.first other with hnone | hstarted
          · by_cases heq : other = socket
            · subst heq
              exact .inr (hkept other (h.opened other hopen))
            · left
              rw [hon, if_neg heq, hnone]
              rfl
          · exact .inr (hkept other hstarted)
        · exact fun other hother => hkept other (h.opened other hother)
        · intro other hother
          have hne : other ≠ socket := by
            rintro rfl
            rcases hother with hconnecting | hnone
            · rw [show s.sockets[other]? = some .connecting from hconnecting] at hopen
              cases hopen
            · rw [show s.sockets[other]? = none from hnone] at hopen
              cases hopen
          rw [hon, if_neg hne, h.unused other hother]
          rfl
      · have hidle : s.send rpc = s := by
          unfold send
          rw [hws]
          dsimp only
          rw [if_neg hopen]
        rw [hidle]
        exact h

/-- A socket that opens is subscribed on before anything else. -/
theorem subscribed_opened (hup : s.Upkeep old .connecting) (h : s.Subscribed p) :
    ((s.setPhase old.length .open).onOpen p).Subscribed p := by
  have hws : s.ws = some old.length := by
    cases hclosed : s.closed with
    | true => simpa using (hup.down hclosed).2.2
    | false => exact (hup.up hclosed).1
  have hsockets : (s.setPhase old.length .open).sockets = old ++ [.open] := by
    unfold setPhase
    rw [hup.sockets]
    exact set_last old .connecting .open
  have hopen : (s.setPhase old.length .open).sockets[old.length]? = some .open := by
    rw [hsockets, List.getElem?_concat_length]
  have hnew : s.sentOn old.length = [] := by
    apply h.unused
    rw [hup.sockets, List.getElem?_concat_length]
    exact .inl rfl
  have hsends := foldl_send_of_open
    (s := { s.setPhase old.length .open with reconnectDelayMs := wsReconnectMinMs }) hws hopen p.onOpen
  have hsent : ((s.setPhase old.length .open).onOpen p).sent =
      s.sent ++ framesFrom old.length s.rpcId p.onOpen := congrArg StreamState.sent hsends
  have hid : ((s.setPhase old.length .open).onOpen p).rpcId = s.rpcId + p.onOpen.length :=
    congrArg StreamState.rpcId hsends
  have hphases : ((s.setPhase old.length .open).onOpen p).sockets = old ++ [.open] :=
    (congrArg StreamState.sockets hsends).trans hsockets
  have hon := sentOn_append p.onOpen hsent
  constructor
  · rw [hsent, List.map_append, h.ids, framesFrom_ids, List.length_append, length_framesFrom, h.next,
      Nat.add_comm s.sent.length 1, List.range'_append_1]
  · rw [hsent, hid, h.next, List.length_append, length_framesFrom]
    omega
  · intro socket
    rw [hon]
    split
    · rename_i heq
      right
      rw [heq, hnew]
      exact List.prefix_refl _
    · rw [List.append_nil]
      exact h.first socket
  · intro socket hsocket
    rw [hphases] at hsocket
    rw [hon]
    by_cases heq : socket = old.length
    · rw [if_pos heq, heq, hnew]
      exact List.prefix_refl _
    · have hlt : socket < old.length := by
        have hbound := (List.getElem?_eq_some_iff.mp hsocket).1
        rw [List.length_append, List.length_singleton] at hbound
        omega
      rw [List.getElem?_append_left hlt] at hsocket
      exact absurd (hup.past _ (List.mem_of_getElem? hsocket)) (by decide)
  · intro socket hsocket
    have hne : socket ≠ old.length := by
      rintro rfl
      rw [hphases, List.getElem?_concat_length] at hsocket
      simp at hsocket
    rw [hon, if_neg hne, List.append_nil]
    apply h.unused
    rw [hphases] at hsocket
    rw [hup.sockets]
    by_cases hlt : socket < old.length
    · rwa [List.getElem?_append_left hlt] at hsocket ⊢
    · right
      rw [List.getElem?_eq_none (by simp; omega)]

theorem streamStep_subscribed (hup : s.Upkeep old phase) (h : s.Subscribed p) (event : StreamEvent) :
    (streamStep p s event).Subscribed p := by
  cases event with
  | opened socket =>
      unfold streamStep
      dsimp only
      split
      · rename_i hconnecting
        obtain ⟨rfl, rfl⟩ := hup.eq_last hconnecting (by decide)
        exact subscribed_opened hup h
      · exact h
  | message socket text =>
      unfold streamStep
      dsimp only
      split
      · unfold onMessage
        split
        · exact h
        · exact subscribed_send h _
        · exact ⟨h.ids, h.next, h.first, h.opened, h.unused⟩
        · exact ⟨h.ids, h.next, h.first, h.opened, h.unused⟩
        · exact ⟨h.ids, h.next, h.first, h.opened, h.unused⟩
      · exact h
  | errored socket message =>
      unfold streamStep
      dsimp only
      split
      · exact h
      · exact ⟨h.ids, h.next, h.first, h.opened, h.unused⟩
  | ended socket code =>
      have hended := subscribed_setPhase h socket (.inr (rfl : SocketPhase.closed = .closed))
      unfold streamStep
      dsimp only
      split
      · exact h
      · split
        · exact hended
        · unfold scheduleReconnect
          split
          · exact ⟨hended.ids, hended.next, hended.first, hended.opened, hended.unused⟩
          · exact ⟨hended.ids, hended.next, hended.first, hended.opened, hended.unused⟩
  | timer =>
      unfold streamStep
      dsimp only
      split
      · unfold connect
        split
        · exact ⟨h.ids, h.next, h.first, h.opened, h.unused⟩
        · -- The new socket is connecting, so it owes nothing yet.
          refine @subscribed_frame p s h _ rfl rfl ?_ ?_
          · intro socket hsocket
            rcases Nat.lt_or_ge socket s.sockets.length with hlt | hge
            · simpa [List.getElem?_append_left hlt] using hsocket
            · simp [List.getElem?_append_right hge, List.getElem?_singleton] at hsocket
          · intro socket hsocket
            rcases Nat.lt_or_ge socket s.sockets.length with hlt | hge
            · simpa [List.getElem?_append_left hlt] using hsocket
            · exact .inr (List.getElem?_eq_none hge)
      · exact h
  | close =>
      unfold streamStep
      dsimp only
      split
      · unfold close
        dsimp only
        split
        · exact ⟨h.ids, h.next, h.first, h.opened, h.unused⟩
        · rename_i socket hws
          unfold closeSocket
          split
          · exact ⟨h.ids, h.next, h.first, h.opened, h.unused⟩
          · have hclosing := subscribed_setPhase h socket (.inl (rfl : SocketPhase.closing = .closing))
            exact ⟨hclosing.ids, hclosing.next, hclosing.first, hclosing.opened, hclosing.unused⟩
      · exact h

/-! ## Runs -/

/-- What holds of a subscription at all times. -/
structure StreamState.Sound (p : StreamProtocol) (s : StreamState) : Prop where
  upkeep : ∃ old phase, s.Upkeep old phase
  backoff : s.Backoff
  subscribed : s.Subscribed p

theorem initial_sound : StreamState.initial.Sound p where
  upkeep := by
    refine ⟨[], .connecting, rfl, ?_, ?_, ?_⟩
    · intro q hq
      cases hq
    · exact fun _ => ⟨rfl, rfl, .inr ⟨.inl rfl, rfl⟩⟩
    · intro hdown
      cases hdown
  backoff := ⟨rfl, fun delay hdelay => nomatch hdelay⟩
  subscribed := by
    constructor
    · rfl
    · rfl
    · exact fun _ => .inl rfl
    · intro socket hsocket
      cases socket with
      | zero => cases hsocket
      | succ n => cases hsocket
    · exact fun _ _ => rfl

theorem streamStep_sound (h : s.Sound p) (event : StreamEvent) : (streamStep p s event).Sound p := by
  obtain ⟨old, phase, hup⟩ := h.upkeep
  exact ⟨streamStep_upkeep hup event, streamStep_backoff hup h.backoff event,
    streamStep_subscribed hup h.subscribed event⟩

theorem run_stream_sound (events : List StreamEvent) :
    (run (streamStep p) .initial events).Sound p := by
  have hstep : ∀ (s : StreamState) (event : StreamEvent), s.Sound p → (streamStep p s event).Sound p :=
    fun _ event h => streamStep_sound h event
  exact run_keeps hstep initial_sound events

/-- Whatever happens to its sockets, a subscription that is not closed has exactly one of a live socket
and an armed timer; the timer is armed with a delay that doubles from one failure to the next up to a
minute; and every socket that opens is subscribed on before anything else is sent on it, under request
numbers that never repeat. -/
theorem subscription_keeps_up (p : StreamProtocol) (events : List StreamEvent) :
    ((run (streamStep p) .initial events).closed = false →
      (run (streamStep p) .initial events).live.length +
        (run (streamStep p) .initial events).reconnectTimer.toList.length = 1) ∧
    (run (streamStep p) .initial events).live.length ≤ 1 ∧
    (∀ delay ∈ (run (streamStep p) .initial events).reconnectTimer,
      ∃ n, failures (run (streamStep p) .initial events).calls = n + 1 ∧ delay = backoffMs n) ∧
    (run (streamStep p) .initial events).Subscribed p := by
  have hsound := run_stream_sound (p := p) events
  obtain ⟨old, phase, hup⟩ := hsound.upkeep
  refine ⟨?_, ?_, hsound.backoff.armed, hsound.subscribed⟩
  · intro hclosed
    rw [hup.live_eq]
    rcases (hup.up hclosed).2.2 with ⟨hphase, htimer⟩ | ⟨hphase, htimer⟩
    · obtain ⟨delay, hdelay⟩ := Option.isSome_iff_exists.mp htimer
      rw [if_pos hphase, hdelay]
      rfl
    · rw [htimer]
      rcases hphase with rfl | rfl
      · rfl
      · rfl
  · rw [hup.live_eq]
    split
    · exact Nat.zero_le 1
    · exact Nat.le_refl 1

/-- Nothing the client could notice of a closed subscription but messages and errors still on their
way. -/
structure StreamState.SilentSince (before after : StreamState) : Prop where
  closed : after.closed = true
  sockets : after.sockets.length = before.sockets.length
  timer : after.reconnectTimer = none
  sent : after.sent = before.sent
  links : after.calls.filter (·.isLink) = before.calls.filter (·.isLink)

theorem streamStep_silent (h : s.Upkeep old phase) (hclosed : s.closed = true) (event : StreamEvent) :
    s.SilentSince (streamStep p s event) := by
  obtain ⟨hws, htimer, hphase⟩ := h.down hclosed
  have hsame : s.SilentSince s := ⟨hclosed, rfl, htimer, rfl, rfl⟩
  have hcall : ∀ c : HandlerCall, c.isLink = false → s.SilentSince (s.call c) := by
    intro c hc
    refine ⟨hclosed, rfl, htimer, rfl, ?_⟩
    show (s.calls ++ [c]).filter (·.isLink) = _
    simp [List.filter_append, hc]
  cases event with
  | opened socket =>
      have hidle : streamStep p s (.opened socket) = s := by
        unfold streamStep
        dsimp only
        -- Closing left no socket that could still open.
        rw [if_neg]
        intro hconnecting
        obtain ⟨rfl, rfl⟩ := h.eq_last hconnecting (by decide)
        simp at hphase
      rw [hidle]
      exact hsame
  | message socket text =>
      unfold streamStep
      dsimp only
      split
      · unfold onMessage
        split
        · exact hsame
        · unfold send
          rw [hws]
          exact hsame
        · exact hcall _ rfl
        · exact hcall _ rfl
        · exact hcall _ rfl
      · exact hsame
  | errored socket message =>
      unfold streamStep
      dsimp only
      split
      · exact hsame
      · exact hcall _ rfl
  | ended socket code =>
      unfold streamStep
      dsimp only
      split
      · exact hsame
      · rename_i hopen
        obtain ⟨hnone, hlive⟩ := not_or.mp hopen
        obtain ⟨q, hq⟩ := Option.ne_none_iff_exists'.mp hnone
        obtain ⟨rfl, rfl⟩ := h.eq_last hq fun heq => hlive (heq ▸ hq)
        have hdeaf : old.length ∈ (s.setPhase old.length .closed).deaf :=
          (hphase.resolve_left fun heq => hlive (heq ▸ hq)).2
        rw [if_pos hdeaf]
        exact ⟨hclosed, List.length_set .., htimer, rfl, rfl⟩
  | timer =>
      unfold streamStep
      dsimp only
      rw [htimer]
      exact hsame
  | close =>
      unfold streamStep
      dsimp only
      split
      · unfold close
        dsimp only
        rw [hws]
        exact ⟨rfl, rfl, rfl, rfl, rfl⟩
      · exact hsame

/-- Once it is closed a subscription makes no socket, arms no timer, sends nothing and reports no
connection, whatever its last socket still does. -/
theorem closed_subscription_is_silent (p : StreamProtocol) (events later : List StreamEvent)
    (hclosed : (run (streamStep p) .initial events).closed = true) :
    (run (streamStep p) .initial events).SilentSince (run (streamStep p) .initial (events ++ later)) := by
  induction later using List.reverseRecOn with
  | nil =>
      obtain ⟨old, phase, hup⟩ := (run_stream_sound (p := p) events).upkeep
      rw [List.append_nil]
      exact ⟨hclosed, rfl, (hup.down hclosed).2.1, rfl, rfl⟩
  | append_singleton later event ih =>
      obtain ⟨old, phase, hup⟩ := (run_stream_sound (p := p) (events ++ later)).upkeep
      have hstep := streamStep_silent (p := p) hup ih.closed event
      rw [← List.append_assoc, run_append]
      exact ⟨hstep.closed, hstep.sockets.trans ih.sockets, hstep.timer, hstep.sent.trans ih.sent,
        hstep.links.trans ih.links⟩

/-- The client closes the subscription while its second socket is connecting. -/
def sampleStreamEvents : List StreamEvent :=
  [.opened 0, .ended 0 1006, .timer, .close]

theorem closed_subscription_is_silent_sample :
    (run (streamStep Binance.protocol) .initial sampleStreamEvents).SilentSince
      (run (streamStep Binance.protocol) .initial
        (sampleStreamEvents ++ [.opened 1, .ended 1 1006, .timer])) :=
  closed_subscription_is_silent Binance.protocol sampleStreamEvents [.opened 1, .ended 1 1006, .timer]
    (by decide)

end NexusQuant.Ingestion
