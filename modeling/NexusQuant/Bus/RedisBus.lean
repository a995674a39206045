import NexusQuant.Bus.Admission
import NexusQuant.Lib.JsonWriter
import NexusQuant.Lib.LiveLoop
import NexusQuant.Lib.Run
import NexusQuant.Lib.Slots

/-!
# The broadcast bus

`services/workers/src/bus/redis-bus.ts`: every process has a subscriber connection of its own, on which
Redis sends it what anyone publishes on the channel, at most once and without a promise.  A message is
parsed and admitted before any handler sees it, and a dispatch awaits one handler after the other while
messages, handlers and other dispatches come and go.
-/

namespace NexusQuant.Bus

open Pipeline Run Signal

/-- A message as it was published, by whatever client. -/
structure ChannelMessage where
  id : ℕ
  channel : String
  text : String
deriving DecidableEq, Repr

/-- A dispatch between two rounds of its loop over the handlers. -/
structure Dispatch (H : Type*) where
  message : ChannelMessage
  event : JsValue
  loop : LiveMap.Loop H

/-- The reasons of `onReject`; the text of the syntax error is the engine's. -/
inductive Rejection where
  | notJson
  | refused (detail : String)
deriving DecidableEq, Repr

/-- What has become of a message that was sent to a connection. -/
inductive MessageFate (H : Type*) where
  /-- The connection was lost before the listener had it. -/
  | lost (message : ChannelMessage)
  /-- The listener ignores what came on another channel. -/
  | foreign (message : ChannelMessage)
  | rejected (message : ChannelMessage) (reason : Rejection)
  /-- The loop over the handlers has ended. -/
  | dispatched (d : Dispatch H)
  /-- `onError` threw, or the process went away. -/
  | aborted (d : Dispatch H)

structure RedisChannelBus where
  channel : String
  /-- The `admit` codec of the options. -/
  codec : Option (JsValue → Except String JsValue)
  /-- Whether `onError` throws, as it does by default. -/
  onErrorThrows : Bool := true

def RedisChannelBus.admitted (bus : RedisChannelBus) (v : JsValue) : Except String JsValue :=
  match bus.codec with
  | none => .ok v
  | some codec => codec v

/-- One process with its bus, and what Redis has sent to its connection. -/
structure BusProcess (H : Type*) where
  handlers : LiveMap H Unit
  /-- `this.subscriber !== null`. -/
  subscriber : Bool
  sent : List ChannelMessage
  /-- What the listener has not been called with. -/
  inbox : List ChannelMessage
  /-- The dispatches, with the handler each of them awaits. -/
  awaiting : List (H × Dispatch H)
  fates : List (MessageFate H)

structure RedisState (H : Type*) where
  published : List ChannelMessage
  process : ℕ → BusProcess H

variable {H : Type*}

def BusProcess.initial : BusProcess H := ⟨.empty, false, [], [], [], []⟩

def RedisState.initial : RedisState H := ⟨[], fun _ => .initial⟩

inductive BusEvent (H : Type*) where
  | subscribe (handler : H)
  | unsubscribe (handler : H)
  /-- The listener is called with the next message. -/
  | receive
  /-- A message that Redis has sent does not arrive. -/
  | lose (i : ℕ)
  /-- The handler a dispatch awaits returns. -/
  | returned (i : ℕ)
  | threw (i : ℕ)
  /-- The process goes away, as it does when a throw of `onError` is handled by no one. -/
  | crash
deriving DecidableEq, Repr

inductive RedisEvent (H : Type*) where
  /-- A client publishes a text, and Redis sends it to the connections in `reached` that subscribe. -/
  | publish (channel text : String) (reached : List ℕ)
  | process (p : ℕ) (e : BusEvent H)
deriving DecidableEq, Repr

/-! ## One process -/

def Dispatch.forget [DecidableEq H] (handler : H) (d : Dispatch H) : Dispatch H :=
  { d with loop := d.loop.forget handler }

/-- The next round of the loop over the handlers: the handler is called, and awaited. -/
def BusProcess.visit (s : BusProcess H) (d : Dispatch H) : BusProcess H :=
  match s.handlers.nextCell d.loop.pos with
  | some c => { s with awaiting := s.awaiting ++ [(c.key, { d with loop := d.loop.visit c })] }
  | none => { s with fates := s.fates ++ [.dispatched d] }

/-- The listener of the subscriber connection. -/
def RedisChannelBus.onMessage (bus : RedisChannelBus) (s : BusProcess H) (m : ChannelMessage) :
    BusProcess H :=
  if m.channel ≠ bus.channel then { s with fates := s.fates ++ [.foreign m] }
  else match JsonText.parse m.text with
    | none => { s with fates := s.fates ++ [.rejected m .notJson] }
    | some parsed =>
        match bus.admitted parsed with
        | .error detail => { s with fates := s.fates ++ [.rejected m (.refused detail)] }
        | .ok event => s.visit ⟨m, event, .start s.handlers⟩

def RedisChannelBus.stepProcess [DecidableEq H] (bus : RedisChannelBus) (s : BusProcess H) :
    BusEvent H → BusProcess H
  | .subscribe handler => { s with subscriber := true, handlers := s.handlers.set handler () }
  | .unsubscribe handler => { s with
      handlers := s.handlers.erase handler
      awaiting := s.awaiting.map fun a => (a.1, a.2.forget handler) }
  | .receive =>
      match s.inbox with
      | [] => s
      | m :: inbox => bus.onMessage { s with inbox } m
  | .lose i =>
      match s.inbox[i]? with
      | none => s
      | some m => { s with inbox := s.inbox.eraseIdx i, fates := s.fates ++ [.lost m] }
  | .returned i =>
      match s.awaiting[i]? with
      | none => s
      | some a => BusProcess.visit { s with awaiting := s.awaiting.eraseIdx i } a.2
  | .threw i =>
      match s.awaiting[i]? with
      | none => s
      | some a =>
          if bus.onErrorThrows then { s with
            awaiting := s.awaiting.eraseIdx i
            fates := s.fates ++ [.aborted a.2] }
          else BusProcess.visit { s with awaiting := s.awaiting.eraseIdx i } a.2
  | .crash => { s with
      handlers := s.handlers.clear
      subscriber := false
      inbox := []
      awaiting := []
      fates := s.fates ++ s.inbox.map .lost ++ s.awaiting.map fun a => .aborted a.2 }

/-! ## The broadcast -/

/-- Redis sends a message to the connections that subscribe to its channel. -/
def BusProcess.send (channel : String) (m : ChannelMessage) (s : BusProcess H) : BusProcess H :=
  if s.subscriber ∧ m.channel = channel then { s with sent := s.sent ++ [m], inbox := s.inbox ++ [m] }
  else s

def RedisChannelBus.step [DecidableEq H] (bus : RedisChannelBus) (s : RedisState H) :
    RedisEvent H → RedisState H
  | .publish channel text reached =>
      let m : ChannelMessage := ⟨s.published.length, channel, text⟩
      { published := s.published ++ [m]
        process := fun p => if p ∈ reached then (s.process p).send bus.channel m else s.process p }
  | .process p e =>
      { s with process := fun q => if q = p then bus.stepProcess (s.process p) e else s.process q }

/-- `publish` of an event: its JSON text, over the way numbers are written. -/
def RedisChannelBus.publishEvent (bus : RedisChannelBus) (numText : ℚ → List Char) (event : JsValue)
    (reached : List ℕ) : RedisEvent H :=
  .publish bus.channel (String.ofList (JsonText.jsonText numText event)) reached

/-! ## Every message has one fate -/

def MessageFate.message : MessageFate H → ChannelMessage
  | .lost m | .foreign m | .rejected m _ => m
  | .dispatched d | .aborted d => d.message

/-- The messages that were sent to a process, by what has become of them. -/
def BusProcess.accounted (s : BusProcess H) : List ChannelMessage :=
  s.inbox ++ s.awaiting.map (fun a => a.2.message) ++ s.fates.map MessageFate.message

section Accounted

variable {bus : RedisChannelBus} {s : BusProcess H}

theorem accounted_settle (s : BusProcess H) (f : MessageFate H) :
    ({ s with fates := s.fates ++ [f] } : BusProcess H).accounted.Perm (f.message :: s.accounted) := by
  show (_ ++ (s.fates ++ [f]).map MessageFate.message).Perm _
  rw [List.map_append, List.map_singleton, ← List.append_assoc]
  exact List.perm_append_singleton _ _

theorem accounted_visit (s : BusProcess H) (d : Dispatch H) :
    (s.visit d).accounted.Perm (d.message :: s.accounted) := by
  unfold BusProcess.visit
  split
  · show (s.inbox ++ (s.awaiting ++ [_]).map _ ++ _).Perm _
    rw [List.map_append, List.map_singleton, ← List.append_assoc, List.append_assoc,
      List.singleton_append]
    exact List.perm_middle
  · exact accounted_settle s (.dispatched d)

theorem accounted_onMessage (bus : RedisChannelBus) (s : BusProcess H) (m : ChannelMessage) :
    (bus.onMessage s m).accounted.Perm (m :: s.accounted) := by
  unfold RedisChannelBus.onMessage
  split
  · exact accounted_settle s (.foreign m)
  · split
    · exact accounted_settle s (.rejected m .notJson)
    · split
      · exact accounted_settle s (.rejected m _)
      · exact accounted_visit s _

theorem accounted_receive {m : ChannelMessage} {inbox : List ChannelMessage} (h : s.inbox = m :: inbox) :
    s.accounted = m :: ({ s with inbox } : BusProcess H).accounted := by
  unfold BusProcess.accounted
  rw [h]
  rfl

theorem accounted_take {i : ℕ} {a : H × Dispatch H} (h : s.awaiting[i]? = some a) :
    (a.2.message :: ({ s with awaiting := s.awaiting.eraseIdx i } : BusProcess H).accounted).Perm
      s.accounted := by
  have hperm := (Slots.perm_cons_eraseIdx h).map fun a => a.2.message
  rw [List.map_cons] at hperm
  show (a.2.message :: (s.inbox ++ _ ++ _)).Perm (s.inbox ++ _ ++ _)
  rw [List.append_assoc, List.append_assoc]
  exact List.perm_middle.symm.trans ((hperm.append_right _).append_left _)

/-- A step settles messages, and neither takes one away nor makes one up. -/
theorem accounted_step [DecidableEq H] (bus : RedisChannelBus) (s : BusProcess H) (e : BusEvent H) :
    (bus.stepProcess s e).accounted.Perm s.accounted := by
  unfold RedisChannelBus.stepProcess
  cases e with
  | subscribe handler => exact .refl _
  | unsubscribe handler =>
      show (s.inbox ++ (s.awaiting.map _).map _ ++ _).Perm _
      rw [List.map_map]
      exact .refl _
  | receive =>
      dsimp only
      split
      · exact .refl _
      · rename_i m inbox hinbox
        rw [accounted_receive hinbox]
        exact accounted_onMessage bus _ m
  | lose i =>
      dsimp only
      split
      · exact .refl _
      · rename_i m hm
        have hperm := Slots.perm_cons_eraseIdx hm
        refine (accounted_settle { s with inbox := s.inbox.eraseIdx i } (.lost m)).trans ?_
        exact (hperm.append_right _).append_right _
  | returned i =>
      dsimp only
      split
      · exact .refl _
      · rename_i a ha
        exact (accounted_visit _ a.2).trans (accounted_take ha)
  | threw i =>
      dsimp only
      split
      · exact .refl _
      · rename_i a ha
        split
        · exact (accounted_settle { s with awaiting := s.awaiting.eraseIdx i } (.aborted a.2)).trans
            (accounted_take ha)
        · exact (accounted_visit _ a.2).trans (accounted_take ha)
  | crash =>
      show (List.map MessageFate.message (s.fates ++ s.inbox.map .lost ++ s.awaiting.map _)).Perm _
      rw [List.map_append, List.map_append, List.map_map, List.map_map]
      have hinbox : s.inbox.map (MessageFate.message ∘ MessageFate.lost (H := H)) = s.inbox :=
        List.map_id' _
      rw [hinbox, List.append_assoc]
      exact List.perm_append_comm

end Accounted

/-! ## What a handler is called with -/

/-- A dispatch is of an admitted message of the channel, and no registration is called twice. -/
structure DispatchSound (bus : RedisChannelBus) (d : Dispatch H) : Prop where
  channel : d.message.channel = bus.channel
  admitted : ∃ parsed, JsonText.parse d.message.text = some parsed ∧ bus.admitted parsed = .ok d.event
  once : (d.loop.visited.map Prod.fst).Nodup

/-- What the fate of a message says about it. -/
def MessageFate.Sound [DecidableEq H] (bus : RedisChannelBus) : MessageFate H → Prop
  | .lost _ => True
  | .foreign _ => False
  | .rejected m .notJson => JsonText.parse m.text = none
  | .rejected m (.refused detail) =>
      ∃ parsed, JsonText.parse m.text = some parsed ∧ bus.admitted parsed = .error detail
  | .dispatched d => DispatchSound bus d ∧
      ∀ h ∈ d.loop.throughout, (d.loop.visited.map Prod.snd).count h = 1
  | .aborted d => DispatchSound bus d

structure ProcessSound [DecidableEq H] (bus : RedisChannelBus) (s : BusProcess H) : Prop where
  inbox : ∀ m ∈ s.inbox, m.channel = bus.channel
  awaiting : ∀ a ∈ s.awaiting, DispatchSound bus a.2 ∧ a.2.loop.Sound s.handlers
  fates : ∀ f ∈ s.fates, f.Sound bus

section Process

variable [DecidableEq H] {bus : RedisChannelBus} {s : BusProcess H}

theorem ProcessSound.settle (h : ProcessSound bus s) {f : MessageFate H} (hf : f.Sound bus) :
    ProcessSound bus { s with fates := s.fates ++ [f] } where
  inbox := h.inbox
  awaiting := h.awaiting
  fates := by
    intro g hg
    rcases List.mem_append.mp hg with hg | hg
    · exact h.fates g hg
    · rw [List.mem_singleton.mp hg]
      exact hf

/-- A round calls the next handler, or the loop has called every handler registered throughout. -/
theorem ProcessSound.visit (h : ProcessSound bus s) {d : Dispatch H} (hd : DispatchSound bus d)
    (hloop : d.loop.Sound s.handlers) : ProcessSound bus (s.visit d) := by
  unfold BusProcess.visit
  split
  · rename_i c hc
    have hvisited := hloop.visit hc
    refine ⟨h.inbox, ?_, h.fates⟩
    intro a ha
    rcases List.mem_append.mp ha with ha | ha
    · exact h.awaiting a ha
    · rw [List.mem_singleton.mp ha]
      exact ⟨⟨hd.channel, hd.admitted, hvisited.nodup_indices⟩, hvisited⟩
  · rename_i hend
    exact h.settle ⟨hd, fun g hg => hloop.count_eq_one hend hg⟩

theorem ProcessSound.onMessage (h : ProcessSound bus s) {m : ChannelMessage}
    (hm : m.channel = bus.channel) : ProcessSound bus (bus.onMessage s m) := by
  unfold RedisChannelBus.onMessage
  rw [if_neg (by simpa using hm)]
  cases hparse : JsonText.parse m.text with
  | none => exact h.settle hparse
  | some parsed =>
      dsimp only
      cases haccept : bus.admitted parsed with
      | error detail => exact h.settle ⟨parsed, hparse, haccept⟩
      | ok event =>
          have hstart := LiveMap.Loop.start_sound s.handlers
          exact h.visit ⟨hm, ⟨parsed, hparse, haccept⟩, hstart.nodup_indices⟩ hstart

theorem ProcessSound.take (h : ProcessSound bus s) (i : ℕ) :
    ProcessSound bus { s with awaiting := s.awaiting.eraseIdx i } :=
  ⟨h.inbox, fun a ha => h.awaiting a (List.mem_of_mem_eraseIdx ha), h.fates⟩

theorem ProcessSound.step (h : ProcessSound bus s) (e : BusEvent H) :
    ProcessSound bus (bus.stepProcess s e) := by
  unfold RedisChannelBus.stepProcess
  cases e with
  | subscribe handler =>
      exact ⟨h.inbox, fun a ha => ⟨(h.awaiting a ha).1, (h.awaiting a ha).2.set handler ()⟩, h.fates⟩
  | unsubscribe handler =>
      refine ⟨h.inbox, ?_, h.fates⟩
      intro a ha
      obtain ⟨b, hb, rfl⟩ := List.mem_map.mp ha
      obtain ⟨hd, hloop⟩ := h.awaiting b hb
      exact ⟨⟨hd.channel, hd.admitted, hd.once⟩, hloop.erase handler⟩
  | receive =>
      dsimp only
      split
      · exact h
      · rename_i m inbox hinbox
        have hrest : ProcessSound bus { s with inbox } := by
          refine ⟨fun n hn => h.inbox n ?_, h.awaiting, h.fates⟩
          rw [hinbox]
          exact List.mem_cons_of_mem m hn
        refine hrest.onMessage (h.inbox m ?_)
        rw [hinbox]
        exact List.mem_cons_self
  | lose i =>
      dsimp only
      split
      · exact h
      · have hrest : ProcessSound bus { s with inbox := s.inbox.eraseIdx i } :=
          ⟨fun n hn => h.inbox n (List.mem_of_mem_eraseIdx hn), h.awaiting, h.fates⟩
        exact hrest.settle trivial
  | returned i =>
      dsimp only
      split
      · exact h
      · rename_i a ha
        obtain ⟨hd, hloop⟩ := h.awaiting a (List.mem_of_getElem? ha)
        exact (h.take i).visit hd hloop
  | threw i =>
      dsimp only
      split
      · exact h
      · rename_i a ha
        obtain ⟨hd, hloop⟩ := h.awaiting a (List.mem_of_getElem? ha)
        split
        · exact (h.take i).settle hd
        · exact (h.take i).visit hd hloop
  | crash =>
      refine ⟨List.forall_mem_nil _, List.forall_mem_nil _, ?_⟩
      intro f hf
      rcases List.mem_append.mp hf with hf | hf
      · rcases List.mem_append.mp hf with hf | hf
        · exact h.fates f hf
        · obtain ⟨m, -, rfl⟩ := List.mem_map.mp hf
          trivial
      · obtain ⟨a, ha, rfl⟩ := List.mem_map.mp hf
        exact (h.awaiting a ha).1

theorem sent_step (bus : RedisChannelBus) (s : BusProcess H) (e : BusEvent H) :
    (bus.stepProcess s e).sent = s.sent := by
  have hvisit : ∀ (s : BusProcess H) d, (s.visit d).sent = s.sent := by
    intro s d
    unfold BusProcess.visit
    split <;> rfl
  unfold RedisChannelBus.stepProcess
  cases e with
  | receive =>
      dsimp only
      split
      · rfl
      · unfold RedisChannelBus.onMessage
        split
        · rfl
        · split
          · rfl
          · split
            · rfl
            · exact hvisit _ _
  | lose i =>
      dsimp only
      split <;> rfl
  | returned i =>
      dsimp only
      split
      · rfl
      · exact hvisit _ _
  | threw i =>
      dsimp only
      split
      · rfl
      · split
        · rfl
        · exact hvisit _ _
  | _ => rfl

theorem ProcessSound.send (h : ProcessSound bus s) (m : ChannelMessage) :
    ProcessSound bus (s.send bus.channel m) := by
  unfold BusProcess.send
  split
  · rename_i hsend
    refine ⟨?_, h.awaiting, h.fates⟩
    intro n hn
    rcases List.mem_append.mp hn with hn | hn
    · exact h.inbox n hn
    · rw [List.mem_singleton.mp hn]
      exact hsend.2
  · exact h

omit [DecidableEq H] in
theorem accounted_send {channel : String} {m : ChannelMessage} (h : s.sent.Perm s.accounted) :
    (s.send channel m).sent.Perm (s.send channel m).accounted := by
  unfold BusProcess.send
  split
  · show (s.sent ++ [m]).Perm (s.inbox ++ [m] ++ _ ++ _)
    rw [List.append_assoc, List.append_assoc, List.singleton_append]
    have haccounted := h
    rw [BusProcess.accounted, List.append_assoc] at haccounted
    exact (List.perm_append_singleton _ _).trans ((haccounted.cons m).trans List.perm_middle.symm)
  · exact h

end Process

/-! ## Every run -/

structure RedisSound [DecidableEq H] (bus : RedisChannelBus) (s : RedisState H) : Prop where
  numbered : s.published.map ChannelMessage.id = List.range s.published.length
  sent : ∀ p, (s.process p).sent.Sublist s.published
  accounted : ∀ p, (s.process p).sent.Perm (s.process p).accounted
  process : ∀ p, ProcessSound bus (s.process p)

theorem RedisSound.step [DecidableEq H] {bus : RedisChannelBus} {s : RedisState H} (h : RedisSound bus s)
    (e : RedisEvent H) : RedisSound bus (bus.step s e) := by
  cases e with
  | publish channel text reached =>
      refine ⟨?_, ?_, ?_, ?_⟩
      · show (s.published ++ [_]).map ChannelMessage.id = List.range (s.published ++ [_]).length
        rw [List.map_append, h.numbered, List.length_append, List.length_singleton, List.range_succ]
        rfl
      · intro p
        show (if p ∈ reached then _ else _ : BusProcess H).sent.Sublist (s.published ++ [_])
        have hbefore : (s.process p).sent.Sublist (s.published ++ [⟨s.published.length, channel, text⟩]) :=
          (h.sent p).trans (List.sublist_append_left _ _)
        split
        · unfold BusProcess.send
          split
          · exact (h.sent p).append (List.Sublist.refl _)
          · exact hbefore
        · exact hbefore
      · intro p
        show (if p ∈ reached then _ else _ : BusProcess H).sent.Perm
          (if p ∈ reached then _ else _ : BusProcess H).accounted
        split
        · exact accounted_send (h.accounted p)
        · exact h.accounted p
      · intro p
        show ProcessSound bus (if p ∈ reached then _ else _)
        split
        · exact (h.process p).send _
        · exact h.process p
  | process p e =>
      refine ⟨h.numbered, ?_, ?_, ?_⟩
      · intro q
        show (if q = p then _ else _ : BusProcess H).sent.Sublist s.published
        split
        · rw [sent_step]
          exact h.sent p
        · exact h.sent q
      · intro q
        show (if q = p then _ else _ : BusProcess H).sent.Perm
          (if q = p then _ else _ : BusProcess H).accounted
        split
        · rw [sent_step]
          exact (h.accounted p).trans (accounted_step bus _ e).symm
        · exact h.accounted q
      · intro q
        show ProcessSound bus (if q = p then _ else _)
        split
        · exact (h.process p).step e
        · exact h.process q

theorem run_redisSound [DecidableEq H] (bus : RedisChannelBus) (events : List (RedisEvent H)) :
    RedisSound bus (run bus.step RedisState.initial events) := by
  have hstep : ∀ (s : RedisState H) (e : RedisEvent H), RedisSound bus s → RedisSound bus (bus.step s e) :=
    fun _ e h => h.step e
  refine run_keeps hstep ⟨rfl, fun _ => .slnil, fun _ => .nil, fun _ => ⟨?_, ?_, ?_⟩⟩ events
  · exact List.forall_mem_nil _
  · exact List.forall_mem_nil _
  · exact List.forall_mem_nil _

/-- The dispatches of a process: those under way, those that have ended and those that were cut off. -/
def BusProcess.dispatches (s : BusProcess H) : List (Dispatch H) :=
  s.awaiting.map Prod.snd ++ s.fates.filterMap fun
    | .dispatched d | .aborted d => some d
    | _ => none

theorem RedisSound.dispatchSound [DecidableEq H] {bus : RedisChannelBus} {s : RedisState H}
    (h : RedisSound bus s) (p : ℕ) : ∀ d ∈ (s.process p).dispatches, DispatchSound bus d := by
  intro d hd
  rcases List.mem_append.mp hd with hd | hd
  · obtain ⟨a, ha, rfl⟩ := List.mem_map.mp hd
    exact ((h.process p).awaiting a ha).1
  · obtain ⟨f, hf, hdispatch⟩ := List.mem_filterMap.mp hd
    have hsound := (h.process p).fates f hf
    cases f with
    | dispatched d' =>
        cases hdispatch
        exact hsound.1
    | aborted d' =>
        cases hdispatch
        exact hsound
    | lost | foreign | rejected => cases hdispatch

/-! ## What takes a message away -/

/-- The events of a process that may lose a message or cut a dispatch off. -/
def BusEvent.Causes (bus : RedisChannelBus) (e : BusEvent H) : MessageFate H → Prop
  | .lost _ => e = .crash ∨ ∃ i, e = .lose i
  | .aborted _ => e = .crash ∨ (bus.onErrorThrows ∧ ∃ i, e = .threw i)
  | .foreign _ | .rejected _ _ | .dispatched _ => True

theorem fates_visit {bus : RedisChannelBus} {e : BusEvent H} {s : BusProcess H} {d : Dispatch H}
    {f : MessageFate H} (hf : f ∈ (s.visit d).fates) : f ∈ s.fates ∨ e.Causes bus f := by
  unfold BusProcess.visit at hf
  split at hf
  · exact .inl hf
  · rcases List.mem_append.mp hf with hf | hf
    · exact .inl hf
    · rw [List.mem_singleton.mp hf]
      exact .inr trivial

theorem fates_onMessage {bus : RedisChannelBus} {e : BusEvent H} {s : BusProcess H} {m : ChannelMessage}
    {f : MessageFate H} (hf : f ∈ (bus.onMessage s m).fates) : f ∈ s.fates ∨ e.Causes bus f := by
  have hsettle : ∀ g : MessageFate H, e.Causes bus g → f ∈ s.fates ++ [g] →
      f ∈ s.fates ∨ e.Causes bus f := by
    intro g hg hmem
    rcases List.mem_append.mp hmem with hmem | hmem
    · exact .inl hmem
    · rw [List.mem_singleton.mp hmem]
      exact .inr hg
  unfold RedisChannelBus.onMessage at hf
  split at hf
  · exact hsettle (.foreign m) trivial hf
  · split at hf
    · exact hsettle (.rejected m .notJson) trivial hf
    · split at hf
      · exact hsettle (.rejected m _) trivial hf
      · exact fates_visit hf

/-- A fate is as old as the state or its event may cause it. -/
theorem fates_step [DecidableEq H] {bus : RedisChannelBus} {s : BusProcess H} {e : BusEvent H}
    {f : MessageFate H} (hf : f ∈ (bus.stepProcess s e).fates) : f ∈ s.fates ∨ e.Causes bus f := by
  unfold RedisChannelBus.stepProcess at hf
  cases e with
  | subscribe handler => exact .inl hf
  | unsubscribe handler => exact .inl hf
  | receive =>
      dsimp only at hf
      split at hf
      · exact .inl hf
      · rename_i m inbox _
        exact fates_onMessage (s := { s with inbox }) hf
  | lose i =>
      dsimp only at hf
      split at hf
      · exact .inl hf
      · rcases List.mem_append.mp hf with hf | hf
        · exact .inl hf
        · rw [List.mem_singleton.mp hf]
          exact .inr (.inr ⟨i, rfl⟩)
  | returned i =>
      dsimp only at hf
      split at hf
      · exact .inl hf
      · exact fates_visit (s := { s with awaiting := s.awaiting.eraseIdx i }) hf
  | threw i =>
      dsimp only at hf
      split at hf
      · exact .inl hf
      · split at hf
        · rename_i hthrows
          rcases List.mem_append.mp hf with hf | hf
          · exact .inl hf
          · rw [List.mem_singleton.mp hf]
            exact .inr (.inr ⟨hthrows, i, rfl⟩)
        · exact fates_visit (s := { s with awaiting := s.awaiting.eraseIdx i }) hf
  | crash =>
      rcases List.mem_append.mp hf with hf | hf
      · rcases List.mem_append.mp hf with hf | hf
        · exact .inl hf
        · obtain ⟨m, -, rfl⟩ := List.mem_map.mp hf
          exact .inr (.inl rfl)
      · obtain ⟨a, -, rfl⟩ := List.mem_map.mp hf
        exact .inr (.inl rfl)

/-- Every fate of a process has an event of the process that may cause it. -/
def FatesCaused (bus : RedisChannelBus) (done : List (RedisEvent H)) (s : RedisState H) : Prop :=
  ∀ p, ∀ f ∈ (s.process p).fates, ∃ e : BusEvent H, .process p e ∈ done ∧ e.Causes bus f

theorem FatesCaused.step [DecidableEq H] {bus : RedisChannelBus} {done : List (RedisEvent H)}
    {s : RedisState H} (h : FatesCaused bus done s) (e : RedisEvent H) :
    FatesCaused bus (done ++ [e]) (bus.step s e) := by
  intro p f hf
  have hold : f ∈ (s.process p).fates → ∃ e', .process p e' ∈ done ++ [e] ∧ e'.Causes bus f := by
    intro hf
    obtain ⟨e', he', hcauses⟩ := h p f hf
    exact ⟨e', List.mem_append_left _ he', hcauses⟩
  cases e with
  | publish channel text reached =>
      apply hold
      change f ∈ (if p ∈ reached then _ else _ : BusProcess H).fates at hf
      split at hf
      · unfold BusProcess.send at hf
        split at hf <;> exact hf
      · exact hf
  | process q e =>
      change f ∈ (if p = q then _ else _ : BusProcess H).fates at hf
      split at hf
      · rename_i hpq
        subst hpq
        rcases fates_step hf with hf | hf
        · exact hold hf
        · exact ⟨e, List.mem_append_right _ (List.mem_singleton_self _), hf⟩
      · exact hold hf

theorem run_fatesCaused [DecidableEq H] (bus : RedisChannelBus) (events : List (RedisEvent H)) :
    FatesCaused bus events (run bus.step RedisState.initial events) := by
  have hstep : ∀ (done : List (RedisEvent H)) (e : RedisEvent H),
      FatesCaused bus done (run bus.step RedisState.initial done) →
      FatesCaused bus (done ++ [e]) (bus.step (run bus.step RedisState.initial done) e) :=
    fun _ e h => h.step e
  exact run_history (fun _ => List.forall_mem_nil _) hstep events

/-- For every process of every run: what Redis has sent it is part of what was published, no message
twice; each of these messages is waiting, in one dispatch, rejected for what its text is, or lost; no
dispatch calls a registration twice or with anything but what its message was admitted as, and one that
has ended has called every handler registered throughout exactly once.  No message is passed over as one
of another channel, none is lost but by the connection or a crash, and no dispatch is cut off but by a
crash or a throw that `onError` lets through. -/
theorem broadcast_at_most_once [DecidableEq H] (bus : RedisChannelBus) (events : List (RedisEvent H))
    (p : ℕ) :
    let s := run bus.step RedisState.initial events
    let q := s.process p
    (q.sent.Sublist s.published ∧ (q.sent.map ChannelMessage.id).Nodup) ∧
    q.sent.Perm (q.inbox ++ q.awaiting.map (fun a => a.2.message) ++ q.fates.map MessageFate.message) ∧
    (∀ d ∈ q.dispatches, d.message.channel = bus.channel ∧
      (∃ parsed, JsonText.parse d.message.text = some parsed ∧ bus.admitted parsed = .ok d.event) ∧
      (d.loop.visited.map Prod.fst).Nodup) ∧
    (∀ d, .dispatched d ∈ q.fates →
      ∀ h ∈ d.loop.throughout, (d.loop.visited.map Prod.snd).count h = 1) ∧
    (∀ m reason, .rejected m reason ∈ q.fates →
      ∀ parsed, JsonText.parse m.text = some parsed → ∃ detail, bus.admitted parsed = .error detail) ∧
    (∀ m, .foreign m ∉ q.fates) ∧
    (∀ m, .lost m ∈ q.fates →
      .process p .crash ∈ events ∨ ∃ i, .process p (.lose i) ∈ events) ∧
    ∀ d, .aborted d ∈ q.fates →
      .process p .crash ∈ events ∨ (bus.onErrorThrows ∧ ∃ i, .process p (.threw i) ∈ events) := by
  intro s q
  have hsound := run_redisSound bus events
  have hnodup : (s.published.map ChannelMessage.id).Nodup := by
    rw [hsound.numbered]
    exact List.nodup_range
  have hcaused := run_fatesCaused bus events p
  refine ⟨⟨hsound.sent p, hnodup.sublist ((hsound.sent p).map _)⟩, hsound.accounted p, ?_, ?_, ?_,
    ?_, ?_, ?_⟩
  · intro d hd
    have hdispatch := hsound.dispatchSound p d hd
    exact ⟨hdispatch.channel, hdispatch.admitted, hdispatch.once⟩
  · intro d hd
    exact ((hsound.process p).fates _ hd).2
  · intro m reason hm parsed hparsed
    have hfate := (hsound.process p).fates _ hm
    cases reason with
    | notJson =>
        have hnone : JsonText.parse m.text = none := hfate
        rw [hparsed] at hnone
        cases hnone
    | refused detail =>
        obtain ⟨parsed', hparsed', hrefused⟩ := hfate
        obtain rfl := Option.some.inj (hparsed.symm.trans hparsed')
        exact ⟨detail, hrefused⟩
  · intro m hm
    exact (hsound.process p).fates _ hm
  · intro m hm
    obtain ⟨e, he, hcrash | ⟨i, hlose⟩⟩ := hcaused _ hm
    · exact .inl (hcrash ▸ he)
    · exact .inr ⟨i, hlose ▸ he⟩
  · intro d hd
    obtain ⟨e, he, hcrash | ⟨hthrows, i, hthrew⟩⟩ := hcaused _ hd
    · exact .inl (hcrash ▸ he)
    · exact .inr ⟨hthrows, i, hthrew ▸ he⟩

/-! ## The decision bus -/

def AdmissionFailure.text : AdmissionFailure → String
  | .refused message | .typeError message => message

def createRedisDecisionBus (onErrorThrows : Bool) : RedisChannelBus where
  channel := "nexus.bus.decision"
  codec := some fun v => (admitDecisionEvent v).mapError AdmissionFailure.text
  onErrorThrows

theorem admit_decision {onErrorThrows : Bool} {v w : JsValue} :
    (createRedisDecisionBus onErrorThrows).admitted v = .ok w ↔ admitDecisionEvent v = .ok w := by
  show (admitDecisionEvent v).mapError _ = _ ↔ _
  cases admitDecisionEvent v <;> simp [Except.mapError]

/-- The numbers of an event, over the way numbers are written. -/
def WritesNumbers (numText : ℚ → List Char) (e : DecisionEvent) : Prop :=
  ∀ q : ℚ, JsNumber.fin q ∈ [e.signal.strategyParams.rsiLongMin, e.signal.strategyParams.rsiShortMax,
    e.signal.strategyParams.maxRealizedVol, .fin e.lineage.executionStrategyVersion] →
    JsonText.WritesUpTo (numText q) (.num (.fin q))

/-- What the JSON text of an event leaves of it is written without loss. -/
theorem plain_eventToJs {numText : ℚ → List Char} {e : DecisionEvent} (h : WritesNumbers numText e) :
    JsonText.Plain numText (fun _ => True) (eventToJs e).jsonRoundTrip := by
  have hnum : ∀ x ∈ [e.signal.strategyParams.rsiLongMin, e.signal.strategyParams.rsiShortMax,
      e.signal.strategyParams.maxRealizedVol, .fin e.lineage.executionStrategyVersion],
      JsonText.Plain numText (fun _ => True) (JsValue.num x).jsonRoundTrip := by
    intro x hx
    apply JsonText.plain_roundTrip_num
    rintro q rfl
    exact h q hx
  simp only [List.forall_mem_cons] at hnum
  obtain ⟨hlong, hshort, hvol, hversion, -⟩ := hnum
  have hstr : ∀ s, JsonText.Plain numText (fun _ => True) (JsValue.str s).jsonRoundTrip := .str
  have hparams : JsonText.Plain numText (fun _ => True) (paramsToJs e.signal.strategyParams).jsonRoundTrip :=
    JsonText.plain_roundTrip_obj (by simp) (by simp) (by simp [hlong, hshort, hvol])
  have hsignal : JsonText.Plain numText (fun _ => True) (signalToJs e.signal).jsonRoundTrip :=
    JsonText.plain_roundTrip_obj (by simp) (by simp) (by simp [hstr, hparams])
  have hlineage : JsonText.Plain numText (fun _ => True) (lineageToJs e.lineage).jsonRoundTrip := by
    unfold lineageToJs
    cases e.lineage.tickId with
    | none => exact JsonText.plain_roundTrip_obj (by simp) (by simp) (by simp [hstr, hversion])
    | some id => exact JsonText.plain_roundTrip_obj (by simp) (by simp) (by simp [hstr, hversion])
  refine JsonText.plain_roundTrip_obj (by simp) (by simp) ?_
  simp only [List.forall_mem_cons, List.not_mem_nil, false_implies, implies_true, and_true]
  refine ⟨.inr hsignal, .inr ?_, .inr ?_, .inr hlineage⟩
  · exact JsonText.plain_roundTrip_obj (by simp) (by simp) (by simp [hstr])
  · exact JsonText.plain_roundTrip_obj (by simp) (by simp) (by simp [hstr])

/-- For every process of every run of the decision bus: whatever anyone publishes, a handler is only called
with an admitted value; and where Redis has sent it a message with the text of a decision that a
registered strategy derived from a sound signal, the message is not rejected, and every handler that is
called for it is called with the event as its JSON text has it. -/
theorem decisions_broadcast [DecidableEq H] (numText : ℚ → List Char) (onErrorThrows : Bool)
    (observation : GeneratedSignal) (key : String) (tickId : Option String)
    (hsound : malformedSignalStructureReason (signalToJs observation) = none) (htick : tickId ≠ some "")
    (hnumbers : WritesNumbers numText
      (deriveDecisionEvent observation (defaultStrategyRegistry.resolve key) tickId))
    (events : List (RedisEvent H)) (p : ℕ) :
    let bus := createRedisDecisionBus onErrorThrows
    let q := (run bus.step RedisState.initial events).process p
    let event := eventToJs (deriveDecisionEvent observation (defaultStrategyRegistry.resolve key) tickId)
    (∀ d ∈ q.dispatches, Admitted d.event) ∧
    ∀ m ∈ q.sent, m.text = String.ofList (JsonText.jsonText numText event) →
      (∀ reason, .rejected m reason ∉ q.fates) ∧
      ∀ d ∈ q.dispatches, d.message = m → d.event = event.jsonRoundTrip := by
  intro bus q event
  have hrun := run_redisSound bus events
  refine ⟨?_, ?_⟩
  · intro d hd
    obtain ⟨parsed, -, haccept⟩ := (hrun.dispatchSound p d hd).admitted
    obtain ⟨rfl, hchecks⟩ := admitDecisionEvent_eq_ok.mp (admit_decision.mp haccept)
    exact admitted_of_checks hchecks
  · intro m _ htext
    have hparse : JsonText.parse m.text = some event.jsonRoundTrip := by
      rw [htext]
      exact JsonText.parse_jsonText_roundTrip (plain_eventToJs hnumbers)
    have haccept : bus.admitted event.jsonRoundTrip = .ok event.jsonRoundTrip :=
      admit_decision.mpr (admit_derived observation key hsound htick)
    refine ⟨?_, ?_⟩
    · intro reason hm
      have hfate := (hrun.process p).fates _ hm
      cases reason with
      | notJson =>
          have hnone : JsonText.parse m.text = none := hfate
          rw [hparse] at hnone
          cases hnone
      | refused detail =>
          obtain ⟨parsed, hparsed, hrefused⟩ := hfate
          obtain rfl := Option.some.inj (hparse.symm.trans hparsed)
          rw [haccept] at hrefused
          cases hrefused
    · rintro d hd rfl
      obtain ⟨parsed, hparsed, hok⟩ := (hrun.dispatchSound p d hd).admitted
      obtain rfl := Option.some.inj (hparse.symm.trans hparsed)
      rw [haccept] at hok
      exact (Except.ok.inj hok).symm

/-- A signal of whole parameters. -/
def wholeSignal : GeneratedSignal := { sampleSignal with strategyParams := ⟨.fin 55, .fin 45, .fin 1⟩ }

def wholeNumberText (q : ℚ) : List Char := JsonText.intText q.num

theorem writesNumbers_whole (tickId : Option String) : WritesNumbers wholeNumberText
    (deriveDecisionEvent wholeSignal (defaultStrategyRegistry.resolve "") tickId) := by
  have hint : ∀ n : ℤ, JsonText.WritesUpTo (wholeNumberText n) (.num (.fin n)) := by
    intro n
    unfold wholeNumberText
    rw [Rat.num_intCast]
    exact JsonText.writesUpTo_intText n
  intro q hq
  have hcases : q = (55 : ℤ) ∨ q = (45 : ℤ) ∨ q = (1 : ℤ) := by
    have hversion : (defaultStrategyRegistry.resolve "").version = 1 := rfl
    simpa [wholeSignal, deriveDecisionEvent, hversion] using hq
  rcases hcases with rfl | rfl | rfl
  · exact hint 55
  · exact hint 45
  · exact hint 1

/-- A process subscribes, publishes an event, and is called with what it has published. -/
def roundTripEvents (bus : RedisChannelBus) (event : JsValue) : List (RedisEvent String) :=
  [.process 0 (.subscribe "persist"), bus.publishEvent wholeNumberText event [0], .process 0 .receive]

theorem sent_roundTripEvents (bus : RedisChannelBus) (event : JsValue) :
    ((run bus.step RedisState.initial (roundTripEvents bus event)).process 0).sent =
      [⟨0, bus.channel, String.ofList (JsonText.jsonText wholeNumberText event)⟩] := by
  show (if 0 = 0 then bus.stepProcess _ .receive else _ : BusProcess String).sent = _
  rw [if_pos rfl, sent_step]
  simp [RedisChannelBus.step, RedisChannelBus.publishEvent, BusProcess.send,
    RedisChannelBus.stepProcess, RedisState.initial, BusProcess.initial]

theorem wholeSignal_sound : malformedSignalStructureReason (signalToJs wholeSignal) = none := by
  have hnone : (malformedSignalStructureReason (signalToJs wholeSignal)).isNone := by decide +kernel
  exact Option.isNone_iff_eq_none.mp hnone

/-- A process publishes a decision and hands it to its own subscriber. -/
theorem decisions_broadcast_sample :
    let bus := createRedisDecisionBus true
    let event := eventToJs (deriveDecisionEvent wholeSignal (defaultStrategyRegistry.resolve "")
      (some "tick-1"))
    ∃ m ∈ ((run bus.step RedisState.initial (roundTripEvents bus event)).process 0).sent,
      (∀ reason, .rejected m reason ∉
        ((run bus.step RedisState.initial (roundTripEvents bus event)).process 0).fates) ∧
      ∀ d ∈ ((run bus.step RedisState.initial (roundTripEvents bus event)).process 0).dispatches,
        d.message = m → d.event = event.jsonRoundTrip := by
  intro bus event
  have hmem : (⟨0, bus.channel, String.ofList (JsonText.jsonText wholeNumberText event)⟩ :
      ChannelMessage) ∈
        ((run bus.step RedisState.initial (roundTripEvents bus event)).process 0).sent := by
    rw [sent_roundTripEvents bus event]
    exact List.mem_singleton_self _
  have hsample := decisions_broadcast (H := String) wholeNumberText true wholeSignal "" (some "tick-1")
    wholeSignal_sound (by simp) (writesNumbers_whole _) (roundTripEvents bus event) 0
  exact ⟨_, hmem, hsample.2 _ hmem rfl⟩

end NexusQuant.Bus
