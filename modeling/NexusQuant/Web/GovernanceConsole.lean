import NexusQuant.Governance.Actors
import NexusQuant.Web.SessionAdmission

/-!
# Governance behind the gate

The mutating governance routes behind the login.  A handler takes the name it acts under from the
session, whatever the body says, so that the four eyes of an approval are those of two operators who
each logged in with a token of their own.
-/

namespace NexusQuant.Web

open Governance Transaction Run

/-! ## The routes -/

/-- `RESOURCE_ID_RE`. -/
def isResourceId (raw : String) : Bool :=
  let cs := raw.toList
  decide (1 ≤ cs.length ∧ cs.length ≤ 128) &&
    cs.all fun c => c.isAlphanum || c == '_' || c == '-'

def parseResourceId (raw name : String) : Except String String :=
  if isResourceId raw then .ok raw else .error ("invalid '" ++ name ++ "': not a valid resource id")

/-- What a route is asked to do: the id of its path, and what it reads of its body, unless that is no
JSON object. -/
inductive Mutation where
  | register (body : Except String RegisterStrategyInput) (ids : NewIds)
  | review (id : String) (body : Except String (Option Json × Option Json)) (reviewedAt : ℤ)
      (target : ErrorTarget)
  | retire (id : String) (body : Except String (Option Json)) (target : ErrorTarget)

/-- The call a route makes for the operator of the session. -/
def Mutation.call (operatorId : String) : Mutation → Except String Call
  -- An actor that the body names is overwritten.
  | .register body ids => body.map fun input => .register { input with actor := some (.str operatorId) } ids
  | .review id body reviewedAt target =>
      (parseResourceId id "id").bind fun approvalId =>
        body.map fun (action, note) =>
          .action (.review { approvalId, action, actor := some (.str operatorId), note } reviewedAt) target
  | .retire id body target =>
      (parseResourceId id "id").bind fun versionId =>
        body.map fun reason =>
          .action (.retire { versionId, actor := some (.str operatorId), reason }) target

/-- A request to a mutating route, with the instants its cookie is verified at by the gate and by the
handler. -/
structure GovernancePost where
  pathname : String
  cookie : Option String
  gateAt : ℤ
  guardAt : ℤ
  mutation : Mutation

structure Console where
  auth : AuthState
  db : Tables

inductive ConsoleEvent where
  | auth (event : AuthEvent)
  | post (req : GovernancePost)

section Console

variable {Digest : Type} [DecidableEq Digest] (sha256 : String → Digest)
variable (hmac : String → List Char → List UInt8)

/-- The call that a request comes to, if it gets that far. -/
def admittedCall (s : AuthState) (req : GovernancePost) : Option Call :=
  match middleware hmac s.nextauthSecret s.env req.pathname req.cookie req.gateAt with
  | .ok .next =>
      match requireOperatorSession hmac s.nextauthSecret s.env req.cookie req.guardAt with
      | .ok (.operator operatorId) => (req.mutation.call operatorId).toOption
      | _ => none
  | _ => none

def consoleStep (c : Console) : ConsoleEvent → Console
  | .auth event => { c with auth := authStep sha256 hmac c.auth event }
  | .post req => { c with db := (admittedCall hmac c.auth req).elim c.db (callStep c.db) }

/-- The cookie of a request is not forged. -/
def PresentsUnforged (c : Console) : ConsoleEvent → Prop
  | .auth _ => True
  | .post req => c.auth.Unforged hmac req.cookie

end Console

/-! ## Names -/

section Names

variable {Digest : Type} [DecidableEq Digest] {sha256 : String → Digest}
variable {hmac : String → List Char → List UInt8} {s : AuthState}

/-- The name of an operator that was granted a session for a token registered to it. -/
def AuthState.Principal (sha256 : String → Digest) (s : AuthState) (name : String) : Prop :=
  ∃ g ∈ s.grants, g.operator = name ∧
    ∃ e ∈ parseOperatorRegistry g.env, e.id = name ∧ sha256 e.token = sha256 g.token

omit [DecidableEq Digest] in
theorem principal_of_loggedIn {operator : String} {now : ℤ} (h : s.LoggedIn sha256 operator now) :
    s.Principal sha256 operator := by
  obtain ⟨g, hg, hid, -, -, he⟩ := h
  exact ⟨g, hg, hid, he⟩

omit [DecidableEq Digest] in
/-- Under the name of an operator a call is made as that operator. -/
theorem requireActor_operator {operator actor field : String} (h : s.Principal sha256 operator)
    (hactor : requireActor (some (.str operator)) field = .ok actor) : actor = operator := by
  obtain ⟨g, -, -, e, he, hid, -⟩ := h
  obtain ⟨id, htrimmed⟩ := (id_of_mem_parseOperatorRegistry he).2
  have htrim : trimText operator = operator := by
    rw [← hid, htrimmed]
    unfold trimText trimmed
    rw [String.toList_ofList, DecimalText.trim_trim]
  obtain ⟨text, htext, hrest⟩ := Fallible.bind_eq_ok.mp hactor
  unfold requireText at htext
  dsimp only at htext
  split_ifs at htext
  cases htext
  split_ifs at hrest
  cases hrest
  exact htrim

theorem call_actor {m : Mutation} {operatorId : String} {call : Call}
    (h : m.call operatorId = .ok call) : call.actor = some (.str operatorId) := by
  cases m with
  | register body ids =>
      obtain ⟨input, -, rfl⟩ := Fallible.map_eq_ok.mp h
      rfl
  | review id body reviewedAt target =>
      obtain ⟨approvalId, -, h⟩ := Fallible.bind_eq_ok.mp h
      obtain ⟨read, -, rfl⟩ := Fallible.map_eq_ok.mp h
      rfl
  | retire id body target =>
      obtain ⟨versionId, -, h⟩ := Fallible.bind_eq_ok.mp h
      obtain ⟨reason, -, rfl⟩ := Fallible.map_eq_ok.mp h
      rfl

/-- A request that is not forged acts under the name of a principal. -/
theorem admittedCall_actor (hs : s.Resolved sha256) {req : GovernancePost}
    (hcookie : s.Unforged hmac req.cookie) {call : Call} (h : admittedCall hmac s req = some call)
    {actor : String} (hactor : requireActor call.actor "actor" = .ok actor) :
    s.Principal sha256 actor := by
  unfold admittedCall at h
  split at h
  · split at h
    · rename_i operatorId hoperator
      have hguarded := guarded_of_unforged hs hcookie req.pathname req.guardAt
      have hprincipal := principal_of_loggedIn (hguarded.identified operatorId hoperator).1
      have hcall : req.mutation.call operatorId = .ok call := by
        cases hmade : req.mutation.call operatorId with
        | error e =>
            rw [hmade] at h
            cases h
        | ok made =>
            rw [hmade] at h
            cases h
            rfl
      rw [call_actor hcall] at hactor
      rw [requireActor_operator hprincipal hactor]
      exact hprincipal
    · cases h
  · cases h

end Names

/-! ## Runs -/

section Runs

variable {Digest : Type} [DecidableEq Digest] {sha256 : String → Digest}
variable {hmac : String → List Char → List UInt8} {c : Console}

structure Console.Sound (sha256 : String → Digest) (c : Console) : Prop where
  resolved : c.auth.Resolved sha256
  books : c.db.books.Sound
  names : ActedBy (c.auth.Principal sha256) c.db.rows c.db.audit

theorem authStep_grants (s : AuthState) (event : AuthEvent) :
    s.grants <+: (authStep sha256 hmac s event).grants := by
  cases event with
  | configure env nextauthSecret => exact List.prefix_refl _
  | login req => exact List.prefix_append _ _

theorem consoleStep_sound (h : c.Sound sha256) {event : ConsoleEvent}
    (hevent : PresentsUnforged hmac c event) : (consoleStep sha256 hmac c event).Sound sha256 := by
  cases event with
  | auth event =>
      constructor
      · exact authStep_resolved h.resolved event
      · exact h.books
      · apply h.names.mono
        rintro name ⟨g, hg, hname⟩
        exact ⟨g, (authStep_grants c.auth event).subset hg, hname⟩
  | post req =>
      cases hcall : admittedCall hmac c.auth req with
      | none =>
          have hidle : consoleStep sha256 hmac c (.post req) = c := by
            simp only [consoleStep, hcall, Option.elim_none]
          rw [hidle]
          exact h
      | some call =>
          have hstep : consoleStep sha256 hmac c (.post req) = ⟨c.auth, callStep c.db call⟩ := by
            simp only [consoleStep, hcall, Option.elim_some]
          rw [hstep]
          constructor
          · exact h.resolved
          · exact Moves.sound (callStep_moves call h.books) h.books
          · apply callStep_actedBy _ h.names
            exact fun actor hactor => admittedCall_actor h.resolved hevent hcall hactor

/-- The grants of two operators, under tokens that are two unless the registry was edited in between. -/
structure TwoLogins (sha256 : String → Digest) (s : AuthState) (requester reviewer : String) : Prop where
  distinct : requester ≠ reviewer
  requested : s.Principal sha256 requester
  reviewed : s.Principal sha256 reviewer
  tokens : ∀ g ∈ s.grants, ∀ g' ∈ s.grants, g.operator = requester → g'.operator = reviewer →
    g.env = g'.env → g.token ≠ g'.token

/-- In every run of the console from empty tables, whatever cookies are presented short of forged ones:
an active version was asked for and approved by two operators with a login of their own each, and nobody
stands in the audit log who has not logged in. -/
theorem active_versions_four_eyes (hfresh : c.auth.grants = []) (hempty : c.db = .empty)
    {events : List ConsoleEvent}
    (hrun : RunMeets (consoleStep sha256 hmac) (PresentsUnforged hmac) c events) :
    (∀ id version,
      (run (consoleStep sha256 hmac) c events).db.rows.get? .versions id = some version →
      version.status = .active → ∃ approvalId approval reviewer,
        (run (consoleStep sha256 hmac) c events).db.rows.get? .approvals approvalId = some approval ∧
        approval.FourEyes id ∧ approval.reviewedBy = some reviewer ∧
        TwoLogins sha256 (run (consoleStep sha256 hmac) c events).auth approval.requestedBy reviewer) ∧
    ∀ row ∈ (run (consoleStep sha256 hmac) c events).db.audit,
      (run (consoleStep sha256 hmac) c events).auth.Principal sha256 row.actor := by
  have hstart : c.Sound sha256 := by
    constructor
    · intro g hg
      rw [hfresh] at hg
      cases hg
    · rw [hempty]
      exact empty_sound
    · rw [hempty]
      constructor
      · intro row hrow
        cases hrow
      · intro id approval happroval
        cases happroval
      · intro id approval reviewer happroval
        cases happroval
  have hstep : ∀ (c : Console) (event : ConsoleEvent), c.Sound sha256 → PresentsUnforged hmac c event →
      (consoleStep sha256 hmac c event).Sound sha256 := fun c event h hevent => consoleStep_sound h hevent
  have hsound : (run (consoleStep sha256 hmac) c events).Sound sha256 :=
    run_invariant hstep hstart hrun
  constructor
  · intro id version hversion hactive
    obtain ⟨approvalId, approval, happroval, hfour⟩ := hsound.books.approved id version hversion hactive
    obtain ⟨reviewer, hreviewer, hne⟩ := hfour.reviewer
    refine ⟨approvalId, approval, reviewer, happroval, hfour, hreviewer, hne.symm, ?_, ?_, ?_⟩
    · exact hsound.names.requested approvalId approval happroval
    · exact hsound.names.reviewed approvalId approval reviewer happroval hreviewer
    · intro g hg g' hg' hrequester hreview henv htoken
      have hresolved := hsound.resolved g hg
      rw [henv, htoken, hsound.resolved g' hg'] at hresolved
      exact hne (by rw [← hreview, ← hrequester, Option.some.inj hresolved])
  · exact hsound.names.logged

end Runs

/-! ## An approval -/

def idleGovernance : Console := ⟨idleConsole, .empty⟩

def volatilityRange : JsValue := .obj [("min", .num (.fin 0)), ("max", .num (.fin 2))]

/-- What `alice` registers; the actor in the body is of no account. -/
def sampleRegistration : RegisterStrategyInput where
  strategyName := some (.str "momentum")
  actor := some (.str "bob")
  rationale := some (.str "trend persists")
  description := some (.str "d")
  hypothesis := some (.str "h")
  entryLogic := some (.str "e")
  exitLogic := some (.str "x")
  riskRules := some (.str "r")
  failureConditions := some (.str "f")
  parameters := .obj []
  validRegimes := .arr [.str "TREND"]
  volatilityBounds := volatilityRange

def registerPost : GovernancePost where
  pathname := "/api/v1/governance/strategies"
  cookie := some (sampleSession "alice")
  gateAt := 1100
  guardAt := 1100
  mutation := .register (.ok sampleRegistration) ⟨"s1", "v1", "a1"⟩

def reviewPost (operator : String) : GovernancePost where
  pathname := "/api/v1/governance/approvals/a1"
  cookie := some (sampleSession operator)
  gateAt := 1200
  guardAt := 1200
  mutation := .review "a1" (.ok (some (.str "approve"), none)) 1200 .missing

/-- `alice` tries to approve what she has registered, then `bob` does. -/
def sampleConsoleEvents : List ConsoleEvent :=
  [.auth (.configure namedOperators sampleSecret), .auth (.login (sampleLogin "tok-alice")),
    .post registerPost, .post (reviewPost "alice"), .auth (.login (sampleLogin "tok:with:colons")),
    .post (reviewPost "bob")]

theorem sampleConsoleEvents_unforged :
    RunMeets (consoleStep String.toList sampleHmac) (PresentsUnforged sampleHmac) idleGovernance
      sampleConsoleEvents := by
  have halice : authStep String.toList sampleHmac ⟨namedOperators, sampleSecret, []⟩
      (.login (sampleLogin "tok-alice")) =
      ⟨namedOperators, sampleSecret, [sampleGrant "alice" "tok-alice"]⟩ :=
    authStep_sample [] (by decide) (by decide)
  have hbob : authStep String.toList sampleHmac
      ⟨namedOperators, sampleSecret, [sampleGrant "alice" "tok-alice"]⟩
      (.login (sampleLogin "tok:with:colons")) =
      ⟨namedOperators, sampleSecret,
        [sampleGrant "alice" "tok-alice", sampleGrant "bob" "tok:with:colons"]⟩ :=
    authStep_sample [sampleGrant "alice" "tok-alice"] (by decide) (by decide)
  refine ⟨trivial, trivial, ?_, ?_, trivial, ?_, trivial⟩
  · show (authStep String.toList sampleHmac ⟨namedOperators, sampleSecret, []⟩
      (.login (sampleLogin "tok-alice"))).Unforged sampleHmac (some (sampleSession "alice"))
    rw [halice]
    exact sampleSession_unforged rfl (List.mem_singleton_self _)
  · show (authStep String.toList sampleHmac ⟨namedOperators, sampleSecret, []⟩
      (.login (sampleLogin "tok-alice"))).Unforged sampleHmac (some (sampleSession "alice"))
    rw [halice]
    exact sampleSession_unforged rfl (List.mem_singleton_self _)
  · show (authStep String.toList sampleHmac (authStep String.toList sampleHmac
      ⟨namedOperators, sampleSecret, []⟩ (.login (sampleLogin "tok-alice")))
      (.login (sampleLogin "tok:with:colons"))).Unforged sampleHmac (some (sampleSession "bob"))
    rw [halice, hbob]
    exact sampleSession_unforged rfl (List.mem_cons_of_mem _ (List.mem_singleton_self _))

theorem sampleConsole_active :
    ((run (consoleStep String.toList sampleHmac) idleGovernance sampleConsoleEvents).db.rows.get?
      .versions "v1").map StrategyVersion.status = some .active := by
  decide +kernel

theorem active_versions_four_eyes_sample :
    ∃ approvalId approval reviewer,
      (run (consoleStep String.toList sampleHmac) idleGovernance sampleConsoleEvents).db.rows.get?
        .approvals approvalId = some approval ∧
      approval.FourEyes "v1" ∧ approval.reviewedBy = some reviewer ∧
      TwoLogins String.toList
        (run (consoleStep String.toList sampleHmac) idleGovernance sampleConsoleEvents).auth
        approval.requestedBy reviewer := by
  obtain ⟨version, hversion, hactive⟩ := Option.map_eq_some_iff.mp sampleConsole_active
  exact (active_versions_four_eyes rfl rfl sampleConsoleEvents_unforged).1 "v1" version hversion hactive

end NexusQuant.Web
