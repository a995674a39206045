import NexusQuant.Lib.Run
import NexusQuant.Lib.Utf16
import NexusQuant.Web.LoginRateLimit
import NexusQuant.Web.OperatorAuthentication
import NexusQuant.Web.Session

/-!
# Login and admission

`auth/login/route.ts`, and the console as a system: its environment is edited, operators log in, and
requests come with whatever cookie they like.  A session is stored nowhere, so that all that is known of
a cookie is what its signature is worth: whoever does not have the secret has no signature of a payload
that the console did not sign itself (`Unforged`).
-/

namespace NexusQuant.Web

open Run

/-! ## Login -/

/-- `MAX_TOKEN_LEN`. -/
def maxTokenLen : ℕ := 4096

/-- `MAX_BODY_BYTES`. -/
def maxBodyBytes : ℚ := 32 * 1024

/-- A request to log in: its `Content-Length` as a number, what the throttle says of its client, and its
body unless that is no JSON. -/
structure LoginPost where
  declaredLength : JsNumber
  throttle : LoginThrottleVerdict
  body : Option JsValue
  now : ℤ

inductive LoginAnswer where
  | refused (status : ℕ) (error : String)
  | granted (operator session : String)
deriving DecidableEq, Repr

/-- The token of a body, with the checks on it. -/
def loginToken : Option JsValue → Except LoginAnswer String
  | none => .error (.refused 400 "invalid JSON body")
  | some (.obj members) =>
      match (JsValue.obj members).field "token" with
      | .str token =>
          if trimmed token = "" then .error (.refused 400 "a non-empty 'token' is required")
          else if Utf16.length token > maxTokenLen then .error (.refused 400 "invalid 'token': too long")
          else .ok token
      | _ => .error (.refused 400 "a non-empty 'token' is required")
  | some _ => .error (.refused 400 "request body must be a JSON object")

section Server

variable {Digest : Type} [DecidableEq Digest] (sha256 : String → Digest)
variable (hmac : String → List Char → List UInt8)

def operatorsConfigured (env : OperatorEnv) : Bool := decide ((parseOperatorRegistry env).length > 0)

/-- `POST`. -/
def login (nextauthSecret : Option String) (env : OperatorEnv) (req : LoginPost) : LoginAnswer :=
  if req.declaredLength.finite?.any (maxBodyBytes < ·) then .refused 413 "request body too large"
  else if req.throttle.limited then .refused 429 "too many failed login attempts — try again later"
  else if ¬operatorsConfigured env then
    .refused 503
      "authentication is not configured: no operator identities on the server (fail-closed)"
  else
    match loginToken req.body with
    | .error answer => answer
    | .ok token =>
        match resolveOperator sha256 env token with
        | none => .refused 401 "unauthorized: invalid operator token"
        | some operator =>
            match createSession hmac nextauthSecret operator req.now with
            | none =>
                .refused 503
                  "authentication is not configured: NEXTAUTH_SECRET is unset on the server (fail-closed)"
            | some session => .granted operator session

/-! ## The console -/

/-- A login that was granted: the token that was presented, the registry and the secret as they were
then. -/
structure Grant where
  operator : String
  token : String
  env : OperatorEnv
  key : String
  iat : ℤ
deriving DecidableEq, Repr

structure AuthState where
  env : OperatorEnv
  nextauthSecret : Option String
  grants : List Grant
deriving DecidableEq, Repr

inductive AuthEvent where
  | configure (env : OperatorEnv) (nextauthSecret : Option String)
  | login (req : LoginPost)

/-- The grant that an answer is, by the token and the secret it was made with. -/
def grantOf (s : AuthState) (req : LoginPost) : Option Grant :=
  match login sha256 hmac s.nextauthSecret s.env req, loginToken req.body, hmacKey s.nextauthSecret with
  | .granted operator _, .ok token, some key => some ⟨operator, token, s.env, key, req.now⟩
  | _, _, _ => none

def authStep (s : AuthState) : AuthEvent → AuthState
  | .configure env nextauthSecret => { s with env, nextauthSecret }
  | .login req => { s with grants := s.grants ++ (grantOf sha256 hmac s req).toList }

/-- A cookie whose signature verifies has a payload that a login was granted with, under the same
key. -/
def AuthState.Unforged (s : AuthState) (cookie : Option String) : Prop :=
  ∀ token payload bytes, cookie = some token →
    signedPayload hmac s.nextauthSecret token = some (payload, bytes) →
      ∃ g ∈ s.grants, hmacKey s.nextauthSecret = some g.key ∧ payload = sessionPayload g.operator g.iat

/-- The operator presented a token that is registered to it, less than the lifetime of a session ago,
and was granted a session under the key that is in force. -/
def AuthState.LoggedIn (s : AuthState) (operator : String) (now : ℤ) : Prop :=
  ∃ g ∈ s.grants, g.operator = operator ∧ now < g.iat + sessionTtlSeconds ∧
    hmacKey s.nextauthSecret = some g.key ∧
      ∃ e ∈ parseOperatorRegistry g.env, e.id = operator ∧ sha256 e.token = sha256 g.token

/-- The paths the gate lets everybody through to. -/
def PublicPath (pathname : String) : Prop := pathname.startsWith "/api/" ∧ pathname ∈ publicApi

end Server

/-! ## Tokens of the console -/

section Tokens

variable {hmac : String → List Char → List UInt8} {nextauthSecret : Option String}

theorem decode_of_signedPayload {token : String} {payload : List Char} {bytes : List UInt8}
    (h : signedPayload hmac nextauthSecret token = some (payload, bytes)) :
    Base64.decodeUrl payload = some bytes := by
  obtain ⟨dot, hdot, h⟩ := Option.bind_eq_some_iff.mp h
  split_ifs at h
  obtain ⟨key, hkey, h⟩ := Option.bind_eq_some_iff.mp h
  obtain ⟨sig, hsig, h⟩ := Option.bind_eq_some_iff.mp h
  obtain ⟨decoded, hdecoded, h⟩ := Option.bind_eq_some_iff.mp h
  split_ifs at h
  cases h
  exact hdecoded

/-- What a token says whose payload is that of a session. -/
theorem verifySession_of_payload {token sub : String} (hsub : sub ≠ "") {iat : ℤ} {bytes : List UInt8}
    (h : signedPayload hmac nextauthSecret token = some (sessionPayload sub iat, bytes)) (now : ℤ) :
    verifySession hmac nextauthSecret (some token) now = .ok
      (if now < iat + sessionTtlSeconds then
        some ⟨sub, .num (.fin iat), .fin ((iat + sessionTtlSeconds : ℤ) : ℚ)⟩ else none) := by
  have hbytes : bytes = utf8 (claimsText sub iat) := by
    have hdecode := decode_of_signedPayload h
    unfold sessionPayload at hdecode
    rw [Base64.decodeUrl_encodeUrl] at hdecode
    exact (Option.some.inj hdecode).symm
  unfold verifySession
  rw [Option.bind_some, h]
  show readClaims (textDecode bytes) now = _
  rw [hbytes, textDecode_claimsText, readClaims_claimsText hsub]

end Tokens

/-! ## What a login grants -/

section Admission

variable {Digest : Type} [DecidableEq Digest] {sha256 : String → Digest}
variable {hmac : String → List Char → List UInt8} {nextauthSecret : Option String} {env : OperatorEnv}
variable {s : AuthState}

theorem login_eq_granted {req : LoginPost} {operator session : String}
    (h : login sha256 hmac nextauthSecret env req = .granted operator session) :
    ∃ token, loginToken req.body = .ok token ∧ resolveOperator sha256 env token = some operator ∧
      createSession hmac nextauthSecret operator req.now = some session := by
  unfold login at h
  split_ifs at h
  split at h
  · rename_i answer hrefused
    -- A body is refused, never granted.
    have hstatus : ∃ status error, answer = .refused status error := by
      unfold loginToken at hrefused
      split at hrefused
      · cases hrefused
        exact ⟨_, _, rfl⟩
      · split at hrefused
        · split_ifs at hrefused
          · cases hrefused
            exact ⟨_, _, rfl⟩
          · cases hrefused
            exact ⟨_, _, rfl⟩
        · cases hrefused
          exact ⟨_, _, rfl⟩
      · cases hrefused
        exact ⟨_, _, rfl⟩
    obtain ⟨status, error, rfl⟩ := hstatus
    cases h
  · rename_i token htoken
    split at h
    · cases h
    · rename_i resolved hresolved
      split at h
      · cases h
      · rename_i created hcreated
        cases h
        exact ⟨token, htoken, hresolved, hcreated⟩

theorem listed_of_resolveOperator {token id : String} (h : resolveOperator sha256 env token = some id) :
    ∃ e ∈ parseOperatorRegistry env, e.id = id ∧ sha256 e.token = sha256 token := by
  unfold resolveOperator at h
  split_ifs at h
  rcases mem_of_foldl_match h with hnone | hmatch
  · cases hnone
  · obtain ⟨r, hr, hhash, rfl⟩ := hmatch
    obtain ⟨e, he, rfl⟩ := List.mem_map.mp hr
    exact ⟨e, he, rfl, hhash.symm⟩

/-- An operator has an id, and it is trimmed. -/
theorem id_of_mem_parseOperatorRegistry {e : OperatorRegistryEntry}
    (h : e ∈ parseOperatorRegistry env) : e.id ≠ "" ∧ ∃ id, e.id = trimmed id := by
  have hentries : e ∈ operatorEntries (envText env.operators) →
      e.id ≠ "" ∧ ∃ id, e.id = trimmed id := by
    intro hlisted
    unfold operatorEntries at hlisted
    split_ifs at hlisted
    · split at hlisted
      · obtain ⟨v, -, hv⟩ := List.mem_filterMap.mp hlisted
        unfold jsonEntry at hv
        split at hv
        · split at hv
          · dsimp only at hv
            split_ifs at hv with hvalid
            cases hv
            exact ⟨hvalid.1, _, rfl⟩
          · cases hv
        · cases hv
      · cases hlisted
    · obtain ⟨pair, -, hpair⟩ := List.mem_filterMap.mp hlisted
      obtain ⟨idx, -, hpair⟩ := Option.bind_eq_some_iff.mp hpair
      dsimp only at hpair
      split_ifs at hpair with hzero hvalid
      cases hpair
      exact ⟨hvalid.1, _, rfl⟩
    · cases hlisted
  unfold parseOperatorRegistry at h
  dsimp only at h
  split_ifs at h with hnone hlegacy
  · obtain rfl := List.mem_singleton.mp h
    constructor
    · show "operator" ≠ ""
      decide
    · refine ⟨"operator", ?_⟩
      show "operator" = trimmed "operator"
      decide
  · cases h
  · exact hentries h

/-- The gate lets a request through by its claims alone. -/
theorem middleware_eq_next {pathname : String} (hpath : ¬PublicPath pathname) {cookie : Option String}
    {now : ℤ} {claims : Option SessionClaims}
    (h : verifySession hmac nextauthSecret cookie now = .ok claims) :
    middleware hmac nextauthSecret env pathname cookie now = .ok .next ↔
      claims.any fun c => isRegisteredOperatorId env c.sub := by
  have hgated : ¬(pathname.startsWith "/api/" = true ∧ pathname ∈ publicApi) := hpath
  unfold middleware
  dsimp only
  rw [if_neg hgated, h]
  dsimp only
  split_ifs with hregistered hapi
  · simp [hregistered]
  · simp [hregistered]
  · simp [hregistered]

/-- A session that a login grants opens every gate for twelve hours, as long as its operator is
registered and the secret is the same, and none after that. -/
theorem granted_session_admitted (hsigned : ∀ key payload, hmac key payload ≠ []) {req : LoginPost}
    {operator session : String} (h : login sha256 hmac nextauthSecret env req = .granted operator session)
    (later : OperatorEnv) {pathname : String} (hpath : ¬PublicPath pathname) (now : ℤ) :
    (middleware hmac nextauthSecret later pathname (some session) now = .ok .next ↔
      now < req.now + sessionTtlSeconds ∧ isRegisteredOperatorId later operator) ∧
    requireOperatorSession hmac nextauthSecret later (some session) now = .ok
      (if now < req.now + sessionTtlSeconds then
        if isRegisteredOperatorId later operator then .operator operator else .forbidden
      else .unauthenticated) := by
  obtain ⟨token, htoken, hresolved, hcreated⟩ := login_eq_granted h
  obtain ⟨e, he, rfl, hhash⟩ := listed_of_resolveOperator hresolved
  have hsub := (id_of_mem_parseOperatorRegistry he).1
  have hverify := verifySession_of_payload hsub (signedPayload_createSession hsigned hcreated) now
  constructor
  · rw [middleware_eq_next hpath hverify]
    by_cases hlive : now < req.now + sessionTtlSeconds
    · rw [if_pos hlive]
      simp [hlive]
    · rw [if_neg hlive]
      simp [hlive]
  · unfold requireOperatorSession
    rw [hverify]
    by_cases hlive : now < req.now + sessionTtlSeconds
    · rw [if_pos hlive, if_pos hlive]
      rfl
    · rw [if_neg hlive, if_neg hlive]
      rfl

/-! ## What a cookie is worth -/

/-- Every grant is that of the operator its token resolves to. -/
def AuthState.Resolved (sha256 : String → Digest) (s : AuthState) : Prop :=
  ∀ g ∈ s.grants, resolveOperator sha256 g.env g.token = some g.operator

theorem authStep_resolved (h : s.Resolved sha256) (event : AuthEvent) :
    (authStep sha256 hmac s event).Resolved sha256 := by
  cases event with
  | configure env nextauthSecret => exact h
  | login req =>
      intro g hg
      rcases List.mem_append.mp hg with hold | hnew
      · exact h g hold
      · have hgrant : grantOf sha256 hmac s req = some g := by simpa using hnew
        unfold grantOf at hgrant
        split at hgrant
        · rename_i operator session token key hlogin htoken hkey
          cases hgrant
          obtain ⟨presented, hpresented, hresolved, -⟩ := login_eq_granted hlogin
          rw [htoken] at hpresented
          cases hpresented
          exact hresolved
        · cases hgrant

/-- A cookie that is not forged is read without an error, and claims nothing but a login. -/
theorem claims_of_unforged (hs : s.Resolved sha256) {cookie : Option String}
    (hcookie : s.Unforged hmac cookie) (now : ℤ) :
    ∃ claims, verifySession hmac s.nextauthSecret cookie now = .ok claims ∧
      ∀ c, claims = some c → s.LoggedIn sha256 c.sub now := by
  cases hsigned : cookie.bind (signedPayload hmac s.nextauthSecret) with
  | none =>
      refine ⟨none, ?_, fun c hc => nomatch hc⟩
      unfold verifySession
      rw [hsigned]
  | some signed =>
      obtain ⟨token, rfl, htoken⟩ := Option.bind_eq_some_iff.mp hsigned
      obtain ⟨g, hg, hkey, hpayload⟩ := hcookie token signed.1 signed.2 rfl htoken
      obtain ⟨e, he, hid, hhash⟩ := listed_of_resolveOperator (hs g hg)
      have hsub : g.operator ≠ "" := hid ▸ (id_of_mem_parseOperatorRegistry he).1
      have htoken : signedPayload hmac s.nextauthSecret token =
          some (sessionPayload g.operator g.iat, signed.2) := by
        rw [htoken, ← hpayload]
      refine ⟨_, verifySession_of_payload hsub htoken now, fun c hc => ?_⟩
      split_ifs at hc with hlive
      cases hc
      exact ⟨g, hg, rfl, hlive, hkey, e, he, hid, hhash⟩

/-- What the gates are worth: they answer every request, and whoever they let through has logged in and
is an operator still. -/
structure AuthState.Guarded (sha256 : String → Digest) (hmac : String → List Char → List UInt8)
    (s : AuthState) (cookie : Option String) (pathname : String) (now : ℤ) : Prop where
  answered : ∃ answer, middleware hmac s.nextauthSecret s.env pathname cookie now = .ok answer
  admitted : middleware hmac s.nextauthSecret s.env pathname cookie now = .ok .next →
    PublicPath pathname ∨
      ∃ operator, s.LoggedIn sha256 operator now ∧ isRegisteredOperatorId s.env operator
  identified : ∀ operator,
    requireOperatorSession hmac s.nextauthSecret s.env cookie now = .ok (.operator operator) →
      s.LoggedIn sha256 operator now ∧ isRegisteredOperatorId s.env operator

theorem guarded_of_unforged (hs : s.Resolved sha256) {cookie : Option String}
    (hcookie : s.Unforged hmac cookie) (pathname : String) (now : ℤ) :
    s.Guarded sha256 hmac cookie pathname now := by
  obtain ⟨claims, hverify, hclaims⟩ := claims_of_unforged hs hcookie now
  constructor
  · unfold middleware
    dsimp only
    rw [hverify]
    dsimp only
    split_ifs
    · exact ⟨_, rfl⟩
    · exact ⟨_, rfl⟩
    · exact ⟨_, rfl⟩
    · exact ⟨_, rfl⟩
  · intro hnext
    by_cases hpath : PublicPath pathname
    · exact .inl hpath
    · right
      rw [middleware_eq_next hpath hverify] at hnext
      cases claims with
      | none => cases hnext
      | some c => exact ⟨c.sub, hclaims c rfl, hnext⟩
  · intro operator hoperator
    unfold requireOperatorSession at hoperator
    rw [hverify] at hoperator
    cases claims with
    | none => cases hoperator
    | some c =>
        change Except.ok (if isRegisteredOperatorId s.env c.sub then _ else _) = _ at hoperator
        split_ifs at hoperator with hregistered
        · cases hoperator
          exact ⟨hclaims c rfl, hregistered⟩
        · cases hoperator

/-- However the environment is edited and whoever logs in, nobody gets through a gate but an operator
that is registered still and has logged in less than twelve hours ago. -/
theorem admitted_was_granted (hfresh : s.grants = []) (events : List AuthEvent) {cookie : Option String}
    (hcookie : (run (authStep sha256 hmac) s events).Unforged hmac cookie) (pathname : String) (now : ℤ) :
    (run (authStep sha256 hmac) s events).Guarded sha256 hmac cookie pathname now := by
  have hs : (run (authStep sha256 hmac) s events).Resolved sha256 := by
    have hstep : ∀ (s : AuthState) (event : AuthEvent), s.Resolved sha256 →
        (authStep sha256 hmac s event).Resolved sha256 := fun s event h => authStep_resolved h event
    have hempty : s.Resolved sha256 := by
      intro g hg
      rw [hfresh] at hg
      cases hg
    exact run_keeps hstep hempty events
  exact guarded_of_unforged hs hcookie pathname now

end Admission

/-! ## A session -/

/-- A signature that repeats what it signs. -/
def sampleHmac (key : String) (payload : List Char) : List UInt8 :=
  0 :: utf8 key ++ payload.map fun c => c.val.toUInt8

def sampleSecret : Option String := some "s3cret"

def sampleLogin (token : String) : LoginPost where
  declaredLength := .fin 21
  throttle := ⟨false, 900⟩
  body := some (.obj [("token", .str token)])
  now := 1000

/-- The session of an operator that logs in at the instant 1000. -/
def sampleSession (operator : String) : String :=
  (createSession sampleHmac sampleSecret operator 1000).getD ""

theorem createSession_sample (operator : String) :
    createSession sampleHmac sampleSecret operator 1000 = some (sampleSession operator) := by
  have hkey : hmacKey sampleSecret = some "s3cret" := by decide
  unfold sampleSession createSession
  rw [hkey]
  rfl

theorem login_sample {token operator : String} (htoken : loginToken (sampleLogin token).body = .ok token)
    (hresolved : resolveOperator String.toList namedOperators token = some operator) :
    login String.toList sampleHmac sampleSecret namedOperators (sampleLogin token) =
      .granted operator (sampleSession operator) := by
  have hlength : ¬(sampleLogin token).declaredLength.finite?.any (maxBodyBytes < ·) := by
    norm_num [sampleLogin, JsNumber.finite?, maxBodyBytes]
  have hthrottle : ¬(sampleLogin token).throttle.limited = true := Bool.false_ne_true
  have hconfigured : operatorsConfigured namedOperators = true := by decide
  unfold login
  rw [if_neg hlength, if_neg hthrottle, hconfigured, if_neg (by decide), htoken]
  dsimp only
  rw [hresolved]
  dsimp only
  rw [show (sampleLogin token).now = 1000 from rfl, createSession_sample]

theorem sampleHmac_ne_nil (key : String) (payload : List Char) : sampleHmac key payload ≠ [] :=
  List.cons_ne_nil _ _

theorem not_publicPath_risk : ¬PublicPath "/api/v1/risk/overview" :=
  fun h => absurd h.2 (by decide)

theorem granted_session_admitted_sample :
    middleware sampleHmac sampleSecret namedOperators "/api/v1/risk/overview"
        (some (sampleSession "alice")) 2000 = .ok .next ∧
      middleware sampleHmac sampleSecret namedOperators "/api/v1/risk/overview"
        (some (sampleSession "alice")) 50000 ≠ .ok .next := by
  have hlogin : login String.toList sampleHmac sampleSecret namedOperators (sampleLogin "tok-alice") =
      .granted "alice" (sampleSession "alice") := login_sample (by decide) (by decide)
  constructor
  · apply (granted_session_admitted sampleHmac_ne_nil hlogin namedOperators not_publicPath_risk
      2000).1.mpr
    exact ⟨by decide, by decide⟩
  · intro hnext
    exact absurd ((granted_session_admitted sampleHmac_ne_nil hlogin namedOperators
      not_publicPath_risk 50000).1.mp hnext).1 (by decide)

def idleConsole : AuthState := ⟨⟨none, none⟩, none, []⟩

def sampleEvents : List AuthEvent := [.configure namedOperators sampleSecret, .login (sampleLogin "tok-alice")]

def sampleGrant (operator token : String) : Grant := ⟨operator, token, namedOperators, "s3cret", 1000⟩

theorem authStep_sample {token operator : String} (grants : List Grant)
    (htoken : loginToken (sampleLogin token).body = .ok token)
    (hresolved : resolveOperator String.toList namedOperators token = some operator) :
    authStep String.toList sampleHmac ⟨namedOperators, sampleSecret, grants⟩ (.login (sampleLogin token)) =
      ⟨namedOperators, sampleSecret, grants ++ [sampleGrant operator token]⟩ := by
  have hkey : hmacKey sampleSecret = some "s3cret" := by decide
  have hgrant : grantOf String.toList sampleHmac ⟨namedOperators, sampleSecret, grants⟩
      (sampleLogin token) = some (sampleGrant operator token) := by
    unfold grantOf
    dsimp only
    rw [login_sample htoken hresolved, htoken, hkey]
    rfl
  unfold authStep
  dsimp only
  rw [hgrant]
  rfl

theorem run_sample : run (authStep String.toList sampleHmac) idleConsole sampleEvents =
    ⟨namedOperators, sampleSecret, [sampleGrant "alice" "tok-alice"]⟩ :=
  authStep_sample [] (by decide) (by decide)

/-- The session of an operator that has logged in is not forged. -/
theorem sampleSession_unforged {s : AuthState} (hsecret : s.nextauthSecret = sampleSecret)
    {operator token : String} (hgrant : sampleGrant operator token ∈ s.grants) :
    s.Unforged sampleHmac (some (sampleSession operator)) := by
  intro cookie payload bytes hcookie hsigned
  rw [← Option.some.inj hcookie, hsecret,
    signedPayload_createSession sampleHmac_ne_nil (createSession_sample operator)] at hsigned
  have hpayload : sessionPayload operator 1000 = payload := (Prod.mk.inj (Option.some.inj hsigned)).1
  refine ⟨_, hgrant, ?_, hpayload.symm⟩
  rw [hsecret]
  show hmacKey sampleSecret = some "s3cret"
  decide

theorem admitted_was_granted_sample :
    (run (authStep String.toList sampleHmac) idleConsole sampleEvents).Guarded String.toList sampleHmac
      (some (sampleSession "alice")) "/api/v1/risk/overview" 2000 := by
  refine admitted_was_granted rfl sampleEvents ?_ _ _
  rw [run_sample]
  exact sampleSession_unforged rfl (List.mem_singleton_self _)

end NexusQuant.Web
