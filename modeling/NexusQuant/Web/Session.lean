import NexusQuant.Lib.Base64
import NexusQuant.Lib.Utf8
import NexusQuant.Web.OperatorRegistry

/-!
# Operator sessions

`apps/web/src/lib/session.ts`, the gate of `middleware.ts` and the guard of `operator-auth.ts`: a session
is a signed text of claims, and nothing about it is stored.  The keyed hash is a parameter; instants are
in seconds.
-/

namespace NexusQuant.Web

open JsonText

/-- `SESSION_TTL_SECONDS`. -/
def sessionTtlSeconds : ℤ := 12 * 60 * 60

/-- What a verified token claims; its issue instant is not looked at. -/
structure SessionClaims where
  sub : String
  iat : JsValue
  exp : JsNumber

def utf8 (s : String) : List UInt8 := s.toByteArray.data.toList

/-- `new TextDecoder().decode`: a byte order mark at the start is no part of the text. -/
def textDecode (bs : List UInt8) : String :=
  Utf8.decode (if [0xef, 0xbb, 0xbf] <+: bs then bs.drop 3 else bs)

/-- `JSON.stringify` of the claims of a new session. -/
def claimsText (sub : String) (iat : ℤ) : String :=
  String.ofList (objectText [memberText "sub" (quoted sub), memberText "iat" (intText iat),
    memberText "exp" (intText (iat + sessionTtlSeconds))])

def sessionPayload (sub : String) (iat : ℤ) : List Char := Base64.encodeUrl (utf8 (claimsText sub iat))

/-- The claims of a payload that was signed.  A payload that is `null` throws. -/
def readClaims (payload : String) (now : ℤ) : Except String (Option SessionClaims) :=
  match parse payload with
  | none => .ok none
  | some claims =>
      match claims.member "sub" with
      | .error e => .error e
      | .ok (.str sub) =>
          if sub = "" then .ok none
          else
            match claims.field "exp" with
            | .num (.fin exp) =>
                if (now : ℚ) ≥ exp then .ok none
                else .ok (some ⟨sub, claims.field "iat", .fin exp⟩)
            -- An expiry that is no finite number is no expiry.
            | _ => .ok none
      | .ok _ => .ok none

section Tokens

variable (hmac : String → List Char → List UInt8) (nextauthSecret : Option String)

/-- The secret, unless it is blank. -/
def hmacKey : Option String :=
  let secret := envText nextauthSecret
  if secret = "" then none else some secret

def createSession (sub : String) (now : ℤ) : Option String :=
  (hmacKey nextauthSecret).map fun key =>
    let payload := sessionPayload sub now
    String.ofList (payload ++ '.' :: Base64.encodeUrl (hmac key payload))

/-- The payload of a token, when the token has the shape of one and its signature verifies. -/
def signedPayload (token : String) : Option (List Char × List UInt8) :=
  let cs := token.toList
  (cs.idxOf? '.').bind fun dot =>
    if dot = 0 ∨ dot + 1 = cs.length then none
    else
      let payload := cs.take dot
      (hmacKey nextauthSecret).bind fun key =>
        (Base64.decodeUrl (cs.drop (dot + 1))).bind fun sig =>
          (Base64.decodeUrl payload).bind fun bytes =>
            if hmac key payload = sig then some (payload, bytes) else none

def verifySession (token : Option String) (now : ℤ) : Except String (Option SessionClaims) :=
  match token.bind (signedPayload hmac nextauthSecret) with
  | none => .ok none
  | some signed => readClaims (textDecode signed.2) now

/-! ## The gates -/

/-- `PUBLIC_API`. -/
def publicApi : List String := ["/api/v1/auth/login", "/api/v1/auth/logout"]

inductive GateAnswer where
  | next
  | unauthenticated
  | redirect (next : String)
deriving DecidableEq, Repr

/-- The middleware, on a path it is run for. -/
def middleware (env : OperatorEnv) (pathname : String) (cookie : Option String) (now : ℤ) :
    Except String GateAnswer :=
  let isApi := pathname.startsWith "/api/"
  if isApi ∧ pathname ∈ publicApi then .ok .next
  else
    match verifySession hmac nextauthSecret cookie now with
    | .error e => .error e
    | .ok claims =>
        -- The subject has to be an operator still.
        if claims.any fun c => isRegisteredOperatorId env c.sub then .ok .next
        else if isApi then .ok .unauthenticated
        else .ok (.redirect pathname)

/-- The answers of the guard of the mutating routes: 401, 403, or the operator. -/
inductive OperatorAuth where
  | unauthenticated
  | forbidden
  | operator (operatorId : String)
deriving DecidableEq, Repr

def requireOperatorSession (env : OperatorEnv) (cookie : Option String) (now : ℤ) :
    Except String OperatorAuth :=
  (verifySession hmac nextauthSecret cookie now).map fun claims =>
    match claims with
    | none => .unauthenticated
    | some claims =>
        if isRegisteredOperatorId env claims.sub then .operator claims.sub else .forbidden

end Tokens

/-! ## Round trip -/

theorem parse_claimsText (sub : String) (iat : ℤ) : parse (claimsText sub iat) =
    some (.obj [("sub", .str sub), ("iat", .num (.fin iat)),
      ("exp", .num (.fin ((iat + sessionTtlSeconds : ℤ) : ℚ)))]) := by
  have hwrites : Writes (objectText [memberText "sub" (quoted sub), memberText "iat" (intText iat),
      memberText "exp" (intText (iat + sessionTtlSeconds))])
      (ofMembers [("sub", .str sub), ("iat", .num (.fin iat)),
        ("exp", .num (.fin ((iat + sessionTtlSeconds : ℤ) : ℚ)))]) := by
    have hmembers : ∀ m ∈ [("sub", quoted sub, JsValue.str sub), ("iat", intText iat, .num (.fin iat)),
        ("exp", intText (iat + sessionTtlSeconds),
          .num (.fin ((iat + sessionTtlSeconds : ℤ) : ℚ)))], WritesUpTo m.2.1 m.2.2 := by
      simp only [List.forall_mem_cons, List.not_mem_nil, false_implies, implies_true, and_true]
      exact ⟨(writes_quoted sub).upTo, writesUpTo_intText iat, writesUpTo_intText _⟩
    exact writes_object_upTo hmembers
  exact parse_of_writes hwrites

/-- The text of an object starts with its brace, so that nothing of it is taken for a byte order
mark. -/
theorem textDecode_claimsText (sub : String) (iat : ℤ) :
    textDecode (utf8 (claimsText sub iat)) = claimsText sub iat := by
  obtain ⟨rest, hrest⟩ : ∃ rest, utf8 (claimsText sub iat) = 0x7b :: rest := by
    unfold utf8 claimsText objectText
    rw [← String.utf8Encode_toList, List.utf8Encode, List.toList_data_toByteArray, String.toList_ofList,
      List.flatMap_cons]
    exact ⟨_, rfl⟩
  have hmark : ¬ [0xef, 0xbb, 0xbf] <+: utf8 (claimsText sub iat) := by
    rw [hrest]
    simp
  unfold textDecode
  rw [if_neg hmark]
  exact Utf8.decode_toByteArray _

theorem readClaims_claimsText {sub : String} (hsub : sub ≠ "") (iat now : ℤ) :
    readClaims (claimsText sub iat) now = .ok
      (if now < iat + sessionTtlSeconds then
        some ⟨sub, .num (.fin iat), .fin ((iat + sessionTtlSeconds : ℤ) : ℚ)⟩ else none) := by
  unfold readClaims
  rw [parse_claimsText]
  show (if sub = "" then _ else if (now : ℚ) ≥ ((iat + sessionTtlSeconds : ℤ) : ℚ) then _ else _) = _
  rw [if_neg hsub]
  by_cases hlive : now < iat + sessionTtlSeconds
  · rw [if_pos hlive, if_neg]
    · rfl
    · rw [ge_iff_le, Int.cast_le]
      omega
  · rw [if_neg hlive, if_pos]
    rw [ge_iff_le, Int.cast_le]
    omega

section Verify

variable {hmac : String → List Char → List UInt8} {nextauthSecret : Option String}

theorem idxOf?_dot {payload : List Char} (h : '.' ∉ payload) (rest : List Char) :
    (payload ++ '.' :: rest).idxOf? '.' = some payload.length := by
  induction payload with
  | nil => rfl
  | cons c cs ih =>
      have hc : c ≠ '.' := fun heq => h (heq ▸ List.mem_cons_self)
      rw [List.cons_append, List.idxOf?_cons, if_neg (by simpa using hc),
        ih fun hmem => h (List.mem_cons_of_mem c hmem)]
      rfl

theorem encodeUrl_ne_nil {bs : List UInt8} (h : bs ≠ []) : Base64.encodeUrl bs ≠ [] := by
  intro hnil
  have hdecode := Base64.decodeUrl_encodeUrl bs
  rw [hnil] at hdecode
  exact h (Option.some.inj hdecode).symm

/-- A minted token is one whose payload is signed. -/
theorem signedPayload_createSession (hsigned : ∀ key payload, hmac key payload ≠ []) {sub : String}
    {iat : ℤ} {token : String} (h : createSession hmac nextauthSecret sub iat = some token) :
    signedPayload hmac nextauthSecret token =
      some (sessionPayload sub iat, utf8 (claimsText sub iat)) := by
  obtain ⟨key, hkey, rfl⟩ := Option.map_eq_some_iff.mp h
  have hdot : '.' ∉ sessionPayload sub iat := fun hmem => (Base64.mem_encodeUrl hmem).1 rfl
  have hpayload : (sessionPayload sub iat).length ≠ 0 := by
    intro hzero
    apply encodeUrl_ne_nil _ (List.length_eq_zero_iff.mp hzero)
    intro hnil
    have htext := textDecode_claimsText sub iat
    rw [hnil] at htext
    have hparse := parse_claimsText sub iat
    rw [← htext] at hparse
    cases hparse
  have hsig := encodeUrl_ne_nil (hsigned key (sessionPayload sub iat))
  have hlength : (sessionPayload sub iat).length + 1 ≠
      (sessionPayload sub iat ++ '.' :: Base64.encodeUrl (hmac key (sessionPayload sub iat))).length := by
    have hpos := List.length_pos_iff.mpr hsig
    rw [List.length_append, List.length_cons]
    omega
  unfold signedPayload
  dsimp only
  rw [String.toList_ofList, idxOf?_dot hdot, Option.bind_some, if_neg (not_or.mpr ⟨hpayload, hlength⟩),
    hkey, Option.bind_some, List.take_left,
    show (sessionPayload sub iat).length + 1 =
      (sessionPayload sub iat ++ ['.']).length by simp,
    show sessionPayload sub iat ++ '.' :: Base64.encodeUrl (hmac key (sessionPayload sub iat)) =
      (sessionPayload sub iat ++ ['.']) ++ Base64.encodeUrl (hmac key (sessionPayload sub iat)) by simp,
    List.drop_left, Base64.decodeUrl_encodeUrl, Option.bind_some]
  unfold sessionPayload
  rw [Base64.decodeUrl_encodeUrl, Option.bind_some, if_pos rfl]

end Verify

end NexusQuant.Web
