import NexusQuant.Lib.DecimalText
import NexusQuant.Lib.JsonText

/-!
# The operator registry

`operator-registry.ts` and `operator-identity.ts`: the operators are configured by two variables of the
environment, and a presented token is resolved to the operator it belongs to.
-/

namespace NexusQuant.Web

structure OperatorRegistryEntry where
  id : String
  token : String
deriving DecidableEq, Repr

/-- The two variables of `process.env`. -/
structure OperatorEnv where
  operators : Option String
  opsControlToken : Option String
deriving DecidableEq, Repr

/-- `text.trim()`. -/
def trimmed (text : String) : String := String.ofList (DecimalText.trim text.toList)

/-- `(process.env.X ?? "").trim()`. -/
def envText (value : Option String) : String := trimmed (value.getD "")

/-- `text.startsWith("[")`. -/
def startsWithBracket (text : String) : Bool := text.toList.head? == some '['

/-! ## Parsing -/

/-- An item of the JSON form.  An array is an object too, and has neither member. -/
def jsonEntry : JsValue → Option OperatorRegistryEntry
  | .obj members =>
      match Dict.get? members "id", Dict.get? members "token" with
      | some (.str id), some (.str token) =>
          let tid := trimmed id
          if tid ≠ "" ∧ token ≠ "" then some ⟨tid, token⟩ else none
      | _, _ => none
  | _ => none

/-- A pair of the compact form, its token everything after the first colon. -/
def pairEntry (pair : List Char) : Option OperatorRegistryEntry :=
  (pair.idxOf? ':').bind fun idx =>
    if idx = 0 then none
    else
      let id := trimmed (String.ofList (pair.take idx))
      let token := String.ofList (pair.drop (idx + 1))
      if id ≠ "" ∧ token ≠ "" then some ⟨id, token⟩ else none

/-- The entries of `OPERATORS`; a text that is no JSON contributes none. -/
def operatorEntries (raw : String) : List OperatorRegistryEntry :=
  if startsWithBracket raw then
    match JsonText.parse raw with
    | some (.arr items) => items.filterMap jsonEntry
    | _ => []
  else if raw ≠ "" then (raw.toList.splitOn ',').filterMap pairEntry
  else []

def parseOperatorRegistry (env : OperatorEnv) : List OperatorRegistryEntry :=
  let out := operatorEntries (envText env.operators)
  if out.length = 0 then
    let legacy := envText env.opsControlToken
    if legacy ≠ "" then [⟨"operator", legacy⟩] else []
  else out

def isRegisteredOperatorId (env : OperatorEnv) (id : String) : Bool :=
  if id = "" then false else (parseOperatorRegistry env).any (·.id == id)

/-! ## Identities -/

structure Registered (Digest : Type) where
  id : String
  tokenHash : Digest

section Identity

variable {Digest : Type} [DecidableEq Digest] (sha256 : String → Digest)

def loadRegistry (env : OperatorEnv) : List (Registered Digest) :=
  (parseOperatorRegistry env).map fun e => ⟨e.id, sha256 e.token⟩

/-- Every entry is compared, and the last that matches counts. -/
def resolveOperator (env : OperatorEnv) (token : String) : Option String :=
  if token = "" then none
  else
    let presented := sha256 token
    (loadRegistry sha256 env).foldl
      (fun matched r => if presented = r.tokenHash then some r.id else matched) none

end Identity

/-! ## Writing -/

/-- An entry as `JSON.stringify` writes it. -/
def entryText (e : OperatorRegistryEntry) : List Char :=
  JsonText.objectText
    [JsonText.memberText "id" (JsonText.quoted e.id), JsonText.memberText "token" (JsonText.quoted e.token)]

/-- `JSON.stringify` of the entries. -/
def jsonForm (entries : List OperatorRegistryEntry) : String :=
  String.ofList (JsonText.arrayText (entries.map entryText))

def pairText (e : OperatorRegistryEntry) : List Char := e.id.toList ++ ':' :: e.token.toList

/-- The entries as a compact list. -/
def compactForm (entries : List OperatorRegistryEntry) : String :=
  String.ofList (List.intercalate [','] (entries.map pairText))

end NexusQuant.Web
