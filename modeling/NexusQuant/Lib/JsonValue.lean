import NexusQuant.Lib.DecimalText
import NexusQuant.Lib.JsValue

/-!
# Values that come out of JSON texts

The string conversion of a parsed value, what `JSON.parse` makes of what `JSON.stringify` wrote, and
checks of the fields of a value in order: a check is a Boolean and what is said when it is false.
-/

namespace JsValue

mutual

/-- `String(v)`; an error is the message of the `TypeError` for an object with a member `toString`,
which out of a JSON text is never a function. -/
def toText : JsValue → Except String String
  | .undefined => .ok "undefined"
  | .null => .ok "null"
  | .bool b => .ok (toString b)
  | .num x => .ok (DecimalText.numberText x)
  | .str s => .ok s
  | .arr items => (itemTexts items).map (",".intercalate ·)
  | .obj members =>
      if (Dict.get? members "toString").isSome then
        .error "Cannot convert object to primitive value"
      else .ok "[object Object]"

def itemTexts : List JsValue → Except String (List String)
  | [] => .ok []
  | .undefined :: items | .null :: items => (itemTexts items).map ("" :: ·)
  | v :: items => (toText v).bind fun text => (itemTexts items).map (text :: ·)

end

mutual

/-- `JSON.parse(JSON.stringify(v))`: a number that is not finite becomes `null`, a member that is
undefined is left out, an item that is becomes `null`. -/
def jsonRoundTrip : JsValue → JsValue
  | .undefined => .undefined
  | .null => .null
  | .bool b => .bool b
  | .num x => if x.isFinite then .num x else .null
  | .str s => .str s
  | .arr items => .arr (roundTripItems items)
  | .obj members => .obj (roundTripMembers members)

def roundTripItems : List JsValue → List JsValue
  | [] => []
  | .undefined :: items => .null :: roundTripItems items
  | v :: items => jsonRoundTrip v :: roundTripItems items

def roundTripMembers : List (String × JsValue) → List (String × JsValue)
  | [] => []
  | (_, .undefined) :: members => roundTripMembers members
  | (key, v) :: members => (key, jsonRoundTrip v) :: roundTripMembers members

end

def isNonEmptyString : JsValue → Bool
  | .str s => s != ""
  | _ => false

/-- A string out of a list. -/
def isOneOf (texts : List String) : JsValue → Bool
  | .str s => texts.contains s
  | _ => false

/-- A string that passes a test. -/
def isText (test : String → Bool) : JsValue → Bool
  | .str s => test s
  | _ => false

def isString : JsValue → Bool := isText fun _ => true

/-- `Number.isInteger`. -/
def isInteger : JsValue → Bool
  | .num (.fin q) => q.den = 1
  | _ => false

/-- `v === undefined`. -/
def isUndefined : JsValue → Bool
  | .undefined => true
  | _ => false

/-- `v === null`. -/
def isNull : JsValue → Bool
  | .null => true
  | _ => false

/-- `v === w` where one of the two is known to be a string. -/
def sameString : JsValue → JsValue → Bool
  | .str s, .str t => s = t
  | _, _ => false

theorem isNonEmptyString_iff {v : JsValue} : v.isNonEmptyString ↔ ∃ s, v = .str s ∧ s ≠ "" := by
  cases v with
  | str s => simp [isNonEmptyString]
  | undefined | null | bool | num | arr | obj => simp [isNonEmptyString]

theorem isText_iff {test : String → Bool} {v : JsValue} :
    v.isText test ↔ ∃ s, v = .str s ∧ test s := by
  cases v with
  | str s => simp [isText]
  | undefined | null | bool | num | arr | obj => simp [isText]

theorem isOneOf_iff {texts : List String} {v : JsValue} :
    v.isOneOf texts ↔ ∃ s ∈ texts, v = .str s := by
  cases v with
  | str s => simp [isOneOf]
  | undefined | null | bool | num | arr | obj => simp [isOneOf]

theorem sameString_iff {v w : JsValue} : v.sameString w ↔ ∃ s, v = .str s ∧ w = .str s := by
  cases v with
  | str s => cases w <;> simp [sameString, eq_comm]
  | undefined | null | bool | num | arr | obj => simp [sameString]

theorem sameString_self {v : JsValue} (h : v.isNonEmptyString) : v.sameString v := by
  obtain ⟨s, rfl, -⟩ := isNonEmptyString_iff.mp h
  simp [sameString]

/-! ## Checks in order -/

variable {α : Type*}

/-- What the first failing check says. -/
def refusal (checks : List (Bool × α)) : Option α := (checks.find? (! ·.1)).map Prod.snd

theorem refusal_eq_none {checks : List (Bool × α)} :
    refusal checks = none ↔ ∀ c ∈ checks, c.1 = true := by
  rw [refusal, Option.map_eq_none_iff, List.find?_eq_none]
  simp

end JsValue
