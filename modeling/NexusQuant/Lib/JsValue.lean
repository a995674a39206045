import NexusQuant.Lib.Dict
import NexusQuant.Lib.JsNumber

/-!
# Values of a dynamic language

What an untyped field can hold: the values of JSON, with the numbers of `JsNumber`, and `undefined`.
Reading a member of a value that has none gives `undefined`; reading one of `null` or `undefined`
throws.
-/

inductive JsValue where
  | undefined
  | null
  | bool (b : Bool)
  | num (x : JsNumber)
  | str (s : String)
  | arr (items : List JsValue)
  | obj (members : List (String × JsValue))
deriving Repr

namespace JsValue

/-- `v[key]`, for a key that is on no prototype. -/
def member (v : JsValue) (key : String) : Except String JsValue :=
  match v with
  | .undefined => .error ("Cannot read properties of undefined (reading '" ++ key ++ "')")
  | .null => .error ("Cannot read properties of null (reading '" ++ key ++ "')")
  | .obj members => .ok ((Dict.get? members key).getD .undefined)
  | _ => .ok .undefined

/-- The member of a value, `undefined` where it has none: `record?.[key]`. -/
def field (v : JsValue) (key : String) : JsValue :=
  match v with
  | .obj members => (Dict.get? members key).getD .undefined
  | _ => .undefined

/-- The value of a string, empty for any other value. -/
def stringOrEmpty : JsValue → String
  | .str s => s
  | _ => ""

/-- `Number.isFinite(v) && v > 0` of a number, and the number. -/
def finitePositive : JsValue → Option ℚ
  | .num (.fin q) => if 0 < q then some q else none
  | _ => none

/-- `x === v` for a number `x`. -/
def isNumber (x : JsNumber) : JsValue → Bool
  | .num y => x = y && x != .nan
  | _ => false

/-- `v ?? {}`. -/
def orEmpty : JsValue → JsValue
  | .undefined | .null => .obj []
  | v => v

theorem isNumber_iff {x : JsNumber} {v : JsValue} : isNumber x v ↔ v = .num x ∧ x ≠ .nan := by
  cases v with
  | num y =>
      simp only [isNumber, Bool.and_eq_true, decide_eq_true_eq, bne_iff_ne, JsValue.num.injEq]
      exact and_congr_left fun _ => eq_comm
  | undefined | null | bool | str | arr | obj => simp [isNumber]

end JsValue
