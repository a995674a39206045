import NexusQuant.Lib.DecimalText
import NexusQuant.Lib.Json

/-!
# Checks of untyped values

A value that was parsed from a text is checked field by field.  A check is a Boolean and what is said
when it is false; a list of checks is decided by the first one that fails.
-/

namespace JsonChecks

mutual

/-- `String(v)` as it appears in a message. -/
def jsText : Json → String
  | .null => "null"
  | .bool b => toString b
  | .num n => toString n
  | .str s => s
  | .arr items => ",".intercalate (jsItemTexts items)
  | .obj _ => "[object Object]"

def jsItemTexts : List Json → List String
  | [] => []
  | .null :: items => "" :: jsItemTexts items
  | v :: items => jsText v :: jsItemTexts items

end

def textOf (v : Option Json) : String := (v.map jsText).getD "undefined"

def isNonEmptyString : Option Json → Bool
  | some (.str s) => s.length > 0
  | _ => false

/-- A string out of a list. -/
def isOneOf (texts : List String) : Option Json → Bool
  | some (.str s) => s ∈ texts
  | _ => false

def isCanonicalField (dp : ℕ) : Option Json → Bool
  | some (.str s) => DecimalText.isCanonical dp s
  | _ => false

def isObjectField : Option Json → Bool
  | some v => v.isPlainObject
  | none => false

def seqIsNatural : Option Json → Bool
  | some (.num n) => 0 ≤ n
  | _ => false

/-- A field that must be a decimal text with `dp` places. -/
def decimalCheck (owner : String) (v : Json) (field : String) (dp : ℕ) : Bool × String :=
  (isCanonicalField dp (v.get? field),
    owner ++ "." ++ field ++ " is not a canonical " ++ toString dp ++ "dp decimal string")

/-- What the first failing check says. -/
def firstFailed (checks : List (Bool × String)) : Option String :=
  (checks.find? (! ·.1)).map Prod.snd

theorem firstFailed_eq_none {checks : List (Bool × String)} :
    firstFailed checks = none ↔ ∀ c ∈ checks, c.1 = true := by
  rw [firstFailed, Option.map_eq_none_iff, List.find?_eq_none]
  simp

end JsonChecks
