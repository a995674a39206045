import NexusQuant.Lib.Binary64
import NexusQuant.Lib.Calendar
import NexusQuant.Lib.Dict
import NexusQuant.Lib.Pattern

/-!
# The names of options

`parseOptionInstrument` of `connectors/deribit.ts`.  The pattern gives the parts of a name; the date is
checked by what it has rolled over to, the strike by the number it is read as.
-/

namespace NexusQuant.Ingestion

/-- `MONTHS`. -/
def months : Dict ℕ :=
  [("JAN", 0), ("FEB", 1), ("MAR", 2), ("APR", 3), ("MAY", 4), ("JUN", 5), ("JUL", 6), ("AUG", 7),
    ("SEP", 8), ("OCT", 9), ("NOV", 10), ("DEC", 11)]

/-- `EXPIRY_HOUR_UTC`. -/
def expiryHourUtc : ℤ := 8

inductive OptionType where
  | call | put
deriving DecidableEq, Repr

structure ParsedOptionInstrument where
  underlying : String
  expiry : ℤ
  /-- The strike with a decimal point. -/
  strike : String
  strikeNum : JsNumber
  optionType : OptionType
deriving DecidableEq, Repr

/-- `OPTION_NAME_RE`. -/
def optionNameRe : Pattern :=
  .group (.repeated Char.isUpper 1 none) ++ Pattern.literal '-' ++
    .group (.repeated Char.isDigit 1 (some 2)) ++ .group (.repeated Char.isUpper 3 (some 3)) ++
    .group (.repeated Char.isDigit 2 (some 2)) ++ Pattern.literal '-' ++
    .group (.repeated Char.isDigit 1 none ++
      .optional (Pattern.literal 'd' ++ .repeated Char.isDigit 1 none)) ++
    Pattern.literal '-' ++ .group (.char fun c => c == 'C' || c == 'P')

/-- `replace` with a text of one character: its first occurrence. -/
def replaceFirst (c d : Char) : List Char → List Char
  | [] => []
  | e :: cs => if e = c then d :: cs else e :: replaceFirst c d cs

/-- `Date.UTC` at a full hour. -/
def dateUtc (year : ℤ) (month day : ℕ) (hour : ℤ) : ℤ :=
  Calendar.makeDay year month day * Calendar.msPerDay + hour * 3600000

def getUtcDate (ms : ℤ) : ℕ := Calendar.dateFromDay (ms / Calendar.msPerDay)

def getUtcMonth (ms : ℤ) : ℕ := Calendar.monthFromDay (ms / Calendar.msPerDay)

def parseOptionInstrument (name : String) : Option ParsedOptionInstrument :=
  match optionNameRe.exec name.toList with
  | some [some underlying, some dayStr, some monStr, some yearStr, some strikeRaw, some cp] =>
      match Dict.get? months (String.ofList monStr) with
      | none => none
      | some month =>
          -- The pattern leaves digits only, which `Number` reads as the number they are.
          let day := Nat.ofDigitChars 10 dayStr 0
          let year : ℤ := 2000 + Nat.ofDigitChars 10 yearStr 0
          let expiry := dateUtc year month day expiryHourUtc
          if getUtcDate expiry ≠ day ∨ getUtcMonth expiry ≠ month then none
          else
            let strike := String.ofList (replaceFirst 'd' '.' strikeRaw)
            let strikeNum := Binary64.toNumber strike
            if !strikeNum.isFinite || JsNumber.le strikeNum (.fin 0) then none
            else some
              { underlying := String.ofList underlying
                expiry
                strike
                strikeNum
                optionType := if cp = ['C'] then .call else .put }
  | _ => none

example : parseOptionInstrument "ETH-9JUN26-3d5-C" =
    some ⟨"ETH", 1780992000000, "3.5", .fin (7 / 2), .call⟩ := by decide +kernel

example : parseOptionInstrument "BTC-29FEB26-100000-C" = none := by decide +kernel

end NexusQuant.Ingestion
