import Mathlib.Data.List.TakeWhile
import Mathlib.Data.List.Infix
import Mathlib.Tactic.NormNum
import NexusQuant.Lib.Separated

/-!
# JSON texts as bytes

`print` writes a value the way `JSON.stringify` does (no white space, UTF-8), `parse` reads a text
the way `JSON.parse` does; numbers are integers.  Three facts carry everything that is built on
JSON lines: `parse` inverts `print`, no strict prefix of a printed object parses, and a printed
value has no raw line feed.
-/

inductive Json where
  | null
  | bool (b : Bool)
  | num (n : ℤ)
  | str (s : String)
  | arr (items : List Json)
  | obj (members : List (String × Json))
deriving Repr

abbrev Bytes := List UInt8

namespace Json

/-- The induction principle with one hypothesis for all items of an array or object. -/
theorem induction {P : Json → Prop} (hnull : P .null) (hbool : ∀ b, P (.bool b))
    (hnum : ∀ n, P (.num n)) (hstr : ∀ s, P (.str s))
    (harr : ∀ items, (∀ v ∈ items, P v) → P (.arr items))
    (hobj : ∀ members, (∀ m ∈ members, P m.2) → P (.obj members)) (v : Json) : P v :=
  @Json.rec P (fun items => ∀ v ∈ items, P v) (fun members => ∀ m ∈ members, P m.2)
    (fun m => P m.2) hnull hbool hnum hstr harr hobj (by simp)
    (fun _ _ hv hvs => List.forall_mem_cons.mpr ⟨hv, hvs⟩) (by simp)
    (fun _ _ hm hms => List.forall_mem_cons.mpr ⟨hm, hms⟩) (fun _ _ hv => hv) v

/-! ## Bytes -/

def newline : UInt8 := 10
def quote : UInt8 := 34
def comma : UInt8 := 44
def minus : UInt8 := 45
def colon : UInt8 := 58
def openBracket : UInt8 := 91
def backslash : UInt8 := 92
def closeBracket : UInt8 := 93
def openBrace : UInt8 := 123
def closeBrace : UInt8 := 125

def isSpace (b : UInt8) : Bool := b = 32 || b = 9 || b = 10 || b = 13

def isDigit (b : UInt8) : Bool := 48 ≤ b && b ≤ 57

def skip (bs : Bytes) : Bytes := bs.dropWhile isSpace

def utf8 (s : String) : Bytes := s.toByteArray.data.toList

def decode? (bs : Bytes) : Option String := String.fromUTF8? bs.toByteArray

/-! ## Printing -/

/-- Lower-case hexadecimal. -/
def hexDigit (n : ℕ) : UInt8 := (Nat.digitChar n).toUInt8

/-- The letter of a two-byte escape. -/
def escapeLetter? (b : UInt8) : Option UInt8 :=
  if b = quote then some quote
  else if b = backslash then some backslash
  else if b = 8 then some 98
  else if b = 9 then some 116
  else if b = 10 then some 110
  else if b = 12 then some 102
  else if b = 13 then some 114
  else none

def escape (b : UInt8) : Bytes :=
  match escapeLetter? b with
  | some letter => [backslash, letter]
  | none =>
      if b < 32 then [backslash, 117, 48, 48, hexDigit (b.toNat / 16), hexDigit (b.toNat % 16)]
      else [b]

def printString (s : String) : Bytes := quote :: (utf8 s).flatMap escape ++ [quote]

def natBytes (n : ℕ) : Bytes := (Nat.toDigits 10 n).map Char.toUInt8

def printInt (n : ℤ) : Bytes :=
  if n < 0 then minus :: natBytes n.natAbs else natBytes n.natAbs

/-- The texts of the items, separated by commas and closed. -/
def closeList (close : UInt8) : List Bytes → Bytes
  | [] => [close]
  | [item] => item ++ [close]
  | item :: items => item ++ comma :: closeList close items

mutual

def print : Json → Bytes
  | .null => [110, 117, 108, 108]
  | .bool true => [116, 114, 117, 101]
  | .bool false => [102, 97, 108, 115, 101]
  | .num n => printInt n
  | .str s => printString s
  | .arr items => openBracket :: closeList closeBracket (printItems items)
  | .obj members => openBrace :: closeList closeBrace (printMembers members)

def printItems : List Json → List Bytes
  | [] => []
  | v :: vs => print v :: printItems vs

def printMembers : List (String × Json) → List Bytes
  | [] => []
  | (k, v) :: ms => (printString k ++ colon :: print v) :: printMembers ms

end

/-! ## Parsing -/

def hexValue? (b : UInt8) : Option ℕ :=
  if 48 ≤ b ∧ b ≤ 57 then some (b.toNat - 48)
  else if 97 ≤ b ∧ b ≤ 102 then some (b.toNat - 87)
  else if 65 ≤ b ∧ b ≤ 70 then some (b.toNat - 55)
  else none

/-- What the letter of a two-byte escape stands for. -/
def unescape? (letter : UInt8) : Option UInt8 :=
  if letter = quote then some quote
  else if letter = backslash then some backslash
  else if letter = 47 then some 47
  else if letter = 98 then some 8
  else if letter = 116 then some 9
  else if letter = 110 then some 10
  else if letter = 102 then some 12
  else if letter = 114 then some 13
  else none

/-- The UTF-8 bytes of a four-digit escape.  A surrogate, which `print` never writes, is refused. -/
def unicode? (h₁ h₂ h₃ h₄ : UInt8) : Option Bytes := do
  let high := (← hexValue? h₁) * 16 + (← hexValue? h₂)
  let low := (← hexValue? h₃) * 16 + (← hexValue? h₄)
  let code := high * 256 + low
  if 0xd800 ≤ code ∧ code < 0xe000 then none
  else some (String.utf8EncodeChar (Char.ofNat code))

/-- The bytes of a string up to its closing quote. -/
def readString : Bytes → Option (Bytes × Bytes)
  | [] => none
  | b :: bs =>
      -- An unescaped control character is refused, as in `JSON.parse`.
      if b = quote then some ([], bs)
      else if b = backslash then
        match bs with
        | [] => none
        | letter :: bs =>
            if letter = 117 then
              match bs with
              | h₁ :: h₂ :: h₃ :: h₄ :: bs =>
                  (unicode? h₁ h₂ h₃ h₄).bind fun c => (readString bs).map fun r => (c ++ r.1, r.2)
              | _ => none
            else (unescape? letter).bind fun c => (readString bs).map fun r => (c :: r.1, r.2)
      else if b < 32 then none
      else (readString bs).map fun r => (b :: r.1, r.2)

/-- Digits without a leading zero. -/
def readNat (bs : Bytes) : Option (ℕ × Bytes) :=
  let digits := (bs.takeWhile isDigit).map fun b => Char.ofNat b.toNat
  let n := Nat.ofDigitChars 10 digits 0
  -- A number that is written differently from how it prints has a leading zero, or no digit at all.
  if Nat.toDigits 10 n = digits then some (n, bs.dropWhile isDigit) else none

section List

variable {α : Type} (item : Bytes → Option (α × Bytes)) (close : UInt8)

/-- One item, then either the closing byte or a comma and more items. -/
def readItems : ℕ → Bytes → Option (List α × Bytes)
  | 0, _ => none
  | fuel + 1, bs =>
      (item bs).bind fun r =>
        -- The fuel is spent on items, and there are at most as many as bytes.
        match skip r.2 with
        | [] => none
        | b :: rest =>
            if b = close then some ([r.1], rest)
            else if b = comma then (readItems fuel rest).map fun rs => (r.1 :: rs.1, rs.2)
            else none

def readList (bs : Bytes) : Option (List α × Bytes) :=
  match skip bs with
  | [] => none
  | b :: rest => if b = close then some ([], rest) else readItems item close bs.length bs

end List

def readKey (bs : Bytes) : Option (String × Bytes) :=
  (readString bs).bind fun r => (decode? r.1).map fun s => (s, r.2)

/-- A key, a colon and a value. -/
def readMember (value : Bytes → Option (Json × Bytes)) (bs : Bytes) :
    Option ((String × Json) × Bytes) :=
  match skip bs with
  | [] => none
  | b :: rest =>
      if b = quote then
        (readKey rest).bind fun k =>
          match skip k.2 with
          | [] => none
          | c :: rest => if c = colon then (value rest).map fun v => ((k.1, v.1), v.2) else none
      else none

/-- A literal word. -/
def readWord (word : Bytes) (v : Json) (bs : Bytes) : Option (Json × Bytes) :=
  if word <+: bs then some (v, bs.drop word.length) else none

def readValue : ℕ → Bytes → Option (Json × Bytes)
  | 0, _ => none
  | fuel + 1, bs =>
      match skip bs with
      | [] => none
      | b :: rest =>
          if b = quote then (readKey rest).map fun r => (.str r.1, r.2)
          else if b = openBracket then
            (readList (readValue fuel) closeBracket rest).map fun r => (.arr r.1, r.2)
          else if b = openBrace then
            (readList (readMember (readValue fuel)) closeBrace rest).map fun r => (.obj r.1, r.2)
          else if b = minus then (readNat rest).map fun r => (.num (-r.1), r.2)
          else if isDigit b then (readNat (b :: rest)).map fun r => (.num r.1, r.2)
          else if b = 110 then readWord [110, 117, 108, 108] .null (b :: rest)
          else if b = 116 then readWord [116, 114, 117, 101] (.bool true) (b :: rest)
          else readWord [102, 97, 108, 115, 101] (.bool false) (b :: rest)

/-- A value and nothing but white space after it. -/
def parse (bs : Bytes) : Option Json :=
  (readValue bs.length bs).bind fun r => if skip r.2 = [] then some r.1 else none

/-! ## Reading fields -/

/-- The value under a key, nothing for an absent key or a value that is no object. -/
def get? (v : Json) (key : String) : Option Json :=
  match v with
  | .obj members => members.lookup key
  | _ => none

def getStr? (v : Json) (key : String) : Option String :=
  match v.get? key with
  | some (.str s) => some s
  | _ => none

def getNum? (v : Json) (key : String) : Option ℤ :=
  match v.get? key with
  | some (.num n) => some n
  | _ => none

def getArr? (v : Json) (key : String) : Option (List Json) :=
  match v.get? key with
  | some (.arr items) => some items
  | _ => none

/-- `typeof v === "object"`, arrays and null excluded. -/
def isPlainObject : Json → Bool
  | .obj _ => true
  | _ => false

/-- Reading each of a list of written values reads the list. -/
theorem mapM_map {α β : Type} {write : α → β} {read : β → Option α}
    (h : ∀ a, read (write a) = some a) (as : List α) : (as.map write).mapM read = some as := by
  induction as with
  | nil => rfl
  | cons a as ih =>
      rw [List.map_cons, List.mapM_cons, h, ih]
      rfl

/-! ## `parse` inverts `print` -/

/-- No digit follows, so that a number ends where its text ends. -/
def Stops (bs : Bytes) : Prop := ∀ b ∈ bs.head?, isDigit b = false

/-- A text that starts neither with white space nor with a closing byte. -/
def Opens (bs : Bytes) : Prop :=
  ∃ b t, bs = b :: t ∧ isSpace b = false ∧ b ≠ closeBracket ∧ b ≠ closeBrace

theorem skip_cons {b : UInt8} (h : isSpace b = false) (bs : Bytes) : skip (b :: bs) = b :: bs := by
  rw [skip, List.dropWhile_cons, h]
  rfl

theorem Opens.skip {bs : Bytes} (h : Opens bs) (r : Bytes) : skip (bs ++ r) = bs ++ r := by
  obtain ⟨b, t, rfl, hb, -⟩ := h
  exact skip_cons hb _

theorem decode?_utf8 (s : String) : decode? (utf8 s) = some s := by
  have hbytes : (utf8 s).toByteArray = s.toByteArray := by
    apply ByteArray.ext
    rw [List.data_toByteArray, utf8, Array.toArray_toList]
  rw [decode?, hbytes, String.fromUTF8?, dif_pos s.isValidUTF8]
  rfl

theorem unescape?_of_escapeLetter? {b letter : UInt8} (h : escapeLetter? b = some letter) :
    unescape? letter = some b ∧ letter ≠ 117 := by
  unfold escapeLetter? at h
  split_ifs at h with h₁ h₂ h₃ h₄ h₅ h₆ h₇ <;> cases h <;> subst_vars <;> decide

theorem unicode?_control :
    ∀ n < 32, unicode? 48 48 (hexDigit (n / 16)) (hexDigit (n % 16)) = some [UInt8.ofNat n] := by
  decide

theorem readString_cons (b : UInt8) (bs : Bytes) :
    readString (b :: bs) =
      if b = quote then some ([], bs)
      else if b = backslash then
        match bs with
        | [] => none
        | letter :: bs =>
            if letter = 117 then
              match bs with
              | h₁ :: h₂ :: h₃ :: h₄ :: bs =>
                  (unicode? h₁ h₂ h₃ h₄).bind fun c => (readString bs).map fun r => (c ++ r.1, r.2)
              | _ => none
            else (unescape? letter).bind fun c => (readString bs).map fun r => (c :: r.1, r.2)
      else if b < 32 then none
      else (readString bs).map fun r => (b :: r.1, r.2) := by
  rw [readString.eq_def]
  rfl

theorem readString_escape (b : UInt8) (bs : Bytes) :
    readString (escape b ++ bs) = (readString bs).map fun r => (b :: r.1, r.2) := by
  unfold escape
  -- How the byte was written: with a letter, as a four-digit escape, or as it is.
  split
  · rename_i letter h
    obtain ⟨hletter, hne⟩ := unescape?_of_escapeLetter? h
    rw [List.cons_append, readString_cons, if_neg (by decide), if_pos rfl]
    simp only [List.cons_append, List.nil_append, if_neg hne, hletter, Option.bind_some]
  · rename_i h
    split
    · rename_i hlt
      have hcode := unicode?_control b.toNat (UInt8.lt_iff_toNat_lt.mp hlt)
      rw [UInt8.ofNat_toNat] at hcode
      rw [List.cons_append, readString_cons, if_neg (by decide), if_pos rfl]
      simp only [List.cons_append, List.nil_append, if_true, hcode, Option.bind_some]
    · rename_i hge
      have hquote : b ≠ quote := by rintro rfl; cases h
      have hslash : b ≠ backslash := by rintro rfl; cases h
      rw [List.singleton_append, readString_cons, if_neg hquote, if_neg hslash, if_neg hge]

theorem readString_flatMap (bs r : Bytes) :
    readString (bs.flatMap escape ++ quote :: r) = some (bs, r) := by
  induction bs with
  | nil => rw [List.flatMap_nil, List.nil_append, readString_cons, if_pos rfl]
  | cons b bs ih =>
      rw [List.flatMap_cons, List.append_assoc, readString_escape, ih]
      rfl

theorem readKey_printString (s : String) (r : Bytes) :
    readKey ((utf8 s).flatMap escape ++ quote :: r) = some (s, r) := by
  rw [readKey, readString_flatMap, Option.bind_some, decode?_utf8]
  rfl

theorem digit_facts : ∀ n < 58, 48 ≤ n →
    isDigit (Char.ofNat n).toUInt8 = true ∧
      Char.ofNat (Char.ofNat n).toUInt8.toNat = Char.ofNat n := by
  decide

theorem toUInt8_of_isDigit {c : Char} (hc : c.isDigit) :
    isDigit c.toUInt8 = true ∧ Char.ofNat c.toUInt8.toNat = c := by
  have hrange : 48 ≤ c.toNat ∧ c.toNat < 58 := by
    simp only [Char.isDigit, ge_iff_le, Bool.and_eq_true, decide_eq_true_eq] at hc
    have hlo := UInt32.le_iff_toNat_le.mp hc.1
    have hhi := UInt32.le_iff_toNat_le.mp hc.2
    exact ⟨hlo, by have : c.toNat ≤ 57 := hhi; omega⟩
  have hfacts := digit_facts c.toNat hrange.2 hrange.1
  rwa [Char.ofNat_toNat] at hfacts

theorem isDigit_of_mem_natBytes {n : ℕ} {b : UInt8} (hb : b ∈ natBytes n) : isDigit b := by
  obtain ⟨c, hc, rfl⟩ := List.mem_map.mp hb
  exact (toUInt8_of_isDigit (Nat.isDigit_of_mem_toDigits (by decide) (by decide) hc)).1

theorem natBytes_toChars (n : ℕ) :
    (natBytes n).map (fun b => Char.ofNat b.toNat) = Nat.toDigits 10 n := by
  rw [natBytes, List.map_map]
  conv_rhs => rw [← List.map_id (Nat.toDigits 10 n)]
  refine List.map_congr_left fun c hc => ?_
  exact (toUInt8_of_isDigit (Nat.isDigit_of_mem_toDigits (by decide) (by decide) hc)).2

theorem readNat_natBytes (n : ℕ) {r : Bytes} (hr : Stops r) :
    readNat (natBytes n ++ r) = some (n, r) := by
  have hall : ∀ b ∈ natBytes n, isDigit b = true := fun b hb => isDigit_of_mem_natBytes hb
  -- What follows starts with no digit, so the run of digits ends where the number does.
  have htake : r.takeWhile isDigit = [] := by
    cases r with
    | nil => rfl
    | cons b r => rw [List.takeWhile_cons, hr b rfl]; rfl
  have hdrop : r.dropWhile isDigit = r := by
    cases r with
    | nil => rfl
    | cons b r => rw [List.dropWhile_cons, hr b rfl]; rfl
  rw [readNat, List.takeWhile_append_of_pos hall, List.dropWhile_append_of_pos hall, htake, hdrop,
    List.append_nil, natBytes_toChars]
  simp only [Nat.ofDigitChars_ten_toDigits, if_true]

theorem closeList_eq (close : UInt8) (items : List Bytes) :
    closeList close items = Separated.closeList comma close items := by
  induction items with
  | nil => rfl
  | cons i is ih =>
      cases is with
      | nil => rfl
      | cons j js =>
          show i ++ comma :: closeList close (j :: js) = _
          rw [ih]
          rfl

theorem length_lt_closeList {close : UInt8} {items : List Bytes} {item : Bytes}
    (h : item ∈ items) : item.length < (closeList close items).length := by
  rw [closeList_eq]
  exact Separated.length_lt_closeList h

section List

variable {α : Type} {item : Bytes → Option (α × Bytes)} {close : UInt8} {write : α → Bytes}

theorem readItems_eq (fuel : ℕ) (bs : Bytes) :
    readItems item close fuel bs = Separated.readItems skip item comma close fuel bs := by
  induction fuel generalizing bs with
  | zero => rfl
  | succ fuel ih =>
      simp only [readItems, Separated.readItems, ih]
      cases item bs with
      | none => rfl
      | some r =>
          dsimp only [Option.bind_some]
          cases skip r.2 <;> rfl

theorem readList_eq (bs : Bytes) :
    readList item close bs = Separated.readList skip item comma close bs := by
  simp only [readList, Separated.readList, readItems_eq]
  cases skip bs <;> rfl

theorem readList_closeList (hclose : close = closeBracket ∨ close = closeBrace) {xs : List α}
    (hitem : ∀ x ∈ xs, ∀ r, Stops r → item (write x ++ r) = some (x, r))
    (hopens : ∀ x ∈ xs, Opens (write x)) (r : Bytes) :
    readList item close (closeList close (xs.map write) ++ r) = some (xs, r) := by
  have hfacts : isSpace close = false ∧ close ≠ comma ∧ isDigit close = false := by
    rcases hclose with rfl | rfl <;> decide
  obtain ⟨hspace, hne, hdigit⟩ := hfacts
  have hcomma : ∀ r, skip (comma :: r) = comma :: r := skip_cons rfl
  -- A number ends at the closing byte and at the comma.
  have hends : ∀ r, Stops (close :: r) := by rintro r b ⟨rfl⟩; exact hdigit
  have hgoes : ∀ r, Stops (comma :: r) := by rintro r b ⟨rfl⟩; rfl
  rw [readList_eq, closeList_eq]
  refine (Separated.readList_closeList (skip_cons hspace) hcomma hne hends hgoes hitem ?_ r).trans ?_
  · intro x hx
    obtain ⟨b, t, htext, hbspace, hbracket, hbrace⟩ := hopens x hx
    have hopen : b ≠ close := by rcases hclose with rfl | rfl <;> assumption
    exact ⟨b, t, htext, hopen, skip_cons hbspace⟩
  · rw [List.map_id']

end List

theorem printItems_eq_map (items : List Json) : printItems items = items.map print := by
  induction items with
  | nil => rfl
  | cons v vs ih => rw [printItems, ih]; rfl

def printMember (m : String × Json) : Bytes := printString m.1 ++ colon :: print m.2

theorem printMembers_eq_map (members : List (String × Json)) :
    printMembers members = members.map printMember := by
  induction members with
  | nil => rfl
  | cons m ms ih => rw [printMembers, ih]; rfl

theorem opens_printMember (m : String × Json) : Opens (printMember m) :=
  ⟨quote, _, rfl, by decide, by decide, by decide⟩

theorem natBytes_ne_nil (n : ℕ) : natBytes n ≠ [] := fun h =>
  Nat.toDigits_ne_nil (List.map_eq_nil_iff.mp h)

theorem natBytes_cons (n : ℕ) : ∃ b t, natBytes n = b :: t ∧ isDigit b := by
  obtain ⟨b, t, h⟩ := List.exists_cons_of_ne_nil (natBytes_ne_nil n)
  exact ⟨b, t, h, isDigit_of_mem_natBytes (h ▸ List.mem_cons_self)⟩

/-- A digit is none of the bytes that start another kind of value. -/
theorem ne_of_isDigit {b c : UInt8} (hb : isDigit b = true) (hc : isDigit c = false) : b ≠ c := by
  rintro rfl
  rw [hb] at hc
  cases hc

theorem isSpace_of_isDigit {b : UInt8} (hb : isDigit b = true) : isSpace b = false := by
  have hne := fun c hc => ne_of_isDigit (c := c) hb hc
  simp only [isSpace, hne 32 rfl, hne 9 rfl, hne 10 rfl, hne 13 rfl, decide_false, Bool.or_self]

theorem opens_print (v : Json) : Opens (print v) := by
  cases v with
  | null => exact ⟨110, _, rfl, by decide, by decide, by decide⟩
  | bool b =>
      cases b
      · exact ⟨102, _, rfl, by decide, by decide, by decide⟩
      · exact ⟨116, _, rfl, by decide, by decide, by decide⟩
  | num n =>
      rw [print, printInt]
      split
      · exact ⟨minus, _, rfl, by decide, by decide, by decide⟩
      · obtain ⟨b, t, h, hb⟩ := natBytes_cons n.natAbs
        exact ⟨b, t, h, isSpace_of_isDigit hb, ne_of_isDigit hb rfl, ne_of_isDigit hb rfl⟩
  | str s => exact ⟨quote, _, rfl, by decide, by decide, by decide⟩
  | arr items => exact ⟨openBracket, _, by rw [print], by decide, by decide, by decide⟩
  | obj members => exact ⟨openBrace, _, by rw [print], by decide, by decide, by decide⟩

theorem readMember_printMember {value : Bytes → Option (Json × Bytes)} {m : String × Json}
    {r : Bytes} (h : value (print m.2 ++ r) = some (m.2, r)) :
    readMember value (printMember m ++ r) = some (m, r) := by
  have htext : printMember m ++ r =
      quote :: ((utf8 m.1).flatMap escape ++ quote :: (colon :: (print m.2 ++ r))) := by
    simp [printMember, printString]
  rw [htext, readMember, skip_cons (by decide)]
  simp only [if_true, readKey_printString, Option.bind_some]
  rw [skip_cons (by decide)]
  simp only [if_true, h, Option.map_some]

theorem readValue_of_skip {fuel : ℕ} {bs rest : Bytes} {b : UInt8} (h : skip bs = b :: rest) :
    readValue (fuel + 1) bs =
      if b = quote then (readKey rest).map fun r => (.str r.1, r.2)
      else if b = openBracket then
        (readList (readValue fuel) closeBracket rest).map fun r => (.arr r.1, r.2)
      else if b = openBrace then
        (readList (readMember (readValue fuel)) closeBrace rest).map fun r => (.obj r.1, r.2)
      else if b = minus then (readNat rest).map fun r => (.num (-r.1), r.2)
      else if isDigit b then (readNat (b :: rest)).map fun r => (.num r.1, r.2)
      else if b = 110 then readWord [110, 117, 108, 108] .null (b :: rest)
      else if b = 116 then readWord [116, 114, 117, 101] (.bool true) (b :: rest)
      else readWord [102, 97, 108, 115, 101] (.bool false) (b :: rest) := by
  rw [readValue, h]

theorem readWord_append (word : Bytes) (v : Json) (r : Bytes) :
    readWord word v (word ++ r) = some (v, r) := by
  rw [readWord, if_pos (List.prefix_append word r), List.drop_left]

theorem readValue_printInt (n : ℤ) (fuel : ℕ) {r : Bytes} (hr : Stops r) :
    readValue (fuel + 1) (printInt n ++ r) = some (.num n, r) := by
  have hread := readNat_natBytes n.natAbs hr
  unfold printInt
  split
  · rename_i hneg
    rw [List.cons_append, readValue_of_skip (skip_cons (by decide) _), if_neg (by decide),
      if_neg (by decide), if_neg (by decide), if_pos rfl, hread, Option.map_some]
    simp only [Option.some.injEq, Prod.mk.injEq, num.injEq, and_true]
    omega
  · rename_i hnonneg
    obtain ⟨b, t, hb, hdigit⟩ := natBytes_cons n.natAbs
    rw [hb, List.cons_append] at hread ⊢
    rw [readValue_of_skip (skip_cons (isSpace_of_isDigit hdigit) _),
      if_neg (ne_of_isDigit hdigit rfl), if_neg (ne_of_isDigit hdigit rfl),
      if_neg (ne_of_isDigit hdigit rfl), if_neg (ne_of_isDigit hdigit rfl), if_pos hdigit, hread,
      Option.map_some]
    simp only [Option.some.injEq, Prod.mk.injEq, num.injEq, and_true]
    omega

/-- Fuel for the length of the text is enough to read a printed value back. -/
theorem readValue_print (v : Json) : ∀ {fuel : ℕ} {r : Bytes}, (print v).length ≤ fuel → Stops r →
    readValue fuel (print v ++ r) = some (v, r) := by
  -- A printed value is not empty, so there is fuel for one step.
  have hpos : ∀ (v : Json) {fuel : ℕ}, (print v).length ≤ fuel → ∃ k, fuel = k + 1 := by
    intro v fuel h
    obtain ⟨b, t, hb, -⟩ := opens_print v
    rw [hb, List.length_cons] at h
    exact ⟨fuel - 1, by omega⟩
  -- The fuel of a step covers every item, since each is shorter than the list it is printed in.
  induction v using Json.induction with
  | hnull =>
      intro fuel r hfuel _
      obtain ⟨k, rfl⟩ := hpos _ hfuel
      exact (readValue_of_skip (b := 110) rfl).trans (readWord_append _ _ _)
  | hbool b =>
      intro fuel r hfuel _
      obtain ⟨k, rfl⟩ := hpos _ hfuel
      cases b
      · exact (readValue_of_skip (b := 102) rfl).trans (readWord_append _ _ _)
      · exact (readValue_of_skip (b := 116) rfl).trans (readWord_append _ _ _)
  | hnum n =>
      intro fuel r hfuel hr
      obtain ⟨k, rfl⟩ := hpos _ hfuel
      rw [print]
      exact readValue_printInt n k hr
  | hstr s =>
      intro fuel r hfuel _
      obtain ⟨k, rfl⟩ := hpos _ hfuel
      rw [print, printString, List.cons_append, List.cons_append, List.append_assoc,
        List.singleton_append, readValue_of_skip (skip_cons (by decide) _), if_pos rfl,
        readKey_printString]
      rfl
  | harr items ih =>
      intro fuel r hfuel _
      obtain ⟨k, rfl⟩ := hpos _ hfuel
      rw [print, printItems_eq_map, List.length_cons] at hfuel
      rw [print, printItems_eq_map, List.cons_append, readValue_of_skip (skip_cons (by decide) _),
        if_neg (by decide), if_pos rfl, readList_closeList (.inl rfl) ?_ fun v _ => opens_print v]
      · rfl
      · intro v hv r hr
        have := @length_lt_closeList closeBracket _ _ (List.mem_map_of_mem (f := print) hv)
        exact ih v hv (by omega) hr
  | hobj members ih =>
      intro fuel r hfuel _
      obtain ⟨k, rfl⟩ := hpos _ hfuel
      rw [print, printMembers_eq_map, List.length_cons] at hfuel
      rw [print, printMembers_eq_map, List.cons_append, readValue_of_skip (skip_cons (by decide) _),
        if_neg (by decide), if_neg (by decide), if_pos rfl,
        readList_closeList (.inr rfl) ?_ fun m _ => opens_printMember m]
      · rfl
      · intro m hm r hr
        have := @length_lt_closeList closeBrace _ _ (List.mem_map_of_mem (f := printMember) hm)
        have hlen : (print m.2).length ≤ (printMember m).length := by
          simp only [printMember, List.length_append, List.length_cons]
          omega
        exact readMember_printMember (ih m hm (by omega) hr)

theorem parse_print (v : Json) : parse (print v) = some v := by
  have h := readValue_print v (r := []) le_rfl (by rintro b ⟨⟩)
  rw [List.append_nil] at h
  rw [parse, h, Option.bind_some]
  exact if_pos rfl

/-- Two values with one text are one value. -/
theorem print_injective : Function.Injective print := by
  intro v w h
  have hparse := parse_print v
  rw [h, parse_print] at hparse
  exact (Option.some.inj hparse).symm

/-! ## No strict prefix of an object parses

Reading a value is not disturbed by what follows it, unless the value is a number at the very end.
So an object that were read off a strict prefix would be read off the whole text, and leave the
missing part as a remainder.
-/

theorem skip_append {xs r : Bytes} {b : UInt8} (h : skip xs = b :: r) (ys : Bytes) :
    skip (xs ++ ys) = b :: (r ++ ys) := by
  rw [skip] at h
  rw [skip, List.dropWhile_append, h]
  rfl

theorem readString_append {xs s r : Bytes} (ys : Bytes) (h : readString xs = some (s, r)) :
    readString (xs ++ ys) = some (s, r ++ ys) := by
  -- An escape is up to six bytes, so the induction is on the length.
  induction hn : xs.length using Nat.strong_induction_on generalizing xs s r with
  | _ n ih =>
      subst hn
      have step : ∀ (f : Bytes → Bytes) (bs : Bytes), bs.length < xs.length →
          (readString bs).map (fun q => (f q.1, q.2)) = some (s, r) →
          (readString (bs ++ ys)).map (fun q => (f q.1, q.2)) = some (s, r ++ ys) := by
        intro f bs hlt hmap
        obtain ⟨⟨s', r'⟩, hread, heq⟩ := Option.map_eq_some_iff.mp hmap
        cases heq
        rw [ih _ hlt hread rfl]
        rfl
      cases xs with
      | nil => cases h
      | cons b bs =>
          rw [readString_cons] at h
          rw [List.cons_append, readString_cons]
          by_cases hquote : b = quote
          · rw [if_pos hquote] at h ⊢
            cases h
            rfl
          · rw [if_neg hquote] at h ⊢
            by_cases hslash : b = backslash
            · rw [if_pos hslash] at h ⊢
              cases bs with
              | nil => cases h
              | cons letter bs =>
                  simp only [List.cons_append] at h ⊢
                  by_cases hu : letter = 117
                  · rw [if_pos hu] at h ⊢
                    rcases bs with _ | ⟨h₁, _ | ⟨h₂, _ | ⟨h₃, _ | ⟨h₄, bs⟩⟩⟩⟩
                    iterate 4 cases h
                    obtain ⟨c, hc, hmap⟩ := Option.bind_eq_some_iff.mp h
                    simp only [List.cons_append, hc, Option.bind_some]
                    exact step (c ++ ·) bs (by simp only [List.length_cons]; omega) hmap
                  · rw [if_neg hu] at h ⊢
                    obtain ⟨c, hc, hmap⟩ := Option.bind_eq_some_iff.mp h
                    rw [hc, Option.bind_some]
                    exact step (c :: ·) bs (by simp only [List.length_cons]; omega) hmap
            · rw [if_neg hslash] at h ⊢
              split at h
              · cases h
              · rename_i hctl
                rw [if_neg hctl]
                exact step (b :: ·) bs (by simp only [List.length_cons]; omega) h

theorem readKey_append {xs r : Bytes} {k : String} (ys : Bytes) (h : readKey xs = some (k, r)) :
    readKey (xs ++ ys) = some (k, r ++ ys) := by
  obtain ⟨⟨s, r'⟩, hread, hmap⟩ := Option.bind_eq_some_iff.mp h
  obtain ⟨k', hk, heq⟩ := Option.map_eq_some_iff.mp hmap
  cases heq
  rw [readKey, readString_append ys hread, Option.bind_some, hk]
  rfl

theorem readNat_append {xs r : Bytes} {n : ℕ} (ys : Bytes) (h : readNat xs = some (n, r))
    (hr : r ≠ []) : readNat (xs ++ ys) = some (n, r ++ ys) := by
  simp only [readNat] at h
  split at h
  · rename_i hcanon
    cases h
    -- The digits ended before the text did, so more text does not lengthen them.
    have hempty : (xs.dropWhile isDigit).isEmpty = false := by simpa using hr
    have htake : (xs.takeWhile isDigit).length ≠ xs.length := by
      intro heq
      apply hr
      have hlen := congrArg List.length (List.takeWhile_append_dropWhile (p := isDigit) (l := xs))
      rw [List.length_append] at hlen
      exact List.eq_nil_of_length_eq_zero (by omega)
    rw [readNat, List.takeWhile_append, if_neg htake, List.dropWhile_append, hempty]
    exact if_pos hcanon
  · cases h

section List

variable {α : Type} {item item' : Bytes → Option (α × Bytes)} {close : UInt8} {ys : Bytes}

theorem readItems_append
    (hitem : ∀ {xs x r}, item xs = some (x, r) → r ≠ [] → item' (xs ++ ys) = some (x, r ++ ys))
    {fuel fuel' : ℕ} (hfuel : fuel ≤ fuel') {xs r : Bytes} {as : List α}
    (h : readItems item close fuel xs = some (as, r)) :
    readItems item' close fuel' (xs ++ ys) = some (as, r ++ ys) := by
  induction fuel generalizing fuel' xs as r with
  | zero => cases h
  | succ fuel ih =>
      obtain ⟨fuel', rfl⟩ : ∃ k, fuel' = k + 1 := ⟨fuel' - 1, by omega⟩
      obtain ⟨⟨x, rest⟩, hx, hrest⟩ := Option.bind_eq_some_iff.mp h
      dsimp only at hrest
      split at hrest
      · cases hrest
      · rename_i b t hskip
        have hne : rest ≠ [] := by rintro rfl; cases hskip
        rw [readItems, hitem hx hne, Option.bind_some]
        simp only [skip_append hskip ys]
        -- The byte behind the item decides alike in both texts.
        by_cases hclose : b = close
        · rw [if_pos hclose] at hrest ⊢
          cases hrest
          rfl
        · rw [if_neg hclose] at hrest ⊢
          split at hrest
          · rename_i hcomma
            obtain ⟨⟨as', r'⟩, hread, heq⟩ := Option.map_eq_some_iff.mp hrest
            cases heq
            rw [if_pos hcomma, ih (Nat.le_of_succ_le_succ hfuel) hread]
            rfl
          · cases hrest

theorem readList_append
    (hitem : ∀ {xs x r}, item xs = some (x, r) → r ≠ [] → item' (xs ++ ys) = some (x, r ++ ys))
    {xs r : Bytes} {as : List α} (h : readList item close xs = some (as, r)) :
    readList item' close (xs ++ ys) = some (as, r ++ ys) := by
  unfold readList at h
  split at h
  · cases h
  · rename_i b t hskip
    rw [readList, skip_append hskip ys]
    by_cases hclose : b = close
    · rw [if_pos hclose] at h
      cases h
      exact if_pos hclose
    · rw [if_neg hclose] at h
      simp only [if_neg hclose]
      exact readItems_append hitem (by rw [List.length_append]; omega) h

end List

theorem readMember_append {value value' : Bytes → Option (Json × Bytes)} {ys : Bytes}
    (hvalue : ∀ {xs v r}, value xs = some (v, r) → r ≠ [] → value' (xs ++ ys) = some (v, r ++ ys))
    {xs r : Bytes} {m : String × Json} (h : readMember value xs = some (m, r)) (hr : r ≠ []) :
    readMember value' (xs ++ ys) = some (m, r ++ ys) := by
  unfold readMember at h
  split at h
  · cases h
  · rename_i b rest hskip
    split at h
    · rename_i hquote
      obtain ⟨⟨k, rest'⟩, hk, hmem⟩ := Option.bind_eq_some_iff.mp h
      dsimp only at hmem
      split at hmem
      · cases hmem
      · rename_i c t hskip'
        split at hmem
        · rename_i hcolon
          obtain ⟨⟨v, r'⟩, hv, heq⟩ := Option.map_eq_some_iff.mp hmem
          cases heq
          -- The key and the colon are inside the shorter text; only the value is read further.
          rw [readMember, skip_append hskip ys]
          simp only [if_pos hquote, readKey_append ys hk, Option.bind_some, skip_append hskip' ys,
            if_pos hcolon, hvalue hv hr, Option.map_some]
        · cases hmem
    · cases h

theorem readWord_append_right {word xs r : Bytes} {v w : Json} (ys : Bytes)
    (h : readWord word v xs = some (w, r)) : readWord word v (xs ++ ys) = some (w, r ++ ys) := by
  unfold readWord at h
  split at h
  · rename_i hpart
    cases h
    rw [readWord, if_pos (hpart.trans (List.prefix_append xs ys)),
      List.drop_append_of_le_length hpart.length_le]
  · cases h

theorem readValue_append {fuel fuel' : ℕ} (hfuel : fuel ≤ fuel') {xs r : Bytes} {v : Json}
    (ys : Bytes) (h : readValue fuel xs = some (v, r)) (hend : r ≠ [] ∨ ∃ ms, v = .obj ms) :
    readValue fuel' (xs ++ ys) = some (v, r ++ ys) := by
  induction fuel generalizing fuel' xs v r with
  | zero => cases h
  | succ fuel ih =>
      obtain ⟨fuel', rfl⟩ : ∃ k, fuel' = k + 1 := ⟨fuel' - 1, by omega⟩
      have hle : fuel ≤ fuel' := Nat.le_of_succ_le_succ hfuel
      have hitem : ∀ {xs v r}, readValue fuel xs = some (v, r) → r ≠ [] →
          readValue fuel' (xs ++ ys) = some (v, r ++ ys) := fun hread hne => ih hle hread (.inl hne)
      cases hskip : skip xs with
      | nil => rw [readValue, hskip] at h; cases h
      | cons b rest =>
          rw [readValue_of_skip hskip] at h
          rw [readValue_of_skip (skip_append hskip ys)]
          split at h
          · rename_i hb
            obtain ⟨⟨k, r'⟩, hk, heq⟩ := Option.map_eq_some_iff.mp h
            cases heq
            rw [if_pos hb, readKey_append ys hk]
            rfl
          rename_i hquote
          rw [if_neg hquote]
          split at h
          · rename_i hb
            obtain ⟨⟨vs, r'⟩, hvs, heq⟩ := Option.map_eq_some_iff.mp h
            cases heq
            rw [if_pos hb, readList_append hitem hvs]
            rfl
          rename_i hbracket
          rw [if_neg hbracket]
          split at h
          · rename_i hb
            obtain ⟨⟨ms, r'⟩, hms, heq⟩ := Option.map_eq_some_iff.mp h
            cases heq
            rw [if_pos hb, readList_append (fun hm hne => readMember_append hitem hm hne) hms]
            rfl
          rename_i hbrace
          rw [if_neg hbrace]
          -- Only a number looks at what follows it.
          have hnumber : ∀ {f : ℕ → ℤ} {bs : Bytes},
              (readNat bs).map (fun q => (Json.num (f q.1), q.2)) = some (v, r) →
              (readNat (bs ++ ys)).map (fun q => (Json.num (f q.1), q.2)) = some (v, r ++ ys) := by
            intro f bs hmap
            obtain ⟨⟨n, r'⟩, hn, heq⟩ := Option.map_eq_some_iff.mp hmap
            cases heq
            rcases hend with hne | ⟨ms, hms⟩
            · rw [readNat_append ys hn hne]
              rfl
            · cases hms
          split at h
          · rename_i hb
            rw [if_pos hb]
            exact hnumber (f := fun n => -n) h
          rename_i hminus
          rw [if_neg hminus]
          split at h
          · rename_i hb
            rw [if_pos hb, ← List.cons_append]
            exact hnumber (f := fun n => n) h
          rename_i hdigit
          rw [if_neg hdigit, ← List.cons_append]
          split at h
          · rename_i hb
            rw [if_pos hb]
            exact readWord_append_right ys h
          rename_i hnull
          rw [if_neg hnull]
          split at h
          · rename_i hb
            rw [if_pos hb]
            exact readWord_append_right ys h
          · rename_i hb
            rw [if_neg hb]
            exact readWord_append_right ys h

/-- A text that starts with a brace can only be read as an object. -/
theorem readValue_openBrace {fuel : ℕ} {bs r : Bytes} {v : Json}
    (h : readValue fuel (openBrace :: bs) = some (v, r)) : ∃ ms, v = .obj ms := by
  cases fuel with
  | zero => cases h
  | succ fuel =>
      rw [readValue_of_skip (skip_cons (by decide) _), if_neg (by decide), if_neg (by decide),
        if_pos rfl] at h
      obtain ⟨⟨ms, r'⟩, -, heq⟩ := Option.map_eq_some_iff.mp h
      cases heq
      exact ⟨ms, rfl⟩

/-- No strict prefix of a printed object parses. -/
theorem parse_prefix (members : List (String × Json)) {p : Bytes} (hp : p <+: print (.obj members))
    (hne : p ≠ print (.obj members)) : parse p = none := by
  obtain ⟨q, hq⟩ := hp
  cases hread : parse p with
  | none => rfl
  | some w =>
      obtain ⟨⟨w', r⟩, hvalue, hend⟩ := Option.bind_eq_some_iff.mp hread
      -- What is read from the prefix is an object, as the first byte is a brace.
      have hobj : ∃ ms, w' = .obj ms := by
        cases p with
        | nil => cases hvalue
        | cons b p =>
            have hb : b = openBrace := by
              rw [print] at hq
              exact (List.cons.inj hq).1
            subst hb
            exact readValue_openBrace hvalue
      have hlen : p.length ≤ (print (.obj members)).length := by
        rw [← hq, List.length_append]
        omega
      have hwhole := readValue_append hlen q hvalue (.inr hobj)
      -- Two readings of the whole text: one leaves all of `q`, the other nothing.
      have hprint := readValue_print (.obj members) (r := []) le_rfl (by rintro b ⟨⟩)
      rw [List.append_nil] at hprint
      rw [hq, hprint] at hwhole
      cases List.append_eq_nil_iff.mp (congrArg Prod.snd (Option.some.inj hwhole)).symm with
      | intro _ hnil =>
          rw [hnil, List.append_nil] at hq
          exact absurd hq hne

/-! ## A printed value is one line -/

theorem newline_not_mem_escape (b : UInt8) : newline ∉ escape b := by
  unfold escape
  split
  · rename_i letter h
    unfold escapeLetter? at h
    split_ifs at h <;> cases h <;> decide
  · rename_i h
    split
    · rename_i hlt
      -- A control character is written in hexadecimal digits.
      have hall : ∀ n < 32, newline ∉ [backslash, 117, 48, 48, hexDigit (n / 16), hexDigit (n % 16)] :=
        by decide
      exact hall b.toNat (UInt8.lt_iff_toNat_lt.mp hlt)
    · rintro hmem
      obtain rfl := List.mem_singleton.mp hmem
      cases h

theorem newline_not_mem_printString (s : String) : newline ∉ printString s := by
  intro h
  rcases List.mem_cons.mp h with h | h
  · cases h
  · rcases List.mem_append.mp h with h | h
    · obtain ⟨b, -, hb⟩ := List.mem_flatMap.mp h
      exact newline_not_mem_escape b hb
    · cases List.mem_singleton.mp h

theorem newline_not_mem_natBytes (n : ℕ) : newline ∉ natBytes n := fun h => by
  cases isDigit_of_mem_natBytes h

theorem newline_not_mem_closeList {close : UInt8} (hclose : newline ≠ close) {items : List Bytes}
    (h : ∀ item ∈ items, newline ∉ item) : newline ∉ closeList close items := by
  rw [closeList_eq]
  exact Separated.notMem_closeList (by decide) hclose h

theorem newline_not_mem_print (v : Json) : newline ∉ print v := by
  -- On the value; strings are the only place where a newline could have come in.
  induction v using Json.induction with
  | hnull => decide
  | hbool b => cases b <;> decide
  | hnum n =>
      rw [print, printInt]
      split
      · intro h
        rcases List.mem_cons.mp h with h | h
        · cases h
        · exact newline_not_mem_natBytes _ h
      · exact newline_not_mem_natBytes _
  | hstr s =>
      rw [print]
      exact newline_not_mem_printString s
  | harr items ih =>
      rw [print, printItems_eq_map]
      intro h
      rcases List.mem_cons.mp h with h | h
      · cases h
      · refine newline_not_mem_closeList (by decide) ?_ h
        intro t ht
        obtain ⟨v, hv, rfl⟩ := List.mem_map.mp ht
        exact ih v hv
  | hobj members ih =>
      rw [print, printMembers_eq_map]
      intro h
      rcases List.mem_cons.mp h with h | h
      · cases h
      · refine newline_not_mem_closeList (by decide) ?_ h
        intro t ht
        obtain ⟨m, hm, rfl⟩ := List.mem_map.mp ht
        intro hmem
        rcases List.mem_append.mp hmem with hmem | hmem
        · exact newline_not_mem_printString _ hmem
        · rcases List.mem_cons.mp hmem with hmem | hmem
          · cases hmem
          · exact ih m hm hmem

/-- A printed object is its braces and what stands between them. -/
theorem print_obj (members : List (String × Json)) :
    ∃ t, print (.obj members) = openBrace :: (t ++ [closeBrace]) := by
  obtain ⟨t, ht⟩ := @Separated.closeList_eq_append _ comma closeBrace (printMembers members)
  exact ⟨t, by rw [print, closeList_eq, ht]⟩

end Json
