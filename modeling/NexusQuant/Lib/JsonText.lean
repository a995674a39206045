import NexusQuant.Lib.JsValue
import NexusQuant.Lib.Separated

/-!
# JSON texts as characters

`parse` reads a text the way `JSON.parse` does, with the numbers as they are written.  A string is read
in two steps, since two escapes may stand for one character.  What `JSON.stringify` writes of strings,
arrays and objects is read back.
-/

namespace JsonText

def isSpace (c : Char) : Bool := c = ' ' || c = '\t' || c = '\n' || c = '\r'

def skip (cs : List Char) : List Char := cs.dropWhile isSpace

/-! ## Strings -/

/-- A character, or the code unit of a four-digit escape. -/
inductive Piece where
  | char (c : Char)
  | unit (n : ℕ)
deriving DecidableEq, Repr

def hexValue? (c : Char) : Option ℕ :=
  if '0' ≤ c ∧ c ≤ '9' then some (c.toNat - 48)
  else if 'a' ≤ c ∧ c ≤ 'f' then some (c.toNat - 87)
  else if 'A' ≤ c ∧ c ≤ 'F' then some (c.toNat - 55)
  else none

def unit? (h₁ h₂ h₃ h₄ : Char) : Option ℕ := do
  return ((((← hexValue? h₁) * 16 + (← hexValue? h₂)) * 16 + (← hexValue? h₃)) * 16 + (← hexValue? h₄))

/-- What the letter of a two-character escape stands for. -/
def unescape? (letter : Char) : Option Char :=
  if letter = '"' then some '"'
  else if letter = '\\' then some '\\'
  else if letter = '/' then some '/'
  else if letter = 'b' then some '\x08'
  else if letter = 't' then some '\t'
  else if letter = 'n' then some '\n'
  else if letter = 'f' then some '\x0c'
  else if letter = 'r' then some '\r'
  else none

/-- The pieces of a string up to its closing quote. -/
def readPieces : List Char → Option (List Piece × List Char)
  | [] => none
  | c :: cs =>
      -- An unescaped control character is refused.
      if c = '"' then some ([], cs)
      else if c = '\\' then
        match cs with
        | [] => none
        | letter :: cs =>
            if letter = 'u' then
              match cs with
              | h₁ :: h₂ :: h₃ :: h₄ :: cs =>
                  (unit? h₁ h₂ h₃ h₄).bind fun n => (readPieces cs).map fun r => (.unit n :: r.1, r.2)
              | _ => none
            else (unescape? letter).bind fun c => (readPieces cs).map fun r => (.char c :: r.1, r.2)
      else if c.toNat < 32 then none
      else (readPieces cs).map fun r => (.char c :: r.1, r.2)

def isHigh (n : ℕ) : Bool := 0xd800 ≤ n && n < 0xdc00

def isLow (n : ℕ) : Bool := 0xdc00 ≤ n && n < 0xe000

/-- The character of a code unit, the replacement character for a surrogate without its partner. -/
def unitChar (n : ℕ) : Char := if isHigh n || isLow n then '\ufffd' else Char.ofNat n

def pairChar (high low : ℕ) : Char := Char.ofNat (0x10000 + (high - 0xd800) * 0x400 + (low - 0xdc00))

/-- The characters of the pieces: a high surrogate and a low one behind it are one character. -/
def assemble : List Piece → List Char
  | [] => []
  | .char c :: ps => c :: assemble ps
  | .unit n :: .unit m :: ps =>
      if isHigh n && isLow m then pairChar n m :: assemble ps else unitChar n :: assemble (.unit m :: ps)
  | .unit n :: ps => unitChar n :: assemble ps

def readString (cs : List Char) : Option (String × List Char) :=
  (readPieces cs).map fun r => (String.ofList (assemble r.1), r.2)

/-! ## Numbers -/

/-- Digits, at least one. -/
def readDigits (cs : List Char) : Option (List Char × List Char) :=
  if (cs.takeWhile Char.isDigit).isEmpty then none
  else some (cs.takeWhile Char.isDigit, cs.dropWhile Char.isDigit)

/-- Digits without a leading zero. -/
def readWhole (cs : List Char) : Option (List Char × List Char) :=
  (readDigits cs).bind fun r => if 1 < r.1.length ∧ r.1.head? = some '0' then none else some r

def readFraction : List Char → Option (List Char × List Char)
  | [] => some ([], [])
  | c :: cs => if c = '.' then readDigits cs else some ([], c :: cs)

def digitsValue (ds : List Char) : ℕ := Nat.ofDigitChars 10 ds 0

def readSignedExponent : List Char → Option (ℤ × List Char)
  | [] => none
  | c :: cs =>
      if c = '-' then (readDigits cs).map fun r => (-(digitsValue r.1 : ℤ), r.2)
      else if c = '+' then (readDigits cs).map fun r => ((digitsValue r.1 : ℤ), r.2)
      else (readDigits (c :: cs)).map fun r => ((digitsValue r.1 : ℤ), r.2)

def readExponent : List Char → Option (ℤ × List Char)
  | [] => some (0, [])
  | c :: cs => if c = 'e' ∨ c = 'E' then readSignedExponent cs else some (0, c :: cs)

/-- A number without its sign. -/
def readUnsigned (cs : List Char) : Option (ℚ × List Char) := do
  let whole ← readWhole cs
  let fraction ← readFraction whole.2
  let exponent ← readExponent fraction.2
  let value := (digitsValue (whole.1 ++ fraction.1) : ℚ) / 10 ^ fraction.1.length
  return (value * 10 ^ exponent.1, exponent.2)

/-! ## Values -/

section List

variable {α : Type} (item : List Char → Option (α × List Char)) (close : Char)

/-- One item, then either the closing character or a comma and more items. -/
def readItems : ℕ → List Char → Option (List α × List Char)
  | 0, _ => none
  | fuel + 1, cs =>
      (item cs).bind fun r =>
        -- The fuel is spent on items, and there are at most as many as characters.
        match skip r.2 with
        | [] => none
        | c :: rest =>
            if c = close then some ([r.1], rest)
            else if c = ',' then (readItems fuel rest).map fun rs => (r.1 :: rs.1, rs.2)
            else none

def readList (cs : List Char) : Option (List α × List Char) :=
  match skip cs with
  | [] => none
  | c :: rest => if c = close then some ([], rest) else readItems item close cs.length cs

end List

/-- A key, a colon and a value. -/
def readMember (value : List Char → Option (JsValue × List Char)) (cs : List Char) :
    Option ((String × JsValue) × List Char) :=
  match skip cs with
  | [] => none
  | c :: rest =>
      if c = '"' then
        (readString rest).bind fun k =>
          match skip k.2 with
          | [] => none
          | c :: rest => if c = ':' then (value rest).map fun v => ((k.1, v.1), v.2) else none
      else none

/-- The members of an object: of members with one key the last counts. -/
def ofMembers (members : List (String × JsValue)) : JsValue :=
  .obj (members.foldl (fun d m => Dict.set d m.1 m.2) [])

/-- A literal word. -/
def readWord (word : List Char) (v : JsValue) (cs : List Char) : Option (JsValue × List Char) :=
  if word <+: cs then some (v, cs.drop word.length) else none

def readValue : ℕ → List Char → Option (JsValue × List Char)
  | 0, _ => none
  | fuel + 1, cs =>
      match skip cs with
      | [] => none
      | c :: rest =>
          if c = '"' then (readString rest).map fun r => (.str r.1, r.2)
          else if c = '[' then (readList (readValue fuel) ']' rest).map fun r => (.arr r.1, r.2)
          else if c = '\x7b' then
            (readList (readMember (readValue fuel)) '\x7d' rest).map fun r => (ofMembers r.1, r.2)
          else if c = '-' then (readUnsigned rest).map fun r => (.num (.fin (-r.1)), r.2)
          else if c.isDigit then (readUnsigned (c :: rest)).map fun r => (.num (.fin r.1), r.2)
          else if c = 'n' then readWord ['n', 'u', 'l', 'l'] .null (c :: rest)
          else if c = 't' then readWord ['t', 'r', 'u', 'e'] (.bool true) (c :: rest)
          else readWord ['f', 'a', 'l', 's', 'e'] (.bool false) (c :: rest)

/-- `JSON.parse`, nothing where it throws: a value and only white space after it.  A number is the one
that is written; the nearest double, which is zero for `1e-400` and infinite for `1e400`, is not taken. -/
def parse (text : String) : Option JsValue :=
  (readValue text.toList.length text.toList).bind fun r => if skip r.2 = [] then some r.1 else none

/-! ## Writing -/

/-- The letter of a two-character escape. -/
def escapeLetter? (c : Char) : Option Char :=
  if c = '"' then some '"'
  else if c = '\\' then some '\\'
  else if c = '\x08' then some 'b'
  else if c = '\t' then some 't'
  else if c = '\n' then some 'n'
  else if c = '\x0c' then some 'f'
  else if c = '\r' then some 'r'
  else none

/-- A character of a string, as `JSON.stringify` writes it. -/
def escape (c : Char) : List Char :=
  match escapeLetter? c with
  | some letter => ['\\', letter]
  | none =>
      if c.toNat < 32 then
        ['\\', 'u', '0', '0', Nat.digitChar (c.toNat / 16), Nat.digitChar (c.toNat % 16)]
      else [c]

def quoted (s : String) : List Char := '"' :: (s.toList.flatMap escape ++ ['"'])

/-- The texts of the items, separated by commas and closed. -/
def closeList (close : Char) : List (List Char) → List Char
  | [] => [close]
  | [item] => item ++ [close]
  | item :: items => item ++ ',' :: closeList close items

def arrayText (items : List (List Char)) : List Char := '[' :: closeList ']' items

def memberText (key : String) (value : List Char) : List Char := quoted key ++ ':' :: value

def objectText (members : List (List Char)) : List Char := '\x7b' :: closeList '\x7d' members

/-! ## Reading what was written -/

/-- A text that starts neither with white space nor with a closing character. -/
def Opens (text : List Char) : Prop :=
  ∃ c t, text = c :: t ∧ isSpace c = false ∧ c ≠ ']' ∧ c ≠ '\x7d'

/-- A text that is read as the value, whatever follows it. -/
def Writes (text : List Char) (v : JsValue) : Prop :=
  Opens text ∧ ∀ fuel r, text.length ≤ fuel → readValue fuel (text ++ r) = some (v, r)

/-- What can stand behind a number: nothing that would go on with it. -/
def Ends (r : List Char) : Prop := ∀ c ∈ r.head?, c.isDigit = false ∧ c ≠ '.' ∧ c ≠ 'e' ∧ c ≠ 'E'

/-- A text that is read as the value, as far as it goes. -/
def WritesUpTo (text : List Char) (v : JsValue) : Prop :=
  Opens text ∧ ∀ fuel r, text.length ≤ fuel → Ends r → readValue fuel (text ++ r) = some (v, r)

theorem Writes.upTo {text : List Char} {v : JsValue} (h : Writes text v) : WritesUpTo text v :=
  ⟨h.1, fun fuel r hfuel _ => h.2 fuel r hfuel⟩

theorem skip_cons {c : Char} (h : isSpace c = false) (cs : List Char) : skip (c :: cs) = c :: cs := by
  rw [skip, List.dropWhile_cons, h]
  rfl

theorem unescape?_of_escapeLetter? {c letter : Char} (h : escapeLetter? c = some letter) :
    unescape? letter = some c ∧ letter ≠ 'u' := by
  unfold escapeLetter? at h
  split_ifs at h with h₁ h₂ h₃ h₄ h₅ h₆ h₇ <;> cases h <;> subst_vars <;> decide

theorem unit?_control :
    ∀ n < 32, unit? '0' '0' (Nat.digitChar (n / 16)) (Nat.digitChar (n % 16)) = some n := by
  decide

theorem readPieces_cons (c : Char) (cs : List Char) :
    readPieces (c :: cs) =
      if c = '"' then some ([], cs)
      else if c = '\\' then
        match cs with
        | [] => none
        | letter :: cs =>
            if letter = 'u' then
              match cs with
              | h₁ :: h₂ :: h₃ :: h₄ :: cs =>
                  (unit? h₁ h₂ h₃ h₄).bind fun n => (readPieces cs).map fun r => (.unit n :: r.1, r.2)
              | _ => none
            else (unescape? letter).bind fun c => (readPieces cs).map fun r => (.char c :: r.1, r.2)
      else if c.toNat < 32 then none
      else (readPieces cs).map fun r => (.char c :: r.1, r.2) := by
  rw [readPieces.eq_def]

/-- The piece a written character is read as. -/
def pieceOf (c : Char) : Piece :=
  if escapeLetter? c = none ∧ c.toNat < 32 then .unit c.toNat else .char c

theorem readPieces_escape (c : Char) (cs : List Char) :
    readPieces (escape c ++ cs) = (readPieces cs).map fun r => (pieceOf c :: r.1, r.2) := by
  unfold escape pieceOf
  -- How the character was written: with a letter, as a four-digit escape, or as it is.
  cases hletter : escapeLetter? c with
  | some letter =>
      obtain ⟨hunescape, hne⟩ := unescape?_of_escapeLetter? hletter
      rw [List.cons_append, readPieces_cons, if_neg (by decide), if_pos rfl]
      simp only [List.cons_append, List.nil_append, if_neg hne, hunescape, Option.bind_some, reduceCtorEq,
        false_and, if_false]
  | none =>
      by_cases hlt : c.toNat < 32
      · have hunit := unit?_control c.toNat hlt
        simp only [if_pos hlt]
        rw [List.cons_append, readPieces_cons, if_neg (by decide), if_pos rfl]
        simp only [List.cons_append, List.nil_append, if_true, hunit, Option.bind_some, hlt, and_self]
      · have hquote : c ≠ '"' := by rintro rfl; cases hletter
        have hslash : c ≠ '\\' := by rintro rfl; cases hletter
        simp only [if_neg hlt]
        rw [List.singleton_append, readPieces_cons, if_neg hquote, if_neg hslash, if_neg hlt]
        simp only [hlt, and_false, if_false]

theorem readPieces_flatMap (cs r : List Char) :
    readPieces (cs.flatMap escape ++ '"' :: r) = some (cs.map pieceOf, r) := by
  induction cs with
  | nil => rw [List.flatMap_nil, List.nil_append, readPieces_cons, if_pos rfl]; rfl
  | cons c cs ih =>
      rw [List.flatMap_cons, List.append_assoc, readPieces_escape, ih]
      rfl

theorem assemble_unit {n : ℕ} (hn : n < 0xd800) (ps : List Piece) :
    assemble (.unit n :: ps) = Char.ofNat n :: assemble ps := by
  have hhigh : isHigh n = false := by
    simp only [isHigh, Bool.and_eq_false_iff, decide_eq_false_iff_not]
    omega
  have hlow : isLow n = false := by
    simp only [isLow, Bool.and_eq_false_iff, decide_eq_false_iff_not]
    omega
  have hchar : unitChar n = Char.ofNat n := by
    rw [unitChar, hhigh, hlow]
    rfl
  rcases ps with _ | ⟨_ | m, ps⟩
  · show unitChar n :: assemble [] = _
    rw [hchar]
  · show unitChar n :: assemble _ = _
    rw [hchar]
  · show (if isHigh n && isLow m then _ else unitChar n :: assemble (.unit m :: ps)) = _
    rw [hhigh, hchar]
    rfl

/-- An escaped control character is no surrogate, so no partner is looked for. -/
theorem assemble_pieces (cs : List Char) : assemble (cs.map pieceOf) = cs := by
  induction cs with
  | nil => rfl
  | cons c cs ih =>
      rw [List.map_cons]
      by_cases hcontrol : escapeLetter? c = none ∧ c.toNat < 32
      · have hlt : c.toNat < 0xd800 := by omega
        rw [pieceOf, if_pos hcontrol, assemble_unit hlt, ih, Char.ofNat_toNat]
      · rw [pieceOf, if_neg hcontrol, assemble, ih]

theorem readString_quoted (s : String) (r : List Char) :
    readString (s.toList.flatMap escape ++ '"' :: r) = some (s, r) := by
  rw [readString, readPieces_flatMap, Option.map_some, assemble_pieces, String.ofList_toList]

theorem closeList_eq (close : Char) (items : List (List Char)) :
    closeList close items = Separated.closeList ',' close items := by
  induction items with
  | nil => rfl
  | cons i is ih =>
      cases is with
      | nil => rfl
      | cons j js =>
          show i ++ ',' :: closeList close (j :: js) = _
          rw [ih]
          rfl

theorem length_lt_closeList {close : Char} {items : List (List Char)} {item : List Char}
    (h : item ∈ items) : item.length < (closeList close items).length := by
  rw [closeList_eq]
  exact Separated.length_lt_closeList h

theorem closeList_eq_append (close : Char) (items : List (List Char)) :
    ∃ t, closeList close items = t ++ [close] := by
  rw [closeList_eq]
  exact Separated.closeList_eq_append items

section List

variable {α β : Type} {item : List Char → Option (α × List Char)} {close : Char} {write : β → List Char}
  {value : β → α}

theorem readItems_eq (fuel : ℕ) (cs : List Char) :
    readItems item close fuel cs = Separated.readItems skip item ',' close fuel cs := by
  induction fuel generalizing cs with
  | zero => rfl
  | succ fuel ih =>
      simp only [readItems, Separated.readItems, ih]
      cases item cs with
      | none => rfl
      | some r =>
          dsimp only [Option.bind_some]
          cases skip r.2 <;> rfl

theorem readList_eq (cs : List Char) :
    readList item close cs = Separated.readList skip item ',' close cs := by
  simp only [readList, Separated.readList, readItems_eq]
  cases skip cs <;> rfl

theorem readList_closeList (hclose : close = ']' ∨ close = '\x7d') {xs : List β}
    (hitem : ∀ x ∈ xs, ∀ r, Ends r → item (write x ++ r) = some (value x, r))
    (hopens : ∀ x ∈ xs, Opens (write x)) (r : List Char) :
    readList item close (closeList close (xs.map write) ++ r) = some (xs.map value, r) := by
  have hfacts : isSpace close = false ∧ close ≠ ',' ∧ close.isDigit = false ∧ close ≠ '.' ∧
      close ≠ 'e' ∧ close ≠ 'E' := by rcases hclose with rfl | rfl <;> decide
  obtain ⟨hspace, hne, hnumber⟩ := hfacts
  have hcomma : ∀ r, skip (',' :: r) = ',' :: r := skip_cons rfl
  -- A number ends at the closing character and at the comma.
  have hends : ∀ r, Ends (close :: r) := by rintro r c ⟨rfl⟩; exact hnumber
  have hgoes : ∀ r, Ends (',' :: r) := by rintro r c ⟨rfl⟩; decide
  rw [readList_eq, closeList_eq]
  apply Separated.readList_closeList (skip_cons hspace) hcomma hne hends hgoes hitem
  intro x hx
  obtain ⟨c, t, htext, hcspace, hbracket, hbrace⟩ := hopens x hx
  have hopen : c ≠ close := by rcases hclose with rfl | rfl <;> assumption
  exact ⟨c, t, htext, hopen, skip_cons hcspace⟩

end List

theorem opens_quoted (s : String) : Opens (quoted s) := ⟨'"', _, rfl, by decide, by decide, by decide⟩

theorem writes_quoted (s : String) : Writes (quoted s) (.str s) := by
  apply And.intro (opens_quoted s)
  intro fuel r hfuel
  cases fuel with
  | zero => cases hfuel
  | succ fuel =>
      have htext : quoted s ++ r = '"' :: (s.toList.flatMap escape ++ '"' :: r) := by simp [quoted]
      rw [htext, readValue, skip_cons (by decide)]
      dsimp only
      rw [if_pos rfl, readString_quoted]
      rfl

theorem readMember_memberText {fuel : ℕ} {key : String} {text r : List Char} {v : JsValue}
    (h : readValue fuel (text ++ r) = some (v, r)) :
    readMember (readValue fuel) (memberText key text ++ r) = some ((key, v), r) := by
  have htext : memberText key text ++ r =
      '"' :: (key.toList.flatMap escape ++ '"' :: (':' :: (text ++ r))) := by simp [memberText, quoted]
  rw [htext, readMember, skip_cons (by decide)]
  dsimp only
  rw [if_pos rfl, readString_quoted, Option.bind_some, skip_cons (by decide)]
  dsimp only
  rw [if_pos rfl, h]
  rfl

theorem writes_array_upTo {items : List (List Char × JsValue)} (h : ∀ i ∈ items, WritesUpTo i.1 i.2) :
    Writes (arrayText (items.map Prod.fst)) (.arr (items.map Prod.snd)) := by
  refine ⟨⟨'[', _, rfl, by decide, by decide, by decide⟩, ?_⟩
  intro fuel r hfuel
  cases fuel with
  | zero => cases hfuel
  | succ fuel =>
      have hread := @readList_closeList _ _ (readValue fuel) ']' Prod.fst Prod.snd (.inl rfl) items
        (fun i hi r hr => by
          apply (h i hi).2 _ _ _ hr
          have hlt := @length_lt_closeList ']' _ _ (List.mem_map_of_mem (f := Prod.fst) hi)
          rw [arrayText, List.length_cons] at hfuel
          omega)
        (fun i hi => (h i hi).1) r
      rw [arrayText, List.cons_append, readValue, skip_cons (by decide)]
      dsimp only
      rw [if_neg (by decide), if_pos rfl, hread]
      rfl

theorem writes_array {items : List (List Char × JsValue)} (h : ∀ i ∈ items, Writes i.1 i.2) :
    Writes (arrayText (items.map Prod.fst)) (.arr (items.map Prod.snd)) :=
  writes_array_upTo fun i hi => (h i hi).upTo

/-- The members of an object may be numbers: each ends at the comma or at the brace. -/
theorem writes_object_upTo {members : List (String × List Char × JsValue)}
    (h : ∀ m ∈ members, WritesUpTo m.2.1 m.2.2) :
    Writes (objectText (members.map fun m => memberText m.1 m.2.1))
      (ofMembers (members.map fun m => (m.1, m.2.2))) := by
  refine ⟨⟨'\x7b', _, rfl, by decide, by decide, by decide⟩, ?_⟩
  intro fuel r hfuel
  cases fuel with
  | zero => cases hfuel
  | succ fuel =>
      have hread := @readList_closeList _ _ (readMember (readValue fuel)) '\x7d'
        (fun m : String × List Char × JsValue => memberText m.1 m.2.1) (fun m => (m.1, m.2.2)) (.inr rfl)
        members
        (fun m hm r hr => by
          apply readMember_memberText
          apply (h m hm).2 _ _ _ hr
          have hlt := @length_lt_closeList '\x7d' _ _
            (List.mem_map_of_mem (f := fun m : String × List Char × JsValue => memberText m.1 m.2.1) hm)
          rw [memberText, List.length_append, List.length_cons] at hlt
          rw [objectText, List.length_cons] at hfuel
          omega)
        (fun m hm => ⟨'"', _, rfl, by decide, by decide, by decide⟩) r
      rw [objectText, List.cons_append, readValue, skip_cons (by decide)]
      dsimp only
      rw [if_neg (by decide), if_neg (by decide), if_pos rfl, hread]
      rfl

theorem writes_object {members : List (String × List Char × JsValue)}
    (h : ∀ m ∈ members, Writes m.2.1 m.2.2) :
    Writes (objectText (members.map fun m => memberText m.1 m.2.1))
      (ofMembers (members.map fun m => (m.1, m.2.2))) :=
  writes_object_upTo fun m hm => (h m hm).upTo

theorem parse_of_writesUpTo {text : List Char} {v : JsValue} (h : WritesUpTo text v) :
    parse (String.ofList text) = some v := by
  have hread := h.2 text.length [] le_rfl fun c hc => nomatch hc
  rw [List.append_nil] at hread
  rw [parse, String.toList_ofList, hread]
  rfl

theorem parse_of_writes {text : List Char} {v : JsValue} (h : Writes text v) :
    parse (String.ofList text) = some v := parse_of_writesUpTo h.upTo

/-! ### Integers -/

/-- The digits of a number do not begin with a zero, unless it is zero. -/
theorem head?_toDigits (n : ℕ) : (Nat.toDigits 10 n).head? = some '0' → n = 0 := by
  induction n using Nat.strong_induction_on with
  | h n ih =>
      rw [Nat.toDigits_eq_if (by decide)]
      by_cases hn : n < 10
      · rw [if_pos hn]
        have hdigit : ∀ d < 10, Nat.digitChar d = '0' → d = 0 := by decide
        exact fun hhead => hdigit n hn (Option.some.inj hhead)
      · rw [if_neg hn, List.head?_append_of_ne_nil _ Nat.toDigits_ne_nil]
        intro hhead
        have hzero := ih (n / 10) (by omega) hhead
        omega

theorem readUnsigned_toDigits (n : ℕ) {r : List Char} (hr : Ends r) :
    readUnsigned (Nat.toDigits 10 n ++ r) = some ((n : ℚ), r) := by
  have hdigits : ∀ c ∈ Nat.toDigits 10 n, c.isDigit := fun c hc =>
    Nat.isDigit_of_mem_toDigits (by decide) (by decide) hc
  have htake : (Nat.toDigits 10 n ++ r).takeWhile Char.isDigit = Nat.toDigits 10 n := by
    rw [List.takeWhile_append_of_pos hdigits]
    cases r with
    | nil => rw [List.takeWhile_nil, List.append_nil]
    | cons c r => rw [List.takeWhile_cons, (hr c rfl).1]; exact List.append_nil _
  have hdrop : (Nat.toDigits 10 n ++ r).dropWhile Char.isDigit = r := by
    rw [List.dropWhile_append_of_pos hdigits]
    cases r with
    | nil => rfl
    | cons c r => rw [List.dropWhile_cons, (hr c rfl).1]; rfl
  have hwhole : readWhole (Nat.toDigits 10 n ++ r) = some (Nat.toDigits 10 n, r) := by
    have hread : readDigits (Nat.toDigits 10 n ++ r) = some (Nat.toDigits 10 n, r) := by
      unfold readDigits
      rw [htake, hdrop, if_neg (by simp [Nat.toDigits_ne_nil])]
    unfold readWhole
    rw [hread, Option.bind_some, if_neg]
    rintro ⟨hlong, hhead⟩
    rw [head?_toDigits n hhead] at hlong
    exact absurd hlong (Nat.lt_irrefl 1)
  have hfraction : readFraction r = some ([], r) := by
    cases r with
    | nil => rfl
    | cons c r => exact if_neg (hr c rfl).2.1
  have hexponent : readExponent r = some (0, r) := by
    cases r with
    | nil => rfl
    | cons c r => exact if_neg (not_or.mpr (hr c rfl).2.2)
  unfold readUnsigned
  rw [hwhole]
  dsimp only [bind, Option.bind_some]
  rw [hfraction]
  dsimp only [Option.bind_some]
  rw [hexponent]
  simp [digitsValue, pure, Nat.ofDigitChars_ten_toDigits]

theorem ne_of_isDigit {b c : Char} (hb : b.isDigit = true) (hc : c.isDigit = false) : b ≠ c := by
  rintro rfl
  rw [hb] at hc
  cases hc

/-- The digits of an integer, with a sign below zero. -/
def intText (n : ℤ) : List Char := (if n < 0 then ['-'] else []) ++ Nat.toDigits 10 n.natAbs

theorem writesUpTo_intText (n : ℤ) : WritesUpTo (intText n) (.num (.fin n)) := by
  obtain ⟨c, cs, hcs⟩ := List.exists_cons_of_ne_nil (@Nat.toDigits_ne_nil n.natAbs 10)
  have hdigit : c.isDigit := Nat.isDigit_of_mem_toDigits (by decide) (by decide)
    (hcs ▸ List.mem_cons_self : c ∈ Nat.toDigits 10 n.natAbs)
  have hspace : isSpace c = false := by
    simp [isSpace, ne_of_isDigit hdigit]
  unfold intText
  by_cases hneg : n < 0
  · rw [if_pos hneg]
    refine ⟨⟨'-', _, rfl, by decide, by decide, by decide⟩, ?_⟩
    intro fuel r hfuel hr
    obtain ⟨fuel, rfl⟩ : ∃ k, fuel = k + 1 := ⟨fuel - 1, by simp at hfuel; omega⟩
    have hread := readUnsigned_toDigits n.natAbs hr
    rw [List.cons_append, List.nil_append, List.cons_append, readValue, skip_cons (by decide)]
    dsimp only
    rw [if_neg (by decide), if_neg (by decide), if_neg (by decide), if_pos rfl, hread]
    have hvalue : -(n.natAbs : ℚ) = n := by
      rw [Nat.cast_natAbs, abs_of_neg hneg]
      push_cast
      exact neg_neg _
    rw [Option.map_some, hvalue]
  · rw [if_neg hneg, List.nil_append]
    refine ⟨⟨c, cs, hcs, hspace, ne_of_isDigit hdigit rfl, ne_of_isDigit hdigit rfl⟩, ?_⟩
    intro fuel r hfuel hr
    obtain ⟨fuel, rfl⟩ : ∃ k, fuel = k + 1 := ⟨fuel - 1, by rw [hcs] at hfuel; simp at hfuel; omega⟩
    have hread := readUnsigned_toDigits n.natAbs hr
    rw [hcs, List.cons_append] at hread ⊢
    rw [readValue, skip_cons hspace]
    dsimp only
    rw [if_neg (ne_of_isDigit hdigit rfl), if_neg (ne_of_isDigit hdigit rfl),
      if_neg (ne_of_isDigit hdigit rfl), if_neg (ne_of_isDigit hdigit rfl), if_pos hdigit, hread]
    have hvalue : (n.natAbs : ℚ) = n := by
      rw [Nat.cast_natAbs, abs_of_nonneg (not_lt.mp hneg)]
    rw [Option.map_some, hvalue]

end JsonText
