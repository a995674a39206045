import Mathlib.Data.List.TakeWhile
import NexusQuant.Lib.JsNumber

/-!
# Decimal texts

`toFixed dp x` is the text of `x` with exactly `dp` decimals, and `number? text` the rational a
numeric text denotes.  A text written by `toFixed` is canonical and reads back as `roundTo dp x`.
-/

namespace DecimalText

open Rounding

/-! ## Reading -/

/-- The white space and line terminators that are trimmed off a numeric text. -/
def blanks : List Char :=
  [' ', '\t', '\n', '\r', '\x0b', '\x0c', '\u00a0', '\ufeff', '\u1680', '\u2000', '\u2001',
    '\u2002', '\u2003', '\u2004', '\u2005', '\u2006', '\u2007', '\u2008', '\u2009', '\u200a',
    '\u2028', '\u2029', '\u202f', '\u205f', '\u3000']

def isBlank (c : Char) : Bool := c ∈ blanks

def trim (cs : List Char) : List Char :=
  ((cs.dropWhile isBlank).reverse.dropWhile isBlank).reverse

/-- The exponent part of a decimal literal, absent or `e` with an optional sign and digits. -/
def exponent? : List Char → Option ℤ
  | [] => some 0
  | c :: cs =>
      if c ≠ 'e' ∧ c ≠ 'E' then none
      else
        let digits := if cs.head? = some '+' ∨ cs.head? = some '-' then cs.tail else cs
        if digits = [] ∨ ¬digits.all Char.isDigit then none
        else if cs.head? = some '-' then some (-Nat.ofDigitChars 10 digits 0)
        else some (Nat.ofDigitChars 10 digits 0)

/-- A decimal literal without its sign. -/
def unsigned? (cs : List Char) : Option ℚ :=
  let whole := cs.takeWhile Char.isDigit
  let rest := cs.dropWhile Char.isDigit
  let point := rest.head? = some '.'
  let frac := if point then rest.tail.takeWhile Char.isDigit else []
  let tail := if point then rest.tail.dropWhile Char.isDigit else rest
  if whole = [] ∧ frac = [] then none
  else (exponent? tail).map fun e =>
    (Nat.ofDigitChars 10 (whole ++ frac) 0 : ℚ) / 10 ^ frac.length * 10 ^ e

def digitValue (c : Char) : ℕ :=
  if c.isDigit then c.toNat - 48
  else if 'a' ≤ c ∧ c ≤ 'z' then c.toNat - 87
  else if 'A' ≤ c ∧ c ≤ 'Z' then c.toNat - 55
  else 36

/-- The base a literal announces with `0x`, `0o` or `0b`. -/
def radix? : List Char → Option ℕ
  | '0' :: c :: _ =>
      if c = 'x' ∨ c = 'X' then some 16
      else if c = 'o' ∨ c = 'O' then some 8
      else if c = 'b' ∨ c = 'B' then some 2
      else none
  | _ => none

/-- The finite number a text denotes; nothing for a text that denotes no number or an infinite
one.  The empty text denotes zero. -/
def number? (text : String) : Option ℚ :=
  let cs := trim text.toList
  if cs = [] then some 0
  else match radix? cs with
    | some base =>
        let digits := cs.drop 2
        if digits = [] ∨ ¬digits.all (digitValue · < base) then none
        else some (digits.foldl (fun n c => base * n + digitValue c) 0 : ℕ)
    | none =>
        if cs.head? = some '-' then (unsigned? cs.tail).map (-·)
        else if cs.head? = some '+' then unsigned? cs.tail
        else unsigned? cs

/-- `Number(text)`. -/
def toNumber (text : String) : JsNumber :=
  match number? text with
  | some q => .fin q
  | none =>
      let name := String.ofList (trim text.toList)
      if name = "Infinity" ∨ name = "+Infinity" then .posInf
      else if name = "-Infinity" then .negInf
      else .nan

/-- An optional minus sign, at least one digit, a point and exactly `dp` digits. -/
def isCanonical (dp : ℕ) (text : String) : Bool :=
  let cs := text.toList
  let unsigned := if cs.head? = some '-' then cs.tail else cs
  let rest := unsigned.dropWhile Char.isDigit
  !(unsigned.takeWhile Char.isDigit).isEmpty && rest.head? == some '.' &&
    rest.tail.all Char.isDigit && rest.tail.length == dp

/-! ## Writing -/

/-- `m` in exactly `dp` digits, for `m < 10ᵈᵖ`. -/
def padded (dp m : ℕ) : List Char :=
  List.replicate (dp - (Nat.toDigits 10 m).length) '0' ++ Nat.toDigits 10 m

/-- `m / 10ᵈᵖ` with `dp` decimals. -/
def magnitude (dp m : ℕ) : List Char :=
  Nat.toDigits 10 (m / 10 ^ dp) ++ '.' :: padded dp (m % 10 ^ dp)

def toFixed (dp : ℕ) (x : ℚ) : String :=
  -- The sign is that of the number, so a small negative one is written as `-0.00`.
  String.ofList ((if x < 0 then ['-'] else []) ++ magnitude dp (units dp x).natAbs)

/-- `x.toFixed(dp)` of a number that may be non-finite. -/
def jsToFixed (dp : ℕ) : JsNumber → String
  | .fin q => toFixed dp q
  | .nan => "NaN"
  | .posInf => "Infinity"
  | .negInf => "-Infinity"

/-- `String(x)`: the decimals of `x` up to the last one that is not zero, at most twenty. -/
def numberText (x : JsNumber) : String :=
  match x with
  | .fin q =>
      match (List.range 21).find? fun d => (q * 10 ^ d).den = 1 with
      | some 0 => toString q.num
      | some d => toFixed d q
      | none => toFixed 20 q
  | x => jsToFixed 0 x

/-- The text of `n / 10ᵈᵖ`, zero without a sign. -/
def fixedText (dp : ℕ) (n : ℤ) : String :=
  String.ofList ((if n < 0 then ['-'] else []) ++ magnitude dp n.natAbs)

section Digits

variable {dp m : ℕ}

theorem isDigit_of_mem_padded {c : Char} (hc : c ∈ padded dp m) : c.isDigit := by
  rcases List.mem_append.mp hc with h | h
  · rw [List.eq_of_mem_replicate h]
    rfl
  · exact Nat.isDigit_of_mem_toDigits (by decide) (by decide) h

theorem length_padded (hdp : 0 < dp) (hm : m < 10 ^ dp) : (padded dp m).length = dp := by
  have := (Nat.length_toDigits_le_iff (by decide : 1 < 10) hdp).mpr hm
  simp only [padded, List.length_append, List.length_replicate]
  omega

theorem ofDigitChars_append_padded (whole : ℕ) (hdp : 0 < dp) (hm : m < 10 ^ dp) :
    Nat.ofDigitChars 10 (Nat.toDigits 10 whole ++ padded dp m) 0 = whole * 10 ^ dp + m := by
  rw [Nat.ofDigitChars_append, Nat.ofDigitChars_ten_toDigits,
    Nat.ofDigitChars_eq_ofDigitChars_zero, length_padded hdp hm, padded, Nat.ofDigitChars_append,
    Nat.ofDigitChars_replicate_zero, mul_zero, Nat.ofDigitChars_ten_toDigits, mul_comm]

theorem ofDigitChars_padded : Nat.ofDigitChars 10 (padded dp m) 0 = m := by
  rw [padded, Nat.ofDigitChars_append, Nat.ofDigitChars_replicate_zero, mul_zero,
    Nat.ofDigitChars_ten_toDigits]

/-- A number of so many digits is below the power of ten. -/
theorem ofDigitChars_lt {cs : List Char} (h : ∀ c ∈ cs, c.isDigit) :
    Nat.ofDigitChars 10 cs 0 < 10 ^ cs.length := by
  have hinit : ∀ init, Nat.ofDigitChars 10 cs init < 10 ^ cs.length * (init + 1) := by
    induction cs with
    | nil => simp
    | cons c cs ih =>
        intro init
        rw [List.forall_mem_cons] at h
        have hdigit : c.toNat - '0'.toNat ≤ 9 := by
          have hc := h.1
          simp only [Char.isDigit, Bool.and_eq_true, decide_eq_true_eq, ge_iff_le,
            UInt32.le_iff_toNat_le] at hc
          have hhigh : c.toNat ≤ 57 := hc.2
          have hzero : '0'.toNat = 48 := rfl
          omega
        rw [Nat.ofDigitChars_cons, List.length_cons, pow_succ, mul_assoc]
        apply (ih h.2 _).trans_le
        apply Nat.mul_le_mul_left
        omega
  simpa using hinit 0

end Digits

section Magnitude

variable {dp : ℕ} (m : ℕ)

theorem takeWhile_magnitude : (magnitude dp m).takeWhile Char.isDigit =
    Nat.toDigits 10 (m / 10 ^ dp) := by
  rw [magnitude, List.takeWhile_append_of_pos
    fun c hc => Nat.isDigit_of_mem_toDigits (by decide) (by decide) hc]
  simp [show Char.isDigit '.' = false from rfl]

theorem dropWhile_magnitude : (magnitude dp m).dropWhile Char.isDigit =
    '.' :: padded dp (m % 10 ^ dp) := by
  rw [magnitude, List.dropWhile_append_of_pos
    fun c hc => Nat.isDigit_of_mem_toDigits (by decide) (by decide) hc]
  simp [show Char.isDigit '.' = false from rfl]

theorem unsigned?_magnitude (hdp : 0 < dp) : unsigned? (magnitude dp m) = some ((m : ℚ) / 10 ^ dp) := by
  have hm : m % 10 ^ dp < 10 ^ dp := Nat.mod_lt _ (by positivity)
  have htake : (padded dp (m % 10 ^ dp)).takeWhile Char.isDigit = padded dp (m % 10 ^ dp) :=
    List.takeWhile_eq_self_iff.mpr fun c hc => isDigit_of_mem_padded hc
  have hdrop : (padded dp (m % 10 ^ dp)).dropWhile Char.isDigit = [] :=
    List.dropWhile_eq_nil_iff.mpr fun c hc => isDigit_of_mem_padded hc
  simp only [unsigned?, takeWhile_magnitude, dropWhile_magnitude, List.head?_cons, List.tail_cons,
    if_true, htake, hdrop, Nat.toDigits_ne_nil, false_and, if_false, exponent?, Option.map_some,
    zpow_zero, mul_one, ofDigitChars_append_padded _ hdp hm, length_padded hdp hm,
    Nat.div_add_mod']

theorem head?_magnitude : ∃ c, (magnitude dp m).head? = some c ∧ c.isDigit := by
  obtain ⟨c, cs, hcs⟩ := List.exists_cons_of_ne_nil (Nat.toDigits_ne_nil (n := m / 10 ^ dp) (b := 10))
  have hc : c ∈ Nat.toDigits 10 (m / 10 ^ dp) := hcs ▸ List.mem_cons_self
  exact ⟨c, by rw [magnitude, hcs]; rfl, Nat.isDigit_of_mem_toDigits (by decide) (by decide) hc⟩

theorem mem_magnitude {c : Char} (hc : c ∈ magnitude dp m) : c.isDigit ∨ c = '.' := by
  rcases List.mem_append.mp hc with h | h
  · exact .inl (Nat.isDigit_of_mem_toDigits (by decide) (by decide) h)
  · rcases List.mem_cons.mp h with rfl | h
    · exact .inr rfl
    · exact .inl (isDigit_of_mem_padded h)

end Magnitude

section Text

variable {dp : ℕ}

theorem toList_fixedText (n : ℤ) : (fixedText dp n).toList =
    (if n < 0 then ['-'] else []) ++ magnitude dp n.natAbs := String.toList_ofList

theorem mem_fixedText {n : ℤ} {c : Char} (hc : c ∈ (fixedText dp n).toList) :
    c = '-' ∨ c.isDigit ∨ c = '.' := by
  rw [toList_fixedText] at hc
  rcases List.mem_append.mp hc with h | h
  · split at h
    · exact .inl (List.mem_singleton.mp h)
    · cases h
  · exact .inr (mem_magnitude _ h)

theorem isBlank_of_isDigit {c : Char} (hc : c.isDigit) : isBlank c = false := by
  have hall : blanks.all (! ·.isDigit) = true := by decide
  rw [isBlank, decide_eq_false_iff_not]
  intro hmem
  have hdigit := List.all_eq_true.mp hall c hmem
  rw [hc] at hdigit
  cases hdigit

/-- A list of digits, points and minus signs. -/
def Plain (cs : List Char) : Prop := ∀ c ∈ cs, c = '-' ∨ c.isDigit ∨ c = '.'

theorem Plain.trim_eq {cs : List Char} (h : Plain cs) : trim cs = cs := by
  -- None of the characters of a number is white space.
  have hblank : ∀ c ∈ cs, isBlank c = false := by
    intro c hc
    rcases h c hc with rfl | h | rfl
    · rfl
    · exact isBlank_of_isDigit h
    · rfl
  have hdrop : ∀ cs : List Char, (∀ c ∈ cs, isBlank c = false) → cs.dropWhile isBlank = cs := by
    intro cs h
    cases cs with
    | nil => rfl
    | cons c cs => rw [List.dropWhile_cons, h c List.mem_cons_self]; rfl
  rw [trim, hdrop _ hblank, hdrop _ fun c hc => hblank c (List.mem_reverse.mp hc),
    List.reverse_reverse]

/-- What is trimmed has nothing left to trim. -/
theorem trim_trim (cs : List Char) : trim (trim cs) = trim cs := by
  have hdrop : ∀ cs : List Char, (∀ c ∈ cs.head?, isBlank c = false) → cs.dropWhile isBlank = cs := by
    intro cs h
    cases cs with
    | nil => rfl
    | cons c cs => rw [List.dropWhile_cons, h c rfl]; rfl
  have hhead : ∀ cs : List Char, ∀ c ∈ (cs.dropWhile isBlank).head?, isBlank c = false := by
    intro cs
    induction cs with
    | nil => exact fun c hc => nomatch hc
    | cons d cs ih =>
        rw [List.dropWhile_cons]
        split
        · exact ih
        · rename_i hd
          intro c hc
          cases hc
          simpa using hd
  let front := cs.dropWhile isBlank
  let back := front.reverse.dropWhile isBlank
  -- The text is a part of the front, and starts where that does.
  have hfront : ∀ c ∈ back.reverse.head?, isBlank c = false := by
    intro c hc
    have hprefix : back.reverse <+: front := by
      have hsuffix : back <:+ front.reverse := List.dropWhile_suffix _
      simpa using List.reverse_prefix.mpr hsuffix
    apply hhead cs c
    obtain ⟨rest, hrest⟩ := hprefix
    show c ∈ front.head?
    rw [← hrest, List.head?_append, Option.mem_def.mp hc]
    rfl
  show ((back.reverse.dropWhile isBlank).reverse.dropWhile isBlank).reverse = back.reverse
  rw [hdrop _ hfront, List.reverse_reverse, hdrop _ (hhead front.reverse)]

theorem Plain.radix?_eq {cs : List Char} (h : Plain cs) : radix? cs = none := by
  unfold radix?
  split
  · rename_i c cs
    have hc := h c (List.mem_cons_of_mem _ List.mem_cons_self)
    have hall : ['x', 'X', 'o', 'O', 'b', 'B'].all
        (fun d => ! (d == '-' || d.isDigit || d == '.')) = true := by decide
    -- The second character would be the letter of a radix.
    have hne : ∀ d ∈ ['x', 'X', 'o', 'O', 'b', 'B'], c ≠ d := by
      intro d hd heq
      have hd := List.all_eq_true.mp hall d hd
      rw [← heq] at hd
      rcases hc with rfl | hc | rfl
      · cases hd
      · rw [hc] at hd
        simp at hd
      · cases hd
    simp only [List.mem_cons, List.not_mem_nil, or_false, forall_eq_or_imp, forall_eq] at hne
    obtain ⟨h₁, h₂, h₃, h₄, h₅, h₆⟩ := hne
    simp only [h₁, h₂, h₃, h₄, h₅, h₆, or_self, if_false]
  · rfl

theorem plain_fixedText (n : ℤ) : Plain (fixedText dp n).toList := fun _ hc => mem_fixedText hc

/-- Digits denote their number. -/
theorem unsigned?_of_digits {digits : List Char} (hne : digits ≠ []) (h : ∀ c ∈ digits, c.isDigit) :
    unsigned? digits = some (Nat.ofDigitChars 10 digits 0 : ℚ) := by
  have htake : digits.takeWhile Char.isDigit = digits := List.takeWhile_eq_self_iff.mpr h
  have hdrop : digits.dropWhile Char.isDigit = [] := List.dropWhile_eq_nil_iff.mpr h
  simp [unsigned?, htake, hdrop, exponent?, hne]

/-- A literal that begins with a digit is read without a sign. -/
theorem number?_of_head {c : Char} {cs : List Char} (hplain : Plain (c :: cs)) (hc : c.isDigit) :
    number? (String.ofList (c :: cs)) = unsigned? (c :: cs) := by
  have hminus : c ≠ '-' := by
    rintro rfl
    cases hc
  have hplus : c ≠ '+' := by
    rintro rfl
    cases hc
  simp only [number?, String.toList_ofList, hplain.trim_eq, hplain.radix?_eq]
  rw [if_neg (List.cons_ne_nil _ _), List.head?_cons, if_neg (by simpa using hminus),
    if_neg (by simpa using hplus)]

/-- A minus sign is read off first. -/
theorem number?_neg {cs : List Char} (hplain : Plain cs) :
    number? (String.ofList ('-' :: cs)) = (unsigned? cs).map (-·) := by
  have hsigned : Plain ('-' :: cs) := List.forall_mem_cons.mpr ⟨.inl rfl, hplain⟩
  simp only [number?, String.toList_ofList, hsigned.trim_eq, hsigned.radix?_eq]
  rw [if_neg (List.cons_ne_nil _ _), List.head?_cons, if_pos rfl, List.tail_cons]

/-- A literal behind an optional minus sign. -/
theorem number?_signed {text : String} {negative : Prop} [Decidable negative] {c : Char} {cs : List Char}
    {v : ℚ}
    (htext : text.toList = (if negative then ['-'] else []) ++ c :: cs) (hplain : Plain (c :: cs))
    (hc : c.isDigit) (hvalue : unsigned? (c :: cs) = some v) :
    number? text = some (if negative then -v else v) := by
  rw [← @String.ofList_toList text, htext]
  by_cases hneg : negative
  · rw [if_pos hneg, if_pos hneg, List.singleton_append, number?_neg hplain, hvalue]
    rfl
  · rw [if_neg hneg, if_neg hneg, List.nil_append, number?_of_head hplain hc, hvalue]

/-! ## Integers -/

/-- The digits of an integer, with a sign below zero. -/
theorem toList_toString_int (n : ℤ) :
    (toString n).toList = (if n < 0 then ['-'] else []) ++ Nat.toDigits 10 n.natAbs := by
  rw [Int.toString_eq_repr, Int.repr_eq_if]
  by_cases hneg : n < 0
  · have habs : (-n).toNat = n.natAbs := by omega
    rw [if_neg (by omega), if_pos hneg, String.toList_append, Nat.toList_repr, habs]
    rfl
  · have habs : n.toNat = n.natAbs := by omega
    rw [if_pos (by omega), if_neg hneg, Nat.toList_repr, habs, List.nil_append]

theorem signed_natAbs (n : ℤ) : (if n < 0 then -(n.natAbs : ℚ) else n.natAbs) = n := by
  rw [Nat.cast_natAbs]
  by_cases hn : n < 0
  · rw [if_pos hn, abs_of_neg hn]
    push_cast
    exact neg_neg _
  · rw [if_neg hn, abs_of_nonneg (not_lt.mp hn)]

theorem unsigned?_toDigits (m : ℕ) : unsigned? (Nat.toDigits 10 m) = some (m : ℚ) := by
  have hdigits : ∀ c ∈ Nat.toDigits 10 m, c.isDigit := fun c hc =>
    Nat.isDigit_of_mem_toDigits (by decide) (by decide) hc
  rw [unsigned?_of_digits Nat.toDigits_ne_nil hdigits, Nat.ofDigitChars_ten_toDigits]

/-- The text of an integer denotes it. -/
theorem toNumber_toString (n : ℤ) : toNumber (toString n) = .fin n := by
  obtain ⟨c, cs, hcs⟩ := List.exists_cons_of_ne_nil (@Nat.toDigits_ne_nil n.natAbs 10)
  have hdigits : ∀ d ∈ c :: cs, d.isDigit := fun d hd =>
    Nat.isDigit_of_mem_toDigits (by decide) (by decide) (hcs ▸ hd)
  have hvalue : unsigned? (c :: cs) = some (n.natAbs : ℚ) := hcs ▸ unsigned?_toDigits n.natAbs
  have hnumber : number? (toString n) = some (n : ℚ) := by
    rw [number?_signed (by rw [toList_toString_int, hcs]) (fun d hd => .inr (.inl (hdigits d hd)))
      (hdigits c List.mem_cons_self) hvalue, signed_natAbs]
  unfold toNumber
  rw [hnumber]

section Point

variable {unsigned frac : List Char}

/-- Digits, a point and digits denote the number of all the digits, scaled. -/
theorem unsigned?_of_point (hrest : unsigned.dropWhile Char.isDigit = '.' :: frac)
    (hne : unsigned.takeWhile Char.isDigit ≠ []) (hfrac : ∀ c ∈ frac, c.isDigit) :
    unsigned? unsigned =
      some ((Nat.ofDigitChars 10 (unsigned.takeWhile Char.isDigit ++ frac) 0 : ℚ) /
        10 ^ frac.length) := by
  have htake : frac.takeWhile Char.isDigit = frac := List.takeWhile_eq_self_iff.mpr hfrac
  have hdrop : frac.dropWhile Char.isDigit = [] := List.dropWhile_eq_nil_iff.mpr hfrac
  simp only [unsigned?, hrest, List.head?_cons, List.tail_cons, if_true, htake, hdrop, hne,
    false_and, if_false, exponent?, Option.map_some, zpow_zero, mul_one]

theorem plain_of_point (hrest : unsigned.dropWhile Char.isDigit = '.' :: frac)
    (hfrac : ∀ c ∈ frac, c.isDigit) : Plain unsigned := by
  have hsplit := List.takeWhile_append_dropWhile (p := Char.isDigit) (l := unsigned)
  rw [hrest] at hsplit
  intro c hc
  rw [← hsplit] at hc
  rcases List.mem_append.mp hc with hc | hc
  · exact .inr (.inl (List.mem_takeWhile_imp hc))
  · rcases List.mem_cons.mp hc with rfl | hc
    · exact .inr (.inr rfl)
    · exact .inr (.inl (hfrac c hc))

end Point

/-- A canonical text with `dp` decimals denotes a multiple of `10⁻ᵈᵖ`. -/
theorem number?_of_isCanonical {text : String} (h : isCanonical dp text) :
    ∃ n : ℤ, number? text = some ((n : ℚ) / 10 ^ dp) := by
  unfold isCanonical at h
  dsimp only at h
  generalize hunsigned :
    (if text.toList.head? = some '-' then text.toList.tail else text.toList) = unsigned at h
  simp only [Bool.and_eq_true, Bool.not_eq_true', List.isEmpty_eq_false_iff, beq_iff_eq] at h
  obtain ⟨⟨⟨hne, hpoint⟩, hfrac⟩, hlength⟩ := h
  obtain ⟨frac, hrest⟩ : ∃ frac, unsigned.dropWhile Char.isDigit = '.' :: frac := by
    cases hdrop : unsigned.dropWhile Char.isDigit with
    | nil => rw [hdrop] at hpoint; cases hpoint
    | cons c frac =>
        rw [hdrop] at hpoint
        exact ⟨frac, by rw [Option.some.inj hpoint]⟩
  rw [hrest, List.tail_cons, List.all_eq_true] at hfrac
  rw [hrest, List.tail_cons] at hlength
  have hvalue := unsigned?_of_point hrest hne hfrac
  rw [hlength] at hvalue
  have hplain : Plain unsigned := plain_of_point hrest hfrac
  -- The text is an optional sign and a literal that begins with a digit.
  have htext : text.toList = (if text.toList.head? = some '-' then ['-'] else []) ++ unsigned := by
    rw [← hunsigned]
    by_cases hminus : text.toList.head? = some '-'
    · rw [if_pos hminus, if_pos hminus]
      exact (List.cons_head?_tail hminus).symm
    · rw [if_neg hminus, if_neg hminus]
      rfl
  cases hcons : unsigned with
  | nil => exact absurd (by rw [hcons]; rfl) hne
  | cons c cs =>
      have hdigit : c.isDigit = true := by
        by_contra hc
        rw [hcons, List.takeWhile_cons, if_neg hc] at hne
        exact hne rfl
      rw [hcons] at htext hplain hvalue
      rw [number?_signed htext hplain hdigit hvalue]
      generalize Nat.ofDigitChars 10 _ 0 = m
      by_cases hminus : text.toList.head? = some '-'
      · exact ⟨-m, by rw [if_pos hminus]; push_cast; rw [neg_div]⟩
      · exact ⟨m, by rw [if_neg hminus]; push_cast; rfl⟩

/-- A fixed-point text denotes the decimal it was written from. -/
theorem number?_fixedText (hdp : 0 < dp) (n : ℤ) :
    number? (fixedText dp n) = some ((n : ℚ) / 10 ^ dp) := by
  obtain ⟨c, hc, hdigit⟩ := @head?_magnitude dp n.natAbs
  obtain ⟨cs, hcs⟩ : ∃ cs, magnitude dp n.natAbs = c :: cs := ⟨_, (List.cons_head?_tail hc).symm⟩
  have hvalue := unsigned?_magnitude n.natAbs hdp
  have hplain : Plain (magnitude dp n.natAbs) := fun d hd => plain_fixedText n d (by
    rw [toList_fixedText]
    exact List.mem_append_right _ hd)
  have htext : (fixedText dp n).toList = (if n < 0 then ['-'] else []) ++ magnitude dp n.natAbs :=
    toList_fixedText ..
  rw [hcs] at htext hplain hvalue
  rw [number?_signed htext hplain hdigit hvalue, ← neg_div, ← ite_div, signed_natAbs]

theorem isCanonical_fixedText (hdp : 0 < dp) (n : ℤ) : isCanonical dp (fixedText dp n) := by
  obtain ⟨c, hc, hdigit⟩ := @head?_magnitude dp n.natAbs
  -- Without its sign the text is the magnitude.
  have hunsigned : (if (fixedText dp n).toList.head? = some '-' then (fixedText dp n).toList.tail
      else (fixedText dp n).toList) = magnitude dp n.natAbs := by
    rw [toList_fixedText]
    by_cases hn : n < 0
    · rw [if_pos hn]
      rfl
    · have hminus : c ≠ '-' := by rintro rfl; cases hdigit
      rw [if_neg hn, List.nil_append, hc, if_neg (by simpa using hminus)]
  have hm : n.natAbs % 10 ^ dp < 10 ^ dp := Nat.mod_lt _ (by positivity)
  have hall : (padded dp (n.natAbs % 10 ^ dp)).all Char.isDigit :=
    List.all_eq_true.mpr fun c hc => isDigit_of_mem_padded hc
  simp only [isCanonical, hunsigned, takeWhile_magnitude, dropWhile_magnitude, List.head?_cons,
    List.tail_cons, hall, length_padded hdp hm, BEq.rfl, Bool.and_true, Bool.not_eq_true',
    List.isEmpty_eq_false_iff]
  exact Nat.toDigits_ne_nil

theorem units_zero : units dp 0 = 0 := by norm_num [units]

theorem toFixed_zero : toFixed dp 0 = String.ofList (magnitude dp 0) := by
  rw [toFixed, if_neg (lt_irrefl _), units_zero]
  rfl

/-- Dropping the sign of a negative zero makes the text a function of the rounding alone. -/
theorem toFixed_normalized (hdp : 0 < dp) (x : ℚ) :
    (if toFixed dp x = "-" ++ toFixed dp 0 then toFixed dp 0 else toFixed dp x) =
      fixedText dp (units dp x) := by
  have hzero : "-" ++ toFixed dp 0 = String.ofList ('-' :: magnitude dp 0) := by
    rw [toFixed_zero, show "-" = String.ofList ['-'] from rfl, ← String.ofList_append]
    rfl
  rw [hzero]
  by_cases hx : x < 0
  · have hunits : units dp x ≤ 0 := by
      have := units_mono dp hx.le
      rwa [units_zero] at this
    have htext : toFixed dp x = String.ofList ('-' :: magnitude dp (units dp x).natAbs) := by
      rw [toFixed, if_pos hx]
      rfl
    -- A negative number that rounds to zero is the one text with a sign to drop.
    by_cases h0 : units dp x = 0
    · rw [htext, h0, Int.natAbs_zero, if_pos rfl, toFixed_zero]
      rfl
    · have hne : toFixed dp x ≠ String.ofList ('-' :: magnitude dp 0) := by
        intro h
        rw [htext, String.ofList_inj, List.cons_inj_right] at h
        have hval := unsigned?_magnitude (units dp x).natAbs hdp
        rw [h, unsigned?_magnitude 0 hdp, Option.some_inj,
          div_left_inj' (pow_ten_pos dp).ne', Nat.cast_inj] at hval
        omega
      rw [if_neg hne, htext, fixedText, if_pos (by omega)]
      rfl
  · obtain ⟨c, hc, hdigit⟩ := @head?_magnitude dp (units dp x).natAbs
    have htext : toFixed dp x = String.ofList (magnitude dp (units dp x).natAbs) := by
      rw [toFixed, if_neg hx]
      rfl
    have hne : toFixed dp x ≠ String.ofList ('-' :: magnitude dp 0) := by
      intro h
      rw [htext, String.ofList_inj] at h
      rw [h, List.head?_cons, Option.some_inj] at hc
      rw [← hc] at hdigit
      cases hdigit
    have hunits := @units_nonneg dp x (not_lt.mp hx)
    rw [if_neg hne, htext, fixedText, if_neg (by omega)]
    rfl

/-- Without a negative zero to drop the two writings are one. -/
theorem toFixed_of_nonneg {x : ℚ} (hx : 0 ≤ x) : toFixed dp x = fixedText dp (units dp x) := by
  have hunits := @units_nonneg dp x hx
  rw [toFixed, fixedText, if_neg (not_lt.mpr hx), if_neg (not_lt.mpr hunits)]

end Text

end DecimalText
