import NexusQuant.Ingestion.OptionInstrument

/-!
# The grammar of option names

A name of the grammar is taken apart in one way.  Its date is accepted when it is a day of the calendar,
as a date that has rolled over comes back with another day or month; its strike is accepted when the
double next to it is positive and finite.
-/

namespace NexusQuant.Ingestion

/-! ## Strikes -/

/-- Digits, with a fraction or without. -/
structure Strike where
  whole : List Char
  whole_digits : (∀ c ∈ whole, c.isDigit) ∧ whole ≠ []
  fraction : Option (List Char)
  fraction_digits : ∀ f ∈ fraction, (∀ c ∈ f, c.isDigit) ∧ f ≠ []

namespace Strike

variable (s : Strike)

/-- The strike with a character for the decimal point. -/
def text (point : Char) : List Char := s.whole ++ s.fraction.elim [] (point :: ·)

def value : ℚ :=
  Nat.ofDigitChars 10 (s.whole ++ s.fraction.getD []) 0 / 10 ^ (s.fraction.getD []).length

theorem digit_or_point {point c : Char} (h : c ∈ s.text point) : c.isDigit ∨ c = point := by
  rcases List.mem_append.mp h with h | h
  · exact .inl (s.whole_digits.1 c h)
  · cases hf : s.fraction with
    | none =>
        rw [hf] at h
        cases h
    | some f =>
        rw [hf] at h
        rcases List.mem_cons.mp h with rfl | h
        · exact .inr rfl
        · exact .inl ((s.fraction_digits f hf).1 c h)

theorem replaceFirst_append {c d : Char} {cs cs' : List Char} (h : c ∉ cs) :
    replaceFirst c d (cs ++ cs') = cs ++ replaceFirst c d cs' := by
  induction cs with
  | nil => rfl
  | cons e cs ih =>
      rw [List.mem_cons, not_or] at h
      rw [List.cons_append, replaceFirst, if_neg (Ne.symm h.1), ih h.2, List.cons_append]

/-- The only character that is no digit is replaced. -/
theorem replaceFirst_text {point point' : Char} (h : point.isDigit = false) :
    replaceFirst point point' (s.text point) = s.text point' := by
  have hwhole : point ∉ s.whole := by
    intro hmem
    have := s.whole_digits.1 _ hmem
    rw [h] at this
    cases this
  unfold text
  rw [replaceFirst_append hwhole]
  cases s.fraction with
  | none => rfl
  | some f => simp [replaceFirst]

theorem toNumber_text : Binary64.toNumber (String.ofList (s.text '.')) = Binary64.round s.value := by
  obtain ⟨c, cs, hcs⟩ := List.exists_cons_of_ne_nil s.whole_digits.2
  have hc : c.isDigit := s.whole_digits.1 c (hcs ▸ List.mem_cons_self)
  have hcons : s.text '.' = c :: (cs ++ s.fraction.elim [] ('.' :: ·)) := by
    rw [text, hcs, List.cons_append]
  have hplain : DecimalText.Plain (s.text '.') := fun _ hd => .inr (s.digit_or_point hd)
  have hvalue : DecimalText.unsigned? (s.text '.') = some s.value := by
    cases hf : s.fraction with
    | none =>
        have htext : s.text '.' = s.whole := by rw [text, hf]; exact List.append_nil _
        rw [htext, DecimalText.unsigned?_of_digits s.whole_digits.2 s.whole_digits.1, value, hf]
        simp
    | some f =>
        have htext : s.text '.' = s.whole ++ '.' :: f := by rw [text, hf]; rfl
        have htake : (s.text '.').takeWhile Char.isDigit = s.whole := by
          rw [htext, List.takeWhile_append_of_pos s.whole_digits.1]
          simp [show Char.isDigit '.' = false from rfl]
        have hdrop : (s.text '.').dropWhile Char.isDigit = '.' :: f := by
          rw [htext, List.dropWhile_append_of_pos s.whole_digits.1]
          simp [show Char.isDigit '.' = false from rfl]
        rw [DecimalText.unsigned?_of_point hdrop (htake.symm ▸ s.whole_digits.2)
          (s.fraction_digits f hf).1, htake, value, hf]
        rfl
  have hnumber : DecimalText.number? (String.ofList (s.text '.')) = some s.value := by
    rw [hcons] at hplain hvalue ⊢
    rw [DecimalText.number?_of_head hplain hc, hvalue]
  simp only [Binary64.toNumber, DecimalText.toNumber, hnumber]

/-- The double next to the strike is positive and finite: the strike is more than half the smallest
double and less than half a unit above the largest. -/
def InRange : Prop :=
  (2 : ℚ) ^ (-1075 : ℤ) < s.value ∧ s.value < 2 ^ (1024 : ℤ) - 2 ^ (970 : ℤ)

theorem value_nonneg : 0 ≤ s.value := by
  unfold value
  positivity

/-- The two guards of the source accept the strikes in range. -/
theorem guards_iff :
    (!(Binary64.round s.value).isFinite || JsNumber.le (Binary64.round s.value) (.fin 0)) = false ↔
      s.InRange := by
  rcases s.value_nonneg.eq_or_lt with hzero | hpos
  · rw [← hzero]
    apply iff_of_false
    · decide +kernel
    · intro h
      have hlow := h.1
      rw [← hzero] at hlow
      exact absurd hlow (not_lt.mpr (Binary64.two_zpow_pos _).le)
  · rw [InRange, ← Binary64.round_finite_pos_iff hpos]
    cases Binary64.round s.value <;> simp [JsNumber.isFinite, JsNumber.le, JsNumber.lt]

/-- The texts of the pattern for a strike. -/
theorem matches_iff {u : List Char} {g : Pattern.Groups} :
    Pattern.Matches (.repeated Char.isDigit 1 none ++
      .optional (Pattern.literal 'd' ++ .repeated Char.isDigit 1 none)) u g ↔
      (∃ s : Strike, u = s.text 'd') ∧ g = [] := by
  have hlength : ∀ cs : List Char, 1 ≤ cs.length ↔ cs ≠ [] := by
    intro cs
    rw [Nat.one_le_iff_ne_zero, Ne, List.length_eq_zero_iff]
  constructor
  · rintro ⟨whole, g₁, v, g₂, ⟨hwhole, hlen, -, rfl⟩, hopt, rfl, rfl⟩
    have hne := (hlength whole).mp hlen
    rcases hopt with ⟨-, ⟨d, g₃, f, g₄, hd, ⟨hf, hflen, -, rfl⟩, rfl, rfl⟩⟩ | ⟨rfl, rfl⟩
    · obtain ⟨rfl, rfl⟩ := Pattern.matches_literal.mp hd
      refine ⟨⟨⟨whole, ⟨hwhole, hne⟩, some f, ?_⟩, rfl⟩, rfl⟩
      rintro f' hf'
      cases hf'
      exact ⟨hf, (hlength f).mp hflen⟩
    · refine ⟨⟨⟨whole, ⟨hwhole, hne⟩, none, ?_⟩, rfl⟩, rfl⟩
      intro f hf
      cases hf
  · rintro ⟨⟨s, rfl⟩, rfl⟩
    have hwhole := s.whole_digits
    cases hf : s.fraction with
    | none =>
        refine ⟨s.whole, [], [], [], ⟨hwhole.1, (hlength _).mpr hwhole.2, ?_, rfl⟩,
          .inr ⟨rfl, rfl⟩, ?_, rfl⟩
        · intro h hh
          cases hh
        · rw [text, hf]
          rfl
    | some f =>
        obtain ⟨hdigits, hne⟩ := s.fraction_digits f hf
        refine ⟨s.whole, [], 'd' :: f, [], ⟨hwhole.1, (hlength _).mpr hwhole.2, ?_, rfl⟩,
          .inl ⟨List.cons_ne_nil _ _, ['d'], [], f, [], Pattern.matches_literal.mpr ⟨rfl, rfl⟩,
            ⟨hdigits, (hlength f).mpr hne, ?_, rfl⟩, rfl, rfl⟩, ?_, rfl⟩
        · intro h hh
          cases hh
        · intro h hh
          cases hh
        · rw [text, hf]
          rfl

end Strike

/-! ## Names -/

def OptionType.letter : OptionType → Char
  | .call => 'C'
  | .put => 'P'

/-- A text that fits the pattern, in its parts. -/
structure NameParts where
  underlying : List Char
  underlying_upper : (∀ c ∈ underlying, c.isUpper) ∧ underlying ≠ []
  day : List Char
  day_digits : (∀ c ∈ day, c.isDigit) ∧ 1 ≤ day.length ∧ day.length ≤ 2
  monthCode : List Char
  monthCode_upper : (∀ c ∈ monthCode, c.isUpper) ∧ monthCode.length = 3
  year : List Char
  year_digits : (∀ c ∈ year, c.isDigit) ∧ year.length = 2
  strike : Strike
  optionType : OptionType

namespace NameParts

variable (n n' : NameParts)

def text : List Char :=
  n.underlying ++ '-' :: (n.day ++ (n.monthCode ++ (n.year ++
    '-' :: (n.strike.text 'd' ++ ['-', n.optionType.letter]))))

def groups : Pattern.Groups :=
  [some n.underlying, some n.day, some n.monthCode, some n.year, some (n.strike.text 'd'),
    some [n.optionType.letter]]

theorem isDigit_eq_false_of_isUpper {c : Char} (h : c.isUpper) : c.isDigit = false := by
  by_contra hdigit
  have hlow : (65 : ℕ) ≤ c.val.toNat := (of_decide_eq_true h).1
  have hhigh : c.val.toNat ≤ 57 :=
    of_decide_eq_true ((Bool.and_eq_true _ _).mp (eq_true_of_ne_false hdigit)).2
  omega

/-- A text has its parts in one way. -/
theorem groups_eq_of_text_eq (h : n.text = n'.text) : n.groups = n'.groups := by
  have hdash : ∀ (p : Char → Bool) (cs : List Char), p '-' = false →
      ∀ c ∈ ('-' :: cs).head?, p c = false := by
    intro p cs hp c hc
    cases hc
    exact hp
  have hmonth : ∀ (m : NameParts) (cs : List Char), ∀ c ∈ (m.monthCode ++ cs).head?,
      c.isDigit = false := by
    intro m cs c hc
    obtain ⟨hupper, hlen⟩ := m.monthCode_upper
    rw [List.head?_append_of_ne_nil _ (List.ne_nil_of_length_pos (by omega))] at hc
    exact isDigit_eq_false_of_isUpper (hupper c (List.mem_of_mem_head? hc))
  have hstrike : ∀ s : Strike, ∀ d ∈ s.text 'd', (d != '-') = true := by
    intro s d hd
    rw [bne_iff_ne]
    rintro rfl
    rcases s.digit_or_point hd with hd | hd <;> cases hd
  obtain ⟨hunderlying, h⟩ := Pattern.span_unique n.underlying_upper.1 n'.underlying_upper.1
    (hdash _ _ rfl) (hdash _ _ rfl) h
  obtain ⟨hday, h⟩ := Pattern.span_unique n.day_digits.1 n'.day_digits.1 (hmonth _ _) (hmonth _ _)
    (List.cons.inj h).2
  obtain ⟨hmonthCode, h⟩ := List.append_inj h
    (n.monthCode_upper.2.trans n'.monthCode_upper.2.symm)
  obtain ⟨hyear, h⟩ := List.append_inj h (n.year_digits.2.trans n'.year_digits.2.symm)
  obtain ⟨hstrikeText, h⟩ := Pattern.span_unique (hstrike n.strike) (hstrike n'.strike)
    (hdash _ _ rfl) (hdash _ _ rfl) (List.cons.inj h).2
  have hletter := (List.cons.inj (List.cons.inj h).2).1
  simp only [groups, hunderlying, hday, hmonthCode, hyear, hstrikeText, hletter]

theorem matches_letter {u : List Char} {g : Pattern.Groups} :
    Pattern.Matches (.group (.char fun c => c == 'C' || c == 'P')) u g ↔
      ∃ t : OptionType, u = [t.letter] ∧ g = [some u] := by
  constructor
  · rintro ⟨g', ⟨c, rfl, hc, rfl⟩, rfl⟩
    rw [Bool.or_eq_true, beq_iff_eq, beq_iff_eq] at hc
    rcases hc with rfl | rfl
    · exact ⟨.call, rfl, rfl⟩
    · exact ⟨.put, rfl, rfl⟩
  · rintro ⟨t, rfl, rfl⟩
    refine ⟨[], ⟨t.letter, rfl, ?_, rfl⟩, rfl⟩
    cases t <;> rfl

theorem matches_strike {u : List Char} {g : Pattern.Groups} :
    Pattern.Matches (.group (.repeated Char.isDigit 1 none ++
      .optional (Pattern.literal 'd' ++ .repeated Char.isDigit 1 none))) u g ↔
      ∃ s : Strike, u = s.text 'd' ∧ g = [some u] := by
  constructor
  · rintro ⟨g', h, rfl⟩
    obtain ⟨⟨s, rfl⟩, rfl⟩ := Strike.matches_iff.mp h
    exact ⟨s, rfl, rfl⟩
  · rintro ⟨s, rfl, rfl⟩
    exact ⟨[], Strike.matches_iff.mpr ⟨⟨s, rfl⟩, rfl⟩, rfl⟩

/-- The texts of the pattern. -/
theorem matches_iff {cs : List Char} {g : Pattern.Groups} :
    Pattern.Matches optionNameRe cs g ↔ ∃ n : NameParts, cs = n.text ∧ g = n.groups := by
  have hsome : ∀ {k : ℕ} {cs : List Char}, (∀ h ∈ some k, cs.length ≤ h) ↔ cs.length ≤ k := by
    intro k cs
    simp
  have hnone : ∀ cs : List Char, ∀ h ∈ (none : Option ℕ), cs.length ≤ h := by
    intro cs h hh
    cases hh
  constructor
  · intro h
    -- From the last part to the first.
    obtain ⟨_, _, _, _, hrest, hletter, rfl, rfl⟩ := h
    obtain ⟨t, rfl, rfl⟩ := matches_letter.mp hletter
    obtain ⟨_, hstrike, rfl⟩ := Pattern.matches_append_literal.mp hrest
    obtain ⟨_, _, _, _, hdash, hgroup, rfl, rfl⟩ := hstrike
    obtain ⟨strike, rfl, rfl⟩ := matches_strike.mp hgroup
    obtain ⟨_, hdate, rfl⟩ := Pattern.matches_append_literal.mp hdash
    obtain ⟨_, _, year, hmonth, ⟨hyear, hyearLen⟩, rfl, rfl⟩ := Pattern.matches_append_group.mp hdate
    obtain ⟨_, _, code, hdays, ⟨hcode, hcodeLen⟩, rfl, rfl⟩ := Pattern.matches_append_group.mp hmonth
    obtain ⟨_, _, day, hfirst, ⟨hday, hdayLen⟩, rfl, rfl⟩ := Pattern.matches_append_group.mp hdays
    obtain ⟨underlying, hname, rfl⟩ := Pattern.matches_append_literal.mp hfirst
    obtain ⟨⟨hupper, hlen, -⟩, rfl⟩ := Pattern.matches_group_repeated.mp hname
    rw [hsome] at hyearLen hcodeLen hdayLen
    refine ⟨⟨underlying, ⟨hupper, List.ne_nil_of_length_pos hlen⟩, day, ⟨hday, hdayLen⟩, code,
      ⟨hcode, by omega⟩, year, ⟨hyear, by omega⟩, strike, t⟩, ?_, rfl⟩
    simp only [text, List.append_assoc, List.cons_append, List.nil_append]
  · rintro ⟨n, rfl, rfl⟩
    have hmonth := n.monthCode_upper
    have hyear := n.year_digits
    have hunderlying : Pattern.Matches (.group (.repeated Char.isUpper 1 none)) n.underlying
        [some n.underlying] :=
      Pattern.matches_group_repeated.mpr
        ⟨⟨n.underlying_upper.1, List.length_pos_of_ne_nil n.underlying_upper.2, hnone _⟩, rfl⟩
    have hday := (hunderlying.append_literal '-').append_group
      ⟨n.day_digits.1, n.day_digits.2.1, hsome.mpr n.day_digits.2.2⟩
    have hcode := hday.append_group ⟨hmonth.1, hmonth.2.ge, hsome.mpr hmonth.2.le⟩
    have hdate := hcode.append_group ⟨hyear.1, hyear.2.ge, hsome.mpr hyear.2.le⟩
    have hstrike := (hdate.append_literal '-').append (matches_strike.mpr ⟨n.strike, rfl, rfl⟩)
    have hname := (hstrike.append_literal '-').append (matches_letter.mpr ⟨n.optionType, rfl, rfl⟩)
    simp only [List.append_assoc, List.cons_append, List.nil_append] at hname
    exact hname

theorem exec_eq_some_iff {cs : List Char} {g : Pattern.Groups} :
    optionNameRe.exec cs = some g ↔ ∃ n : NameParts, cs = n.text ∧ g = n.groups := by
  rw [← matches_iff]
  apply Pattern.exec_eq_some_iff
  intro g g' h h'
  obtain ⟨n, rfl, rfl⟩ := matches_iff.mp h
  obtain ⟨n', htext, rfl⟩ := matches_iff.mp h'
  exact groups_eq_of_text_eq n n' htext

theorem exec_text : optionNameRe.exec n.text = some n.groups := exec_eq_some_iff.mpr ⟨n, rfl, rfl⟩

end NameParts

/-- A text that fits the pattern with one of the twelve months in it. -/
structure OptionName extends NameParts where
  month : ℕ
  month_mem : (String.ofList monthCode, month) ∈ months

namespace OptionName

variable (n : OptionName)

def dayNumber : ℕ := Nat.ofDigitChars 10 n.day 0

def yearNumber : ℕ := Nat.ofDigitChars 10 n.year 0

/-- The month of the name has this day. -/
def RealDay : Prop :=
  1 ≤ n.dayNumber ∧ n.dayNumber ≤ Calendar.daysInMonth (2000 + n.yearNumber) n.month

/-- What the name says: the day is meant at eight. -/
def instrument : ParsedOptionInstrument :=
  { underlying := String.ofList n.underlying
    expiry := Calendar.makeDay (2000 + n.yearNumber) n.month n.dayNumber * Calendar.msPerDay +
      8 * 3600000
    strike := String.ofList (n.strike.text '.')
    strikeNum := Binary64.round n.strike.value
    optionType := n.optionType }

theorem month_lt : n.month < 12 := by
  have hall : ∀ p ∈ months, p.2 < 12 := by decide
  exact hall _ n.month_mem

theorem get?_monthCode : Dict.get? months (String.ofList n.monthCode) = some n.month :=
  Dict.get?_of_mem (by decide) n.month_mem

theorem day_of_expiry (d : ℤ) : (d * Calendar.msPerDay + 8 * 3600000) / Calendar.msPerDay = d := by
  unfold Calendar.msPerDay
  omega

/-- The rolled-over date is compared with what was read. -/
theorem date_guard_iff :
    (getUtcDate n.instrument.expiry ≠ n.dayNumber ∨ getUtcMonth n.instrument.expiry ≠ n.month) ↔
      ¬n.RealDay := by
  unfold getUtcDate getUtcMonth instrument RealDay
  rw [day_of_expiry, ← Calendar.month_date_makeDay _ n.month_lt, not_and_or]

theorem parse_text (p : ParsedOptionInstrument) :
    parseOptionInstrument (String.ofList n.text) = some p ↔
      n.RealDay ∧ n.strike.InRange ∧ p = n.instrument := by
  have hletter : (if [n.optionType.letter] = ['C'] then OptionType.call else .put) = n.optionType := by
    cases n.optionType <;> rfl
  have hexpiry : dateUtc (2000 + (n.yearNumber : ℤ)) n.month n.dayNumber expiryHourUtc =
      n.instrument.expiry := rfl
  have hguard := n.date_guard_iff
  have hstrike := n.strike.guards_iff
  unfold parseOptionInstrument
  rw [String.toList_ofList, n.exec_text]
  dsimp only [NameParts.groups]
  rw [n.get?_monthCode]
  dsimp only
  rw [n.strike.replaceFirst_text rfl, n.strike.toNumber_text, hletter]
  change (if getUtcDate n.instrument.expiry ≠ n.dayNumber ∨
    getUtcMonth n.instrument.expiry ≠ n.month then none else _) = some p ↔ _
  split_ifs with hdate hrange
  · exact iff_of_false id fun h => hguard.mp hdate h.1
  · apply iff_of_false id
    intro h
    rw [hstrike.mpr h.2.1] at hrange
    cases hrange
  · have hreal : n.RealDay := not_not.mp fun h => hdate (hguard.mpr h)
    have hin := hstrike.mp (Bool.eq_false_iff.mpr hrange)
    simp only [hreal, hin, true_and]
    constructor
    · intro h
      exact (Option.some.inj h).symm
    · rintro rfl
      rfl

end OptionName

/-- A name is accepted exactly when it is of the grammar. -/
theorem parse_eq_some_iff {name : String} {p : ParsedOptionInstrument} :
    parseOptionInstrument name = some p ↔
      ∃ n : OptionName, name = String.ofList n.text ∧ n.RealDay ∧ n.strike.InRange ∧
        p = n.instrument := by
  constructor
  · intro h
    obtain ⟨n, hname, month, hmonth⟩ : ∃ n : NameParts, name.toList = n.text ∧
        ∃ month, Dict.get? months (String.ofList n.monthCode) = some month := by
      unfold parseOptionInstrument at h
      split at h
      · rename_i hexec
        obtain ⟨n, htext, hgroups⟩ := NameParts.exec_eq_some_iff.mp hexec
        split at h
        · cases h
        · rename_i month hmonth
          cases hgroups
          exact ⟨n, htext, month, hmonth⟩
      · cases h
    have hofList : name = String.ofList n.text := by rw [← hname, String.ofList_toList]
    have hparse := OptionName.parse_text ⟨n, month, Dict.mem_of_get? hmonth⟩ p
    rw [hofList] at h
    exact ⟨⟨n, month, Dict.mem_of_get? hmonth⟩, hofList, hparse.mp h⟩
  · rintro ⟨n, rfl, h⟩
    exact (n.parse_text p).mpr h

/-! ## Writing a name -/

/-- The name of an instrument, its day of two digits or without the leading zero. -/
def renderOptionInstrument (leadingZero : Bool) (p : ParsedOptionInstrument) : String :=
  let day := p.expiry / Calendar.msPerDay
  let date := Calendar.dateFromDay day
  let dateText := if leadingZero then DecimalText.padded 2 date else Nat.toDigits 10 date
  let monthText := (Dict.keys months).getD (Calendar.monthFromDay day) ""
  let yearText := DecimalText.padded 2 (Calendar.yearFromDay day - 2000).toNat
  let strikeText := replaceFirst '.' 'd' p.strike.toList
  String.ofList (p.underlying.toList ++ '-' :: (dateText ++ (monthText.toList ++ (yearText ++
    '-' :: (strikeText ++ ['-', p.optionType.letter])))))

namespace OptionName

variable (n : OptionName)

theorem dayNumber_lt : n.dayNumber < 10 ^ 2 :=
  (DecimalText.ofDigitChars_lt n.day_digits.1).trans_le
    (Nat.pow_le_pow_right (by decide) n.day_digits.2.2)

theorem yearNumber_lt : n.yearNumber < 10 ^ 2 :=
  (DecimalText.ofDigitChars_lt n.year_digits.1).trans_le
    (Nat.pow_le_pow_right (by decide) n.year_digits.2.le)

/-- The digits of the day as they are written back. -/
def dateText (leadingZero : Bool) : List Char :=
  if leadingZero then DecimalText.padded 2 n.dayNumber else Nat.toDigits 10 n.dayNumber

theorem dateText_digits (leadingZero : Bool) : (∀ c ∈ n.dateText leadingZero, c.isDigit) ∧
    1 ≤ (n.dateText leadingZero).length ∧ (n.dateText leadingZero).length ≤ 2 := by
  cases leadingZero with
  | true =>
      have hlen := DecimalText.length_padded (by decide : 0 < 2) n.dayNumber_lt
      exact ⟨fun c hc => DecimalText.isDigit_of_mem_padded hc, by rw [dateText, if_pos rfl, hlen]; decide,
        hlen.le⟩
  | false =>
      exact ⟨fun c hc => Nat.isDigit_of_mem_toDigits (by decide) (by decide) hc,
        List.length_pos_of_ne_nil Nat.toDigits_ne_nil,
        (Nat.length_toDigits_le_iff (by decide) (by decide)).mpr n.dayNumber_lt⟩

/-- The name with the digits of its date written back. -/
def rewritten (leadingZero : Bool) : OptionName :=
  { n with
    day := n.dateText leadingZero
    day_digits := n.dateText_digits leadingZero
    year := DecimalText.padded 2 n.yearNumber
    year_digits := ⟨fun _ hc => DecimalText.isDigit_of_mem_padded hc,
      DecimalText.length_padded (by decide) n.yearNumber_lt⟩ }

@[simp] theorem rewritten_dayNumber (leadingZero : Bool) :
    (n.rewritten leadingZero).dayNumber = n.dayNumber := by
  cases leadingZero with
  | true => exact DecimalText.ofDigitChars_padded
  | false => exact Nat.ofDigitChars_ten_toDigits

@[simp] theorem rewritten_yearNumber (leadingZero : Bool) :
    (n.rewritten leadingZero).yearNumber = n.yearNumber :=
  DecimalText.ofDigitChars_padded

theorem rewritten_instrument (leadingZero : Bool) :
    (n.rewritten leadingZero).instrument = n.instrument := by
  simp only [instrument, rewritten_dayNumber, rewritten_yearNumber]
  rfl

theorem rewritten_realDay {leadingZero : Bool} : (n.rewritten leadingZero).RealDay ↔ n.RealDay := by
  simp only [RealDay, rewritten_dayNumber, rewritten_yearNumber]
  rfl

theorem monthText :
    ((Dict.keys months).getD n.month "").toList = n.monthCode := by
  have hall : ∀ p ∈ months, (Dict.keys months).getD p.2 "" = p.1 := by decide
  rw [hall _ n.month_mem, String.toList_ofList]

theorem render_instrument (hreal : n.RealDay) (leadingZero : Bool) :
    renderOptionInstrument leadingZero n.instrument = String.ofList (n.rewritten leadingZero).text := by
  have hdate := (Calendar.month_date_makeDay (2000 + n.yearNumber) n.month_lt n.dayNumber).mpr hreal
  have hyear := Calendar.yearFromDay_makeDay (2000 + n.yearNumber) n.month_lt hreal.1 hreal.2
  have hnumber : (2000 + (n.yearNumber : ℤ) - 2000).toNat = n.yearNumber := by omega
  unfold renderOptionInstrument instrument
  dsimp only
  rw [day_of_expiry, hdate.1, hdate.2, hyear, hnumber, n.monthText, String.toList_ofList,
    String.toList_ofList, n.strike.replaceFirst_text rfl]
  rfl

end OptionName

/-! ## The names that are accepted -/

/-- A name is accepted exactly when it is of the grammar, its day is in the calendar and its strike in
the range of a double; and what is accepted is written back to a name that reads the same. -/
theorem parseOptionInstrument_exact (name : String) (p : ParsedOptionInstrument) :
    (parseOptionInstrument name = some p ↔
      ∃ n : OptionName, name = String.ofList n.text ∧ n.RealDay ∧ n.strike.InRange ∧
        p = n.instrument) ∧
    ∀ leadingZero, parseOptionInstrument name = some p →
      parseOptionInstrument (renderOptionInstrument leadingZero p) = some p := by
  refine ⟨parse_eq_some_iff, ?_⟩
  intro leadingZero h
  obtain ⟨n, rfl, hreal, hrange, rfl⟩ := parse_eq_some_iff.mp h
  rw [n.render_instrument hreal, OptionName.parse_text, n.rewritten_realDay, n.rewritten_instrument]
  exact ⟨hreal, hrange, rfl⟩

def ethCall : ParsedOptionInstrument := ⟨"ETH", 1780992000000, "3.5", .fin (7 / 2), .call⟩

theorem parseOptionInstrument_exact_eth :
    renderOptionInstrument true ethCall = "ETH-09JUN26-3d5-C" ∧
      parseOptionInstrument (renderOptionInstrument true ethCall) = some ethCall :=
  ⟨by decide +kernel,
    (parseOptionInstrument_exact "ETH-9JUN26-3d5-C" ethCall).2 true (by decide +kernel)⟩

/-- The strike `10 ^ 309`. -/
def hugeStrike : Strike where
  whole := '1' :: List.replicate 309 '0'
  whole_digits := by
    refine ⟨?_, List.cons_ne_nil _ _⟩
    intro c hc
    rcases List.mem_cons.mp hc with rfl | hc
    · rfl
    · rw [List.eq_of_mem_replicate hc]
      rfl
  fraction := none
  fraction_digits := by
    intro f hf
    cases hf

def hugeName : OptionName where
  underlying := ['B', 'T', 'C']
  underlying_upper := ⟨List.all_eq_true.mp rfl, by decide⟩
  day := ['1']
  day_digits := ⟨List.all_eq_true.mp rfl, by decide⟩
  monthCode := ['J', 'A', 'N']
  monthCode_upper := ⟨List.all_eq_true.mp rfl, by decide⟩
  year := ['2', '6']
  year_digits := ⟨List.all_eq_true.mp rfl, by decide⟩
  strike := hugeStrike
  optionType := .call
  month := 0
  month_mem := by decide

theorem ofDigitChars_zeros (n : ℕ) : Nat.ofDigitChars 10 ('1' :: List.replicate n '0') 0 = 10 ^ n := by
  have hone : 10 * 0 + ('1'.toNat - '0'.toNat) = 1 := rfl
  rw [Nat.ofDigitChars_cons, Nat.ofDigitChars_replicate_zero, hone, mul_one]

theorem hugeStrike_value : hugeStrike.value = 10 ^ 309 := by
  simp only [Strike.value, hugeStrike, Option.getD_none, List.append_nil, ofDigitChars_zeros,
    List.length_nil, pow_zero, div_one]
  exact Nat.cast_pow 10 309

/-- A strike past the largest double is positive, but is not accepted. -/
theorem huge_strike_refused : hugeName.RealDay ∧ 0 < hugeName.strike.value ∧
    parseOptionInstrument (String.ofList hugeName.text) = none := by
  have hvalue : hugeName.strike.value = 10 ^ 309 := hugeStrike_value
  refine ⟨by unfold OptionName.RealDay; decide, by rw [hvalue]; positivity, ?_⟩
  apply Option.eq_none_iff_forall_ne_some.mpr
  intro p hp
  have hrange := ((hugeName.parse_text p).mp hp).2.1.2
  rw [hvalue] at hrange
  have hpow : (2 : ℚ) ^ (1024 : ℤ) ≤ 10 ^ 309 := by
    have hnat : 2 ^ 1024 ≤ 10 ^ 309 := by decide +kernel
    exact_mod_cast hnat
  exact absurd hrange (not_lt.mpr ((sub_le_self _ (Binary64.two_zpow_pos 970).le).trans hpow))

end NexusQuant.Ingestion
