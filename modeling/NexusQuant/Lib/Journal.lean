import NexusQuant.Lib.DecimalText
import NexusQuant.Lib.Json
import NexusQuant.Lib.Run

/-!
# Journals of JSON lines

A journal is a file of bytes.  `append` writes the JSON text of one record and a line feed at the
end of the file, and may stop after any strict prefix of that line; `readAll` splits the file into
lines, skips the blank ones, tolerates a last line that does not parse and checks every other line
for its form and its sequence number.

A file whose last line was torn is left as it is by the next `append`, which writes on behind the
fragment.  `Clean` is the condition on a step under which this does not happen, and
`readAll_eq_completed` the crash-safety that holds for every run of clean steps.
-/

namespace Journal

open Json Run

/-! ## Records -/

/-- The sequence number a JSON value carries. -/
def seqOf (v : Json) : Option ℤ :=
  match v.get? "seq" with
  | some (.num n) => some n
  | _ => none

/-- What a journal stores: how an input becomes a record, how a record is laid out as JSON, and
which values are admitted when they are read back (an error says what is malformed). -/
structure Format (ι ρ : Type) where
  withSeq : ι → ℕ → ρ
  toJson : ρ → Json
  check : Json → Option String
  seqOf_withSeq : ∀ i n, seqOf (toJson (withSeq i n)) = some (n : ℤ)
  check_withSeq : ∀ i m n, check (toJson (withSeq i m)) = none → check (toJson (withSeq i n)) = none

/-- The texts of the records: `JSON.stringify` of a record in UTF-8, and `JSON.parse`.  The laws
are about records only, which are JSON objects. -/
structure Codec {ρ : Type} (toJson : ρ → Json) where
  stringify : ρ → Bytes
  parse : Bytes → Option Json
  parse_stringify : ∀ r, parse (stringify r) = some (toJson r)
  parse_prefix : ∀ r p, p <+: stringify r → p ≠ stringify r → parse p = none
  newline_not_mem : ∀ r, newline ∉ stringify r
  braces : ∀ r, ∃ t, stringify r = openBrace :: (t ++ [closeBrace])

/-- The printer and the parser of `Json` are such texts. -/
def printCodec {ρ : Type} (toJson : ρ → Json) (hobj : ∀ r, ∃ ms, toJson r = .obj ms) :
    Codec toJson where
  stringify r := (toJson r).print
  parse := Json.parse
  parse_stringify r := parse_print _
  parse_prefix r p hp hne := by
    obtain ⟨ms, h⟩ := hobj r
    rw [h] at hp hne
    exact Json.parse_prefix ms hp hne
  newline_not_mem r := newline_not_mem_print _
  braces r := by
    obtain ⟨ms, h⟩ := hobj r
    rw [h]
    exact print_obj ms

/-! ## Trimming a line -/

/-- The UTF-8 texts of the blank characters. -/
def blankTexts : List Bytes := DecimalText.blanks.map String.utf8EncodeChar

/-- Drop words of a list from the front of a text. -/
def strip (words : List Bytes) : ℕ → Bytes → Bytes
  | 0, bs => bs
  | fuel + 1, bs =>
      match words.find? (·.isPrefixOf bs) with
      | some w => strip words fuel (bs.drop w.length)
      | none => bs

def trim (bs : Bytes) : Bytes :=
  let front := strip blankTexts bs.length bs
  (strip (blankTexts.map List.reverse) front.length front.reverse).reverse

theorem strip_suffix (words : List Bytes) (fuel : ℕ) (bs : Bytes) : strip words fuel bs <:+ bs := by
  induction fuel generalizing bs with
  | zero => exact List.suffix_refl bs
  | succ fuel ih =>
      rw [strip]
      split
      · exact (ih _).trans (List.drop_suffix _ _)
      · exact List.suffix_refl bs

theorem strip_cons {words : List Bytes} {b : UInt8} (h : ∀ w ∈ words, ∃ c t, w = c :: t ∧ c ≠ b)
    (fuel : ℕ) (bs : Bytes) : strip words fuel (b :: bs) = b :: bs := by
  cases fuel with
  | zero => rfl
  | succ fuel =>
      have hnone : words.find? (·.isPrefixOf (b :: bs)) = none := by
        rw [List.find?_eq_none]
        intro w hw hpart
        obtain ⟨c, t, rfl, hc⟩ := h w hw
        rw [List.isPrefixOf_iff_prefix, List.cons_prefix_cons] at hpart
        exact hc hpart.1
      rw [strip, hnone]

/-- No blank text starts or ends with a brace. -/
theorem blankTexts_ends : ∀ w ∈ blankTexts ++ blankTexts.map List.reverse,
    w.head?.all (fun c => c ≠ openBrace ∧ c ≠ closeBrace) ∧ w ≠ [] := by
  decide +kernel

theorem blankTexts_ne {w : Bytes} (hw : w ∈ blankTexts ++ blankTexts.map List.reverse) :
    ∃ c t, w = c :: t ∧ c ≠ openBrace ∧ c ≠ closeBrace := by
  obtain ⟨hhead, hne⟩ := blankTexts_ends w hw
  obtain ⟨c, t, rfl⟩ := List.exists_cons_of_ne_nil hne
  exact ⟨c, t, rfl, by simpa using hhead⟩

theorem trim_openBrace (bs : Bytes) : trim (openBrace :: bs) <+: openBrace :: bs := by
  have hfront : strip blankTexts (openBrace :: bs).length (openBrace :: bs) = openBrace :: bs :=
    strip_cons (fun w hw => by
      obtain ⟨c, t, h, hc, -⟩ := blankTexts_ne (List.mem_append_left _ hw)
      exact ⟨c, t, h, hc⟩) _ _
  rw [trim, hfront]
  have h := strip_suffix (blankTexts.map List.reverse) (openBrace :: bs).length
    (openBrace :: bs).reverse
  rw [← List.reverse_prefix, List.reverse_reverse] at h
  exact h

theorem trim_braces (bs : Bytes) :
    trim (openBrace :: (bs ++ [closeBrace])) = openBrace :: (bs ++ [closeBrace]) := by
  -- No blank text starts with a brace, read from either end.
  have hfront : ∀ fuel, strip blankTexts fuel (openBrace :: (bs ++ [closeBrace])) =
      openBrace :: (bs ++ [closeBrace]) :=
    fun fuel => strip_cons (fun w hw => by
      obtain ⟨c, t, h, hc, -⟩ := blankTexts_ne (List.mem_append_left _ hw)
      exact ⟨c, t, h, hc⟩) _ _
  have hback : ∀ fuel t, strip (blankTexts.map List.reverse) fuel (closeBrace :: t) =
      closeBrace :: t :=
    fun fuel t => strip_cons (fun w hw => by
      obtain ⟨c, t, h, -, hc⟩ := blankTexts_ne (List.mem_append_right _ hw)
      exact ⟨c, t, h, hc⟩) _ _
  rw [trim, hfront, ← List.cons_append, List.reverse_append, List.reverse_singleton,
    List.singleton_append, hback, List.reverse_cons, List.reverse_reverse]

/-! ## Reading -/

/-- Why a journal is refused: a line other than the last does not parse, a value is malformed, or
its sequence number is not its position. -/
inductive ReadError where
  | notJson (line : ℕ)
  | malformed (line : ℕ) (detail : String)
  | sequence (line : ℕ) (found : Option ℤ) (expected : ℕ)
deriving DecidableEq, Repr

section Read

variable {ι ρ : Type} (format : Format ι ρ) (codec : Codec format.toJson)

/-- The loop of `readAll`, from line `i` on with the records read so far. -/
def readLines (i : ℕ) (records : List Json) : List Bytes → Except ReadError (List Json)
  | [] => .ok records
  | l :: ls =>
      let line := trim l
      if line = [] then readLines (i + 1) records ls
      else match codec.parse line with
        | none => if ls.all (trim · = []) then .ok records else .error (.notJson (i + 1))
        | some v => match format.check v with
          | some detail => .error (.malformed (i + 1) detail)
          | none =>
              if seqOf v ≠ some (records.length : ℤ) then
                .error (.sequence (i + 1) (seqOf v) records.length)
              else readLines (i + 1) (records ++ [v]) ls

def readAll (file : Bytes) : Except ReadError (List Json) :=
  readLines format codec 0 [] (file.splitOn newline)

end Read

/-! ## Appending -/

/-- A journal opened by one process: the file, and the next sequence number once it is known. -/
structure Store where
  file : Bytes
  nextSeq : Option ℕ
deriving DecidableEq, Repr

/-- How an append ends: it completes, or it fails after some bytes of its line. -/
inductive Write where
  | complete
  | torn (written : ℕ)
deriving DecidableEq, Repr

section Append

variable {ι ρ : Type} (format : Format ι ρ) (codec : Codec format.toJson)

/-- The line of a record. -/
def line (r : ρ) : Bytes := codec.stringify r ++ [newline]

/-- The bytes a failed append leaves: never the whole line. -/
def tornPart (r : ρ) (written : ℕ) : Bytes :=
  (line format codec r).take (min written ((line format codec r).length - 1))

/-- The sequence number the next record gets: the cached one, or the length of the journal. -/
def assignSeq (s : Store) : Except ReadError ℕ :=
  match s.nextSeq with
  | some n => .ok n
  | none => (readAll format codec s.file).map List.length

/-- `append`: the record if it was written in full, and the store afterwards.  The number found on
the first touch is kept even when the write fails. -/
def append (s : Store) (input : ι) (write : Write) : Option ρ × Store :=
  match assignSeq format codec s with
  | .error _ => (none, s)
  | .ok n =>
      let record := format.withSeq input n
      match write with
      | .complete => (some record, ⟨s.file ++ line format codec record, some (n + 1)⟩)
      | .torn written => (none, ⟨s.file ++ tornPart format codec record written, some n⟩)

variable {format codec}

/-- A completed append returns the record of its input. -/
theorem append_eq_withSeq {s : Store} {input : ι} {write : Write} {r : ρ}
    (h : (append format codec s input write).1 = some r) : ∃ n, r = format.withSeq input n := by
  unfold append at h
  split at h
  · cases h
  · rename_i n hn
    cases write with
    | complete => exact ⟨n, (Option.some.inj h).symm⟩
    | torn written => cases h

end Append

section Sound

variable {ι ρ : Type} (format : Format ι ρ) (codec : Codec format.toJson)

/-- What a failed append may leave behind the last line feed: a part of a record's text. -/
def Fragment (tail : Bytes) : Prop :=
  tail = [] ∨ ∃ r, tail <+: codec.stringify r ∧ tail ≠ codec.stringify r

/-- The file holds the completed records, line by line, and after them at most a fragment, or the
whole text of a record out of `left` that has no line feed yet. -/
def Laid (left : ρ → Prop) (file : Bytes) (completed : List ρ) : Prop :=
  ∃ tail, file = completed.flatMap (line format codec) ++ tail ∧
    (Fragment format codec tail ∨ ∃ r, left r ∧ tail = codec.stringify r)

/-- The completed records and at most a fragment are laid out in the file, every record is admitted
and numbered by its position, and so is the next one. -/
structure Sound (s : Store) (completed : List ρ) : Prop where
  laid : Laid format codec (fun _ => False) s.file completed
  seqs : ∀ (k : ℕ) (r : ρ), completed[k]? = some r → seqOf (format.toJson r) = some (k : ℤ)
  admitted : ∀ r ∈ completed, format.check (format.toJson r) = none
  nextSeq : ∀ n, s.nextSeq = some n → n = completed.length

variable {format codec}

theorem Fragment.newline_not_mem {tail : Bytes} (h : Fragment format codec tail) :
    newline ∉ tail := by
  rcases h with rfl | ⟨r, hpart, -⟩
  · exact List.not_mem_nil
  · exact fun hmem => codec.newline_not_mem r (hpart.subset hmem)

theorem splitOn_file (completed : List ρ) {tail : Bytes} (h : newline ∉ tail) :
    (completed.flatMap (line format codec) ++ tail).splitOn newline =
      completed.map codec.stringify ++ [tail] := by
  rw [List.splitOn_eq_splitOnP]
  -- On the completed records: each ends at its own line feed, the first there is.
  induction completed with
  | nil =>
      refine List.splitOnP_eq_singleton fun b hb => ?_
      simpa using fun heq : b = newline => h (heq ▸ hb)
  | cons r rs ih =>
      rw [List.flatMap_cons, line, List.append_assoc, List.append_assoc, List.singleton_append,
        List.splitOnP_append_cons_of_forall_mem _ _ (by simp), ih]
      · rfl
      · intro b hb
        simpa using fun heq : b = newline => codec.newline_not_mem r (heq ▸ hb)

/-- A fragment on the last line is skipped or tolerated. -/
theorem readLines_fragment {tail : Bytes} (h : Fragment format codec tail) (i : ℕ)
    (records : List Json) : readLines format codec i records [tail] = .ok records := by
  rw [readLines]
  split
  · rfl
  · rename_i hne
    rcases h with rfl | ⟨r, hpart, hstrict⟩
    · exact absurd rfl hne
    · have hparse : codec.parse (trim tail) = none := by
        obtain ⟨t, ht⟩ := codec.braces r
        -- The fragment starts with a brace, so trimming takes off its end only.
        have htrim : trim tail <+: tail := by
          cases tail with
          | nil => exact List.prefix_refl _
          | cons b bs =>
              rw [ht, List.cons_prefix_cons] at hpart
              rw [hpart.1]
              exact trim_openBrace bs
        refine codec.parse_prefix r _ (htrim.trans hpart) ?_
        intro heq
        have hlen := htrim.length_le
        rw [heq] at hlen
        exact hstrict (hpart.eq_of_length (le_antisymm hpart.length_le hlen))
      rw [hparse]
      rfl

theorem trim_stringify (r : ρ) : trim (codec.stringify r) = codec.stringify r := by
  obtain ⟨t, ht⟩ := codec.braces r
  rw [ht, trim_braces]

theorem stringify_ne_nil (r : ρ) : codec.stringify r ≠ [] := by
  obtain ⟨t, ht⟩ := codec.braces r
  rw [ht]
  exact List.cons_ne_nil _ _

/-- The loop reads every line of a sound file, in order, and stops at the fragment. -/
theorem readLines_completed {tail : Bytes} (htail : Fragment format codec tail) (i : ℕ)
    (records : List Json) (rs : List ρ)
    (hseq : ∀ (k : ℕ) (r : ρ), rs[k]? = some r →
      seqOf (format.toJson r) = some ((records.length + k : ℕ) : ℤ))
    (hcheck : ∀ r ∈ rs, format.check (format.toJson r) = none) :
    readLines format codec i records (rs.map codec.stringify ++ [tail]) =
      .ok (records ++ rs.map format.toJson) := by
  induction rs generalizing i records with
  | nil =>
      rw [List.map_nil, List.nil_append, List.map_nil, List.append_nil]
      exact readLines_fragment htail i records
  | cons r rs ih =>
      have hr := hseq 0 r rfl
      rw [Nat.add_zero] at hr
      -- The loop has one record more and stands one line further.
      have hrest := ih (i + 1) (records ++ [format.toJson r])
        (fun k r' hk => by
          rw [hseq (k + 1) r' hk, List.length_append, List.length_singleton, Nat.add_right_comm,
            Nat.add_assoc])
        (fun r' hr' => hcheck r' (List.mem_cons_of_mem r hr'))
      rw [List.map_cons, List.cons_append, readLines]
      simp only [trim_stringify, if_neg (stringify_ne_nil r), codec.parse_stringify,
        hcheck r List.mem_cons_self, hr, ne_eq, not_true_eq_false, if_false, hrest, List.map_cons,
        List.append_assoc, List.singleton_append]

/-- Whatever the loop reads from the lines of some records, it reads them in order. -/
theorem readLines_map_stringify {tail : Bytes} (i : ℕ) (records : List Json) (rs : List ρ)
    {vs : List Json}
    (h : readLines format codec i records (rs.map codec.stringify ++ [tail]) = .ok vs) :
    ∃ j, readLines format codec j (records ++ rs.map format.toJson) [tail] = .ok vs := by
  induction rs generalizing i records with
  | nil => exact ⟨i, by simpa using h⟩
  | cons r rs ih =>
      rw [List.map_cons, List.cons_append, readLines] at h
      simp only [trim_stringify, if_neg (stringify_ne_nil r), codec.parse_stringify] at h
      split at h
      · cases h
      · split at h
        · cases h
        · have hrest := ih (i + 1) (records ++ [format.toJson r]) h
          rwa [List.append_assoc, List.singleton_append] at hrest

/-- A journal that can be read gives the completed records, and perhaps the one left behind them. -/
theorem Laid.readAll_ok {left : ρ → Prop} {file : Bytes} {completed : List ρ}
    (h : Laid format codec left file completed) {vs : List Json}
    (hread : readAll format codec file = .ok vs) :
    ∃ more : List ρ, (∀ r ∈ more, left r) ∧ vs = (completed ++ more).map format.toJson := by
  obtain ⟨tail, rfl, htail⟩ := h
  have hnewline : newline ∉ tail := by
    rcases htail with hfragment | ⟨r, -, rfl⟩
    · exact hfragment.newline_not_mem
    · exact codec.newline_not_mem r
  rw [readAll, splitOn_file completed hnewline] at hread
  obtain ⟨j, hlast⟩ := readLines_map_stringify 0 [] completed hread
  rw [List.nil_append] at hlast
  -- The last line is a fragment that the loop drops, or a whole record that it keeps.
  rcases htail with hfragment | ⟨r, hleft, rfl⟩
  · rw [readLines_fragment hfragment] at hlast
    cases hlast
    exact ⟨[], by simp, by simp⟩
  · rw [readLines] at hlast
    simp only [trim_stringify, if_neg (stringify_ne_nil r), codec.parse_stringify] at hlast
    split at hlast
    · cases hlast
    · split at hlast
      · cases hlast
      · cases hlast
        exact ⟨[r], by simpa using hleft, by simp⟩

/-- A fragment behind the completed lines changes nothing of what is read, or of how it fails. -/
theorem readLines_congr {tail tail' : Bytes} (htail : Fragment format codec tail)
    (htail' : Fragment format codec tail') (i : ℕ) (records : List Json) (rs : List ρ) :
    readLines format codec i records (rs.map codec.stringify ++ [tail]) =
      readLines format codec i records (rs.map codec.stringify ++ [tail']) := by
  induction rs generalizing i records with
  | nil =>
      show readLines format codec i records [tail] = readLines format codec i records [tail']
      rw [readLines_fragment htail, readLines_fragment htail']
  | cons r rs ih =>
      rw [List.map_cons, List.cons_append, List.cons_append, readLines, readLines]
      simp only [trim_stringify, if_neg (stringify_ne_nil r), codec.parse_stringify, ih]

/-- Two files of the same completed records read the same. -/
theorem Laid.readAll_congr {file file' : Bytes} {completed : List ρ}
    (h : Laid format codec (fun _ => False) file completed)
    (h' : Laid format codec (fun _ => False) file' completed) :
    readAll format codec file = readAll format codec file' := by
  obtain ⟨tail, rfl, htail | ⟨r, hleft, -⟩⟩ := h
  · obtain ⟨tail', rfl, htail' | ⟨r, hleft, -⟩⟩ := h'
    · rw [readAll, readAll, splitOn_file completed htail.newline_not_mem,
        splitOn_file completed htail'.newline_not_mem]
      exact readLines_congr htail htail' 0 [] completed
    · exact hleft.elim
  · exact hleft.elim

theorem Sound.file_eq {s : Store} {completed : List ρ} (h : Sound format codec s completed) :
    ∃ tail, s.file = completed.flatMap (line format codec) ++ tail ∧ Fragment format codec tail := by
  obtain ⟨tail, hfile, hfragment | ⟨r, hleft, -⟩⟩ := h.laid
  · exact ⟨tail, hfile, hfragment⟩
  · exact hleft.elim

theorem Sound.readAll_eq {s : Store} {completed : List ρ} (h : Sound format codec s completed) :
    readAll format codec s.file = .ok (completed.map format.toJson) := by
  obtain ⟨tail, hfile, htail⟩ := h.file_eq
  rw [readAll, hfile, splitOn_file completed htail.newline_not_mem,
    readLines_completed htail 0 [] completed (by simpa using h.seqs) h.admitted, List.nil_append]

theorem Sound.assignSeq_eq {s : Store} {completed : List ρ} (h : Sound format codec s completed) :
    assignSeq format codec s = .ok completed.length := by
  unfold assignSeq
  split
  · rename_i n hn
    rw [h.nextSeq n hn]
  · rw [h.readAll_eq]
    simp [Except.map]

/-- The file is empty or its last line is terminated. -/
def EndsClean (file : Bytes) : Prop := file = [] ∨ file.getLast? = some newline

instance (file : Bytes) : Decidable (EndsClean file) := by
  dsimp only [EndsClean]; infer_instance

theorem Laid.file_of_endsClean {left : ρ → Prop} {file : Bytes} {completed : List ρ}
    (h : Laid format codec left file completed) (hclean : EndsClean file) :
    file = completed.flatMap (line format codec) := by
  obtain ⟨tail, hfile, htail⟩ := h
  rcases List.eq_nil_or_concat tail with rfl | ⟨t, b, rfl⟩
  · rw [hfile, List.append_nil]
  · have hb : b = newline := by
      rcases hclean with hnil | hlast
      · rw [hnil] at hfile
        simp at hfile
      · rw [hfile, List.concat_eq_append, ← List.append_assoc, List.getLast?_concat] at hlast
        exact Option.some.inj hlast
    -- A tail would end in a line feed, and neither a fragment nor a record has one.
    have hmem : newline ∈ t.concat b := by
      rw [List.concat_eq_append, hb]
      simp
    rcases htail with hfragment | ⟨r, -, heq⟩
    · exact absurd hmem hfragment.newline_not_mem
    · rw [heq] at hmem
      exact absurd hmem (codec.newline_not_mem r)

end Sound

/-! ## Runs -/

section Runs

variable {ι ρ : Type} (format : Format ι ρ) (codec : Codec format.toJson)

/-- An append that does not write on behind a torn line, and that does not fail with its whole text
written but its line feed, unless the record is one of `left`. -/
def Contained (left : ρ → Prop) (s : Store) (input : ι) : Write → Prop
  | .complete => EndsClean s.file
  | .torn written => EndsClean s.file ∧ ∀ n ∈ (assignSeq format codec s).toOption,
      written < (codec.stringify (format.withSeq input n)).length ∨ left (format.withSeq input n)

instance (left : ρ → Prop) [DecidablePred left] (s : Store) (input : ι) (write : Write) :
    Decidable (Contained format codec left s input write) := by
  cases write <;> dsimp only [Contained] <;> infer_instance

/-- The condition on an append: it does not write on behind a torn line; a record that is written
in full is one that is admitted when it is read back; and a write that fails has not got as far as
the whole text without its line feed. -/
def Clean (s : Store) (input : ι) (write : Write) : Prop :=
  Contained format codec (fun _ => False) s input write ∧
    (write = .complete → format.check (format.toJson (format.withSeq input 0)) = none)

instance (s : Store) (input : ι) (write : Write) : Decidable (Clean format codec s input write) := by
  dsimp only [Clean]; infer_instance

/-- One append in every possible way, or a new process on the same file. -/
inductive Command (ι : Type) where
  | append (input : ι) (write : Write)
  | restart
deriving DecidableEq, Repr

/-- A journal together with the records whose append completed. -/
structure History (ρ : Type) where
  store : Store
  completed : List ρ

def emptyHistory : History ρ := ⟨⟨[], none⟩, []⟩

def step (h : History ρ) : Command ι → History ρ
  | .append input write =>
      let out := append format codec h.store input write
      ⟨out.2, h.completed ++ out.1.toList⟩
  | .restart => ⟨{ h.store with nextSeq := none }, h.completed⟩

def CleanStep (h : History ρ) : Command ι → Prop
  | .append input write => Clean format codec h.store input write
  | .restart => True

instance (h : History ρ) (c : Command ι) : Decidable (CleanStep format codec h c) := by
  cases c <;> dsimp only [CleanStep] <;> infer_instance

variable {format codec}

/-- A contained append keeps the layout, whatever number the record gets. -/
theorem Laid.append {left : ρ → Prop} {s : Store} {completed : List ρ}
    (h : Laid format codec left s.file completed) {input : ι} {write : Write}
    (hcontained : Contained format codec left s input write) :
    Laid format codec left (append format codec s input write).2.file
      (completed ++ (append format codec s input write).1.toList) := by
  rw [Journal.append]
  cases hseq : assignSeq format codec s with
  | error e => simpa using h
  | ok n =>
      cases write with
      | complete =>
          refine ⟨[], ?_, .inl (.inl rfl)⟩
          rw [h.file_of_endsClean hcontained, List.append_nil, Option.toList_some,
            List.flatMap_append, List.flatMap_singleton]
      | torn written =>
          obtain ⟨hends, hwritten⟩ := hcontained
          rw [hseq] at hwritten
          set r := format.withSeq input n with hr
          dsimp only
          rw [Option.toList_none, List.append_nil, h.file_of_endsClean hends]
          have hle : min written ((line format codec r).length - 1) ≤
              (codec.stringify r).length := by
            simp [line]
          have hpart : tornPart format codec r written <+: codec.stringify r := by
            rw [tornPart, line, List.take_append_of_le_length (by rwa [line] at hle)]
            exact List.take_prefix _ _
          refine ⟨tornPart format codec r written, rfl, ?_⟩
          -- A torn write may stop just before the line feed: then the whole record is there,
          -- unfinished.
          by_cases heq : tornPart format codec r written = codec.stringify r
          · rcases hwritten n rfl with hlt | hleft
            · have hlen := congrArg List.length heq
              rw [tornPart, List.length_take] at hlen
              rw [← hr] at hlt
              omega
            · exact .inr ⟨r, hleft, heq⟩
          · exact .inl (.inr ⟨r, hpart, heq⟩)

theorem Sound.append {s : Store} {completed : List ρ} (h : Sound format codec s completed)
    {input : ι} {write : Write} (hclean : Clean format codec s input write) :
    Sound format codec (append format codec s input write).2
      (completed ++ (append format codec s input write).1.toList) := by
  obtain ⟨hcontained, hcheck⟩ := hclean
  -- A torn write adds nothing to the completed records.
  refine ⟨h.laid.append hcontained, ?_, ?_, ?_⟩ <;> rw [Journal.append, h.assignSeq_eq]
  · intro k r hk
    cases write with
    | torn written => exact h.seqs k r (by simpa using hk)
    | complete =>
        exact Run.forall_getElem?_concat (P := fun k r _ => seqOf (format.toJson r) = some (k : ℤ))
          h.seqs (format.seqOf_withSeq input completed.length) k r hk
  · intro r hr
    rcases List.mem_append.mp hr with hr | hr
    · exact h.admitted r hr
    · cases write with
      | torn written => cases hr
      | complete =>
          obtain rfl := List.mem_singleton.mp hr
          exact format.check_withSeq input 0 completed.length (hcheck rfl)
  · intro n hn
    cases write with
    | torn written =>
        cases hn
        simp
    | complete =>
        cases hn
        simp

theorem Sound.restart {s : Store} {completed : List ρ} (h : Sound format codec s completed) :
    Sound format codec { s with nextSeq := none } completed :=
  ⟨h.laid, h.seqs, h.admitted, by rintro n ⟨⟩⟩

theorem sound_empty : Sound format codec ⟨[], none⟩ [] :=
  ⟨⟨[], rfl, .inl (.inl rfl)⟩, by simp, by simp, by rintro n ⟨⟩⟩

theorem sound_run (commands : List (Command ι))
    (h : RunMeets (step format codec) (CleanStep format codec) emptyHistory commands) :
    Sound format codec (run (step format codec) emptyHistory commands).store
      (run (step format codec) emptyHistory commands).completed := by
  have hstep : ∀ (t : History ρ) (c : Command ι), Sound format codec t.store t.completed →
      CleanStep format codec t c →
      Sound format codec (step format codec t c).store (step format codec t c).completed := by
    intro t c hsound hclean
    cases c with
    | append input write => exact hsound.append hclean
    | restart => exact hsound.restart
  exact run_invariant hstep sound_empty h

/-- Crash safety: after any run of clean steps the journal reads back as exactly the records whose
append completed. -/
theorem readAll_eq_completed (commands : List (Command ι))
    (h : RunMeets (step format codec) (CleanStep format codec) emptyHistory commands) :
    readAll format codec (run (step format codec) emptyHistory commands).store.file =
      .ok ((run (step format codec) emptyHistory commands).completed.map format.toJson) :=
  (sound_run commands h).readAll_eq

end Runs

end Journal
