import NexusQuant.Web.RedisReplies

/-!
# Replies in chunks

The wire form of a reply is a type byte, a line without a line end in it, the line end, and the body
of a bulk string.  The first line end after a type byte is therefore that of the reply's own line,
whatever the bodies hold, and a body is delimited by its length alone: a reply is read back from its
wire form with anything behind it, and from no strict prefix of it.
-/

namespace NexusQuant.Web

open DecimalText

/-! ## Lines -/

/-- A line of a reply. -/
structure Line where
  bytes : Bytes
  unbroken : ¬[cr, lf] <:+: bytes

section Lines

variable {bs rest : Bytes}

theorem lineEnd_eq_none (h : ¬[cr, lf] <:+: bs) : lineEnd bs = none := by
  induction bs using lineEnd.induct with
  | case1 => rfl
  | case2 => rfl
  | case3 a b bs hend =>
      obtain ⟨rfl, rfl⟩ := hend
      exact absurd ⟨[], bs, rfl⟩ h
  | case4 a b bs hne ih =>
      rw [lineEnd, if_neg hne, ih fun hbroken => h (List.infix_cons hbroken)]
      rfl

/-- The first line end after an unbroken line is its own. -/
theorem lineEnd_append (h : ¬[cr, lf] <:+: bs) :
    lineEnd (bs ++ cr :: lf :: rest) = some bs.length := by
  induction bs using lineEnd.induct with
  | case1 => rfl
  | case2 a =>
      have hne : ¬(a = cr ∧ cr = lf) := fun heq => absurd heq.2 (by decide)
      rw [List.singleton_append, lineEnd, if_neg hne]
      rfl
  | case3 a b bs hend =>
      obtain ⟨rfl, rfl⟩ := hend
      exact absurd ⟨[], bs, rfl⟩ h
  | case4 a b bs hne ih =>
      have htail := ih fun hbroken => h (List.infix_cons hbroken)
      rw [List.cons_append, List.cons_append, lineEnd, if_neg hne, ← List.cons_append, htail]
      rfl

/-- A line that ends with half of a line end is still unbroken. -/
theorem unbroken_concat_cr (h : ¬[cr, lf] <:+: bs) : ¬[cr, lf] <:+: bs ++ [cr] := by
  rintro ⟨before, after, heq⟩
  rcases List.eq_nil_or_concat after with rfl | ⟨after', b, rfl⟩
  · rw [List.append_nil] at heq
    have hlast : before ++ [cr] ++ [lf] = bs ++ [cr] := by
      rw [List.append_assoc]
      exact heq
    exact absurd (List.singleton_inj.mp (List.append_inj' hlast rfl).2) (by decide)
  · rw [List.concat_eq_append, ← List.append_assoc] at heq
    exact h ⟨before, after', (List.append_inj' heq rfl).1⟩

theorem unbroken_of_not_mem (h : cr ∉ bs) : ¬[cr, lf] <:+: bs :=
  fun hbroken => h (hbroken.subset List.mem_cons_self)

theorem unbroken_cons {a : UInt8} (ha : a ≠ cr) (h : ¬[cr, lf] <:+: bs) :
    ¬[cr, lf] <:+: a :: bs := by
  intro hbroken
  rcases List.infix_cons_iff.mp hbroken with hprefix | htail
  · exact ha (List.cons_prefix_cons.mp hprefix).1.symm
  · exact h htail

end Lines

/-! ## Integers as bytes -/

theorem mem_printInt {n : ℤ} {b : UInt8} (hb : b ∈ Json.printInt n) :
    b = Json.minus ∨ Json.isDigit b := by
  unfold Json.printInt at hb
  split at hb
  · rcases List.mem_cons.mp hb with rfl | hb
    · exact .inl rfl
    · exact .inr (Json.isDigit_of_mem_natBytes hb)
  · exact .inr (Json.isDigit_of_mem_natBytes hb)

theorem unbroken_printInt (n : ℤ) : ¬[cr, lf] <:+: Json.printInt n := by
  apply unbroken_of_not_mem
  intro hmem
  rcases mem_printInt hmem with heq | hdigit
  · exact absurd heq (by decide)
  · exact absurd hdigit (by decide)

theorem decode_printInt (n : ℤ) : Utf8.decode (Json.printInt n) = toString n := by
  have hascii : ∀ b ∈ Json.printInt n, b < 0x80 := by
    intro b hb
    rcases mem_printInt hb with rfl | hdigit
    · decide
    · have hle : b ≤ 57 := by
        unfold Json.isDigit at hdigit
        simpa using (Bool.and_eq_true_iff.mp hdigit).2
      exact UInt8.lt_of_le_of_lt hle (by decide)
  apply String.toList_inj.mp
  rw [Utf8.decode_of_ascii hascii, String.toList_ofList, toList_toString_int]
  unfold Json.printInt
  by_cases hneg : n < 0
  · rw [if_pos hneg, if_pos hneg, List.map_cons, Json.natBytes_toChars]
    rfl
  · rw [if_neg hneg, if_neg hneg, Json.natBytes_toChars, List.nil_append]

/-! ## The wire form -/

inductive WireReply where
  | status (line : Line)
  | error (line : Line)
  | int (n : ℤ)
  | bulk (bytes : Bytes)
  | null

def WireReply.typeByte : WireReply → UInt8
  | .status _ => 43
  | .error _ => 45
  | .int _ => 58
  | .bulk _ | .null => 36

def WireReply.line : WireReply → Bytes
  | .status line | .error line => line.bytes
  | .int n => Json.printInt n
  | .bulk bytes => Json.printInt bytes.length
  | .null => Json.printInt (-1)

def WireReply.body : WireReply → Bytes
  | .bulk bytes => bytes ++ [cr, lf]
  | _ => []

/-- What comes before the line end. -/
def WireReply.head (r : WireReply) : Bytes := r.typeByte :: r.line

def WireReply.header (r : WireReply) : Bytes := r.head ++ [cr, lf]

def WireReply.encode (r : WireReply) : Bytes := r.header ++ r.body

def encodeReplies (rs : List WireReply) : Bytes := rs.flatMap WireReply.encode

/-- The reply that the wire form stands for. -/
def WireReply.reply : WireReply → RedisReply
  | .status line => .status (Utf8.decode line.bytes)
  | .error line => .error (Utf8.decode line.bytes)
  | .int n => .int (toNumber (toString n))
  | .bulk bytes => .bulk (some (Utf8.decode bytes))
  | .null => .bulk none

theorem WireReply.line_unbroken (r : WireReply) : ¬[cr, lf] <:+: r.line := by
  cases r with
  | status line => exact line.unbroken
  | error line => exact line.unbroken
  | int n => exact unbroken_printInt n
  | bulk bytes => exact unbroken_printInt _
  | null => exact unbroken_printInt _

theorem WireReply.head_unbroken (r : WireReply) : ¬[cr, lf] <:+: r.head := by
  apply unbroken_cons _ r.line_unbroken
  cases r <;> simp [typeByte, cr]

/-! ## One reply -/

section Reply

variable {buf done rest : Bytes} {r : WireReply}

/-- The line of a reply, wherever the reply starts. -/
theorem header_of_append (hbuf : buf = done ++ (r.head ++ cr :: lf :: rest)) :
    indexOfLineEnd buf done.length = some (done.length + r.head.length) ∧
      buf[done.length]? = some r.typeByte ∧
      textOf buf (done.length + 1) (done.length + r.head.length) = Utf8.decode r.line := by
  subst hbuf
  refine ⟨?_, ?_, ?_⟩
  · unfold indexOfLineEnd
    rw [List.drop_left, lineEnd_append r.head_unbroken]
    rfl
  · rw [List.getElem?_append_right (Nat.le_refl _), Nat.sub_self]
    rfl
  · have htake : (done ++ (r.head ++ cr :: lf :: rest)).take (done.length + r.head.length) =
        done ++ r.head := by
      rw [← List.append_assoc, ← List.length_append, List.take_left]
    have hdrop : (done ++ r.head).drop (done.length + 1) = r.line := by
      rw [← List.drop_drop, List.drop_left]
      rfl
    unfold textOf
    rw [htake, hdrop]

theorem offset?_natCast (n : ℕ) : offset? (n : ℚ) = some n := by
  unfold offset?
  rw [if_pos ⟨Nat.cast_nonneg n, Rat.den_natCast n⟩, Rat.num_natCast n, Int.toNat_natCast]

/-- A bulk body is read once its bytes and the line end behind them are there. -/
theorem parseBulk_natCast (off len : ℕ) : parseBulk buf off (.fin (len : ℚ)) =
    if buf.length < off + len + 2 then none
    else some (.bulk (some (textOf buf off (off + len))), some (off + len + 2)) := by
  have hne : (len : ℚ) ≠ -1 := by
    have hnonneg : (0 : ℚ) ≤ len := Nat.cast_nonneg len
    intro heq
    rw [heq] at hnonneg
    exact absurd hnonneg (by decide)
  have hcast : (off : ℚ) + len + 2 = ((off + len + 2 : ℕ) : ℚ) := by push_cast; rfl
  have hfloor : ⌊(off : ℚ) + len⌋.toNat = off + len := by
    rw [← Nat.cast_add, Int.floor_natCast, Int.toNat_natCast]
  unfold parseBulk
  dsimp only
  rw [if_neg hne, hcast, hfloor, offset?_natCast]
  simp only [Nat.cast_lt]

theorem parseBulk_append (done bytes rest : Bytes) :
    parseBulk (done ++ (bytes ++ cr :: lf :: rest)) done.length (.fin (bytes.length : ℚ)) =
      some (.bulk (some (Utf8.decode bytes)), some (done.length + bytes.length + 2)) := by
  have hfits : ¬(done ++ (bytes ++ cr :: lf :: rest)).length < done.length + bytes.length + 2 := by
    simp only [List.length_append, List.length_cons]
    omega
  rw [parseBulk_natCast, if_neg hfits, textOf, List.take_length_add_append, List.drop_left,
    List.take_left]

theorem parseBulk_of_length_lt {body : Bytes} {len : ℕ} (done : Bytes) (h : body.length < len + 2) :
    parseBulk (done ++ body) done.length (.fin (len : ℚ)) = none := by
  have hmissing : (done ++ body).length < done.length + len + 2 := by
    rw [List.length_append]
    omega
  rw [parseBulk_natCast, if_pos hmissing]

/-- What is read behind the line of a reply. -/
def WireReply.readBody (r : WireReply) (buf : Bytes) (off : ℕ) : Option (RedisReply × Option ℕ) :=
  match r with
  | .bulk bytes => parseBulk buf off (.fin (bytes.length : ℚ))
  | r => some (r.reply, some off)

/-- Once the line is there, the body decides. -/
theorem parseReply_of_header (done rest : Bytes) (r : WireReply) :
    parseReply ((done ++ r.header) ++ rest) done.length =
      .ok (r.readBody ((done ++ r.header) ++ rest) (done ++ r.header).length) := by
  have hbuf : (done ++ r.header) ++ rest = done ++ (r.head ++ cr :: lf :: rest) := by
    simp only [WireReply.header, List.append_assoc, List.cons_append, List.nil_append]
  have hoff : (done ++ r.header).length = done.length + r.head.length + 2 := by
    rw [WireReply.header, ← List.append_assoc, List.length_append, List.length_append]
    rfl
  obtain ⟨hline, htype, htext⟩ := header_of_append hbuf
  unfold parseReply
  rw [hline, htype, hoff]
  dsimp only
  rw [htext]
  cases r with
  | status line => rfl
  | error line => rfl
  | int n =>
      show Except.ok (some (RedisReply.int (toNumber (Utf8.decode (Json.printInt n))), _)) = _
      rw [decode_printInt]
      rfl
  | bulk bytes =>
      show Except.ok (parseBulk _ _ (toNumber (Utf8.decode (Json.printInt bytes.length)))) = _
      rw [decode_printInt, toNumber_toString]
      rfl
  | null =>
      show Except.ok (parseBulk _ _ (toNumber (Utf8.decode (Json.printInt (-1))))) = _
      rw [decode_printInt, toNumber_toString]
      rfl

/-- A reply is read back from its wire form, with anything behind it. -/
theorem parseReply_append (done rest : Bytes) (r : WireReply) :
    parseReply (done ++ (r.encode ++ rest)) done.length =
      .ok (some (r.reply, some (done ++ r.encode).length)) := by
  have hbuf : done ++ (r.encode ++ rest) = (done ++ r.header) ++ (r.body ++ rest) := by
    rw [WireReply.encode, List.append_assoc, List.append_assoc]
  have hoff : (done ++ r.encode).length = (done ++ r.header).length + r.body.length := by
    rw [WireReply.encode, ← List.append_assoc, List.length_append]
  rw [hbuf, parseReply_of_header, hoff]
  cases r with
  | status line => rfl
  | error line => rfl
  | int n => rfl
  | null => rfl
  | bulk bytes =>
      have hbody : (WireReply.bulk bytes).body ++ rest = bytes ++ cr :: lf :: rest := by
        rw [WireReply.body, List.append_assoc]
        rfl
      rw [WireReply.readBody, hbody, parseBulk_append, Nat.add_assoc, WireReply.body,
        @List.length_append _ bytes [cr, lf]]
      rfl

/-- The two places where a strict prefix of a concatenation can end. -/
theorem prefix_append_cases {a b p : Bytes} (h : p <+: a ++ b) :
    (p <+: a ∧ p ≠ a) ∨ ∃ t, p = a ++ t ∧ t <+: b := by
  by_cases hle : a <+: p
  · right
    obtain ⟨t, rfl⟩ := hle
    exact ⟨t, rfl, (List.prefix_append_right_inj a).mp h⟩
  · left
    rcases List.prefix_or_prefix_of_prefix h (List.prefix_append a b) with hpa | hap
    · exact ⟨hpa, fun heq => hle (heq ▸ List.prefix_rfl)⟩
    · exact absurd hap hle

/-- A reply is not read from a strict prefix of its wire form. -/
theorem parseReply_of_prefix {p : Bytes} (hp : p <+: r.encode) (hne : p ≠ r.encode) :
    parseReply (done ++ p) done.length = .ok none := by
  rcases prefix_append_cases hp with ⟨hheader, hshort⟩ | ⟨body, rfl, hbody⟩
  · -- The cut is at the line end or before it: the line end is not found.
    have hconcat : r.header = (r.head ++ [cr]) ++ [lf] := by
      rw [WireReply.header, List.append_assoc]
      rfl
    rw [hconcat] at hheader hshort
    have hunbroken : ¬[cr, lf] <:+: p := by
      rcases List.prefix_concat_iff.mp hheader with heq | hprefix
      · exact absurd heq hshort
      · exact fun hbroken => unbroken_concat_cr r.head_unbroken (hbroken.trans hprefix.isInfix)
    unfold parseReply indexOfLineEnd
    rw [List.drop_left, lineEnd_eq_none hunbroken]
    rfl
  · -- The cut is in the body, which only a bulk string has.
    have hcut : body ≠ r.body := fun heq => hne (heq ▸ rfl)
    rw [← List.append_assoc, parseReply_of_header]
    cases r with
    | status line => exact absurd (List.prefix_nil.mp hbody) hcut
    | error line => exact absurd (List.prefix_nil.mp hbody) hcut
    | int n => exact absurd (List.prefix_nil.mp hbody) hcut
    | null => exact absurd (List.prefix_nil.mp hbody) hcut
    | bulk bytes =>
        have hlt : body.length < (bytes ++ [cr, lf]).length :=
          Nat.lt_of_le_of_ne hbody.length_le fun heq => hcut (hbody.eq_of_length heq)
        rw [List.length_append] at hlt
        rw [WireReply.readBody, parseBulk_of_length_lt _ hlt]

end Reply

/-! ## Many replies -/

section Replies

variable {rs : List WireReply}

theorem encodeReplies_cons (r : WireReply) (rs : List WireReply) :
    encodeReplies (r :: rs) = r.encode ++ encodeReplies rs := List.flatMap_cons

/-- One step of the loop: the reply in front is read, and the rest is read behind it. -/
theorem parseFrom_append (done rest : Bytes) (r : WireReply) (missing : ℕ) :
    parseFrom (done ++ (r.encode ++ rest)) (missing + 1) (some done.length) =
      (parseFrom ((done ++ r.encode) ++ rest) missing (some (done ++ r.encode).length)).map
        (Option.map (r.reply :: ·)) := by
  rw [parseFrom, parseReply_append, List.append_assoc]

theorem parseFrom_encodeReplies (rs : List WireReply) (done suffix : Bytes) :
    parseFrom (done ++ (encodeReplies rs ++ suffix)) rs.length (some done.length) =
      .ok (some (rs.map WireReply.reply)) := by
  induction rs generalizing done with
  | nil => rfl
  | cons r rs ih =>
      rw [encodeReplies_cons, List.append_assoc, List.length_cons, parseFrom_append, ih]
      rfl

theorem parseFrom_of_prefix {p : Bytes} (rs : List WireReply) (done : Bytes)
    (hp : p <+: encodeReplies rs) (hne : p ≠ encodeReplies rs) :
    parseFrom (done ++ p) rs.length (some done.length) = .ok none := by
  induction rs generalizing done p with
  | nil => exact absurd (List.prefix_nil.mp hp) hne
  | cons r rs ih =>
      rw [encodeReplies_cons] at hp hne
      rw [List.length_cons]
      rcases prefix_append_cases hp with ⟨hcut, hshort⟩ | ⟨t, rfl, ht⟩
      · rw [parseFrom, parseReply_of_prefix hcut hshort]
      · have hrest : t ≠ encodeReplies rs := fun heq => hne (heq ▸ rfl)
        rw [parseFrom_append, ih _ ht hrest]
        rfl

end Replies

/-! ## Commands -/

section Commands

theorem utf8_append (a b : String) : Json.utf8 (a ++ b) = Json.utf8 a ++ Json.utf8 b := by
  rw [Json.utf8, String.toByteArray_append, ByteArray.data_append, Array.toList_append]
  rfl

theorem utf8EncodeChar_of_isDigit {c : Char} (hc : c.isDigit) :
    String.utf8EncodeChar c = [c.toUInt8] := by
  have hle : c.val.toNat ≤ 57 := by
    unfold Char.isDigit at hc
    exact UInt32.le_iff_toNat_le.mp (of_decide_eq_true (Bool.and_eq_true_iff.mp hc).2)
  unfold String.utf8EncodeChar
  dsimp only
  rw [if_pos (by omega)]
  rfl

theorem utf8_toString_nat (n : ℕ) : Json.utf8 (toString n) = Json.printInt n := by
  have hdigits : ∀ c ∈ Nat.toDigits 10 n, String.utf8EncodeChar c = [c.toUInt8] := fun c hc =>
    utf8EncodeChar_of_isDigit (Nat.isDigit_of_mem_toDigits (by decide) (by decide) hc)
  rw [Json.utf8, ← String.utf8Encode_toList, List.utf8Encode, List.toList_data_toByteArray,
    Nat.toString_eq_repr, Nat.toList_repr, List.flatMap_congr hdigits, ← List.map_eq_flatMap]
  rfl

/-- The line that announces the parts of a command. -/
def commandHeader (count : ℕ) : Bytes := 42 :: Json.printInt count ++ [cr, lf]

/-- A command is an array of bulk strings. -/
theorem utf8_encodeCommand (parts : List String) :
    Json.utf8 (encodeCommand parts) =
      commandHeader parts.length ++ encodeReplies (parts.map fun p => .bulk (Json.utf8 p)) := by
  have hheader : Json.utf8 ("*" ++ toString parts.length ++ "\r\n") = commandHeader parts.length := by
    rw [utf8_append, utf8_append, utf8_toString_nat]
    rfl
  have hbulk : ∀ p : String, Json.utf8 ("$" ++ toString (Json.utf8 p).length ++ "\r\n" ++ p ++ "\r\n") =
      (WireReply.bulk (Json.utf8 p)).encode := by
    intro p
    rw [utf8_append, utf8_append, utf8_append, utf8_append, utf8_toString_nat, List.append_assoc]
    rfl
  have hfold : ∀ (ps : List String) (out : String),
      Json.utf8 (ps.foldl (fun out p =>
        out ++ ("$" ++ toString (Json.utf8 p).length ++ "\r\n" ++ p ++ "\r\n")) out) =
          Json.utf8 out ++ encodeReplies (ps.map fun p => .bulk (Json.utf8 p)) := by
    intro ps
    induction ps with
    | nil => exact fun out => (List.append_nil _).symm
    | cons p ps ih =>
        intro out
        rw [List.foldl_cons, ih, utf8_append, hbulk, List.map_cons, encodeReplies_cons,
          List.append_assoc]
  rw [encodeCommand, hfold, hheader]

/-- Behind its header every part of a command is read back, whatever it holds. -/
theorem parts_read_back (parts : List String) (suffix : Bytes) :
    parseFrom (Json.utf8 (encodeCommand parts) ++ suffix) parts.length
        (some (commandHeader parts.length).length) =
      .ok (some (parts.map fun p => .bulk (some p))) := by
  have hread := parseFrom_encodeReplies (parts.map fun p => .bulk (Json.utf8 p))
    (commandHeader parts.length) suffix
  have hreplies : (parts.map fun p => WireReply.bulk (Json.utf8 p)).map WireReply.reply =
      parts.map fun p => .bulk (some p) := by
    rw [List.map_map]
    apply List.map_congr_left
    intro p _
    show RedisReply.bulk (some (Utf8.decode (Json.utf8 p))) = _
    rw [Json.utf8, Utf8.decode_toByteArray]
  rw [List.length_map, hreplies] at hread
  rw [utf8_encodeCommand, List.append_assoc, hread]

end Commands
/-! ## Chunks -/

/-- The socket after some chunks. -/
def RedisSocket.feed (expected : ℕ) (password : Bool) (chunks : List Bytes) : RedisSocket :=
  chunks.foldl (RedisSocket.onData expected password) RedisSocket.initial

/-- What complete replies resolve to. -/
def answer (password : Bool) (replies : List RedisReply) : Option (List RedisReply) :=
  if replies.any RedisReply.isError then none
  else some (if password then replies.drop 1 else replies)

namespace RedisSocket

variable {expected : ℕ} {password : Bool} {s : RedisSocket} {chunk : Bytes}
  {replies : List RedisReply} {outcome : Option (List RedisReply)}

theorem finish_buf (s : RedisSocket) (replies : Option (List RedisReply)) :
    (s.finish replies).buf = s.buf := by
  unfold finish
  split <;> rfl

theorem finish_of_resolved (h : s.resolved = some outcome) (replies : Option (List RedisReply)) :
    s.finish replies = s := by
  rw [finish, if_pos (by rw [h]; rfl)]

theorem finish_of_unresolved (h : s.resolved = none) (replies : Option (List RedisReply)) :
    (s.finish replies).resolved = some replies := by
  rw [finish, if_neg (by rw [h]; exact Bool.false_ne_true)]

theorem onData_buf : (s.onData expected password chunk).buf = s.buf ++ chunk := by
  unfold onData
  dsimp only
  split
  · rw [finish_buf]
  · rfl
  · split <;> rw [finish_buf]

/-- What the promise was resolved with stays. -/
theorem onData_of_resolved (h : s.resolved = some outcome) :
    (s.onData expected password chunk).resolved = some outcome := by
  have hkeep : ∀ replies, ({ s with buf := s.buf ++ chunk }.finish replies).resolved = some outcome :=
    fun replies => by rw [finish_of_resolved (s := { s with buf := s.buf ++ chunk }) h, h]
  unfold onData
  dsimp only
  split
  · exact hkeep _
  · exact h
  · split
    · exact hkeep _
    · exact hkeep _

theorem onData_of_incomplete (h : parseReplies (s.buf ++ chunk) expected = .ok none) :
    (s.onData expected password chunk).resolved = s.resolved := by
  unfold onData
  dsimp only
  rw [h]

theorem onData_of_complete (hnone : s.resolved = none)
    (h : parseReplies (s.buf ++ chunk) expected = .ok (some replies)) :
    (s.onData expected password chunk).resolved = some (answer password replies) := by
  unfold onData answer
  dsimp only
  rw [h]
  dsimp only
  have hset := @finish_of_unresolved { s with buf := s.buf ++ chunk } hnone
  split
  · exact hset _
  · exact hset _

theorem feed_concat (chunks : List Bytes) (chunk : Bytes) :
    feed expected password (chunks ++ [chunk]) =
      (feed expected password chunks).onData expected password chunk := by
  rw [feed, List.foldl_concat]
  rfl

theorem feed_buf (chunks : List Bytes) : (feed expected password chunks).buf = chunks.flatten := by
  induction chunks using List.reverseRecOn with
  | nil => rfl
  | append_singleton chunks chunk ih =>
      rw [feed_concat, onData_buf, ih, List.flatten_concat]

end RedisSocket

section Feed

variable {rs : List WireReply} {password : Bool} {chunks : List Bytes}

theorem parseReplies_of_prefix {p : Bytes} (hp : p <+: encodeReplies rs)
    (hne : p ≠ encodeReplies rs) : parseReplies p rs.length = .ok none :=
  parseFrom_of_prefix rs [] hp hne

theorem parseReplies_append (rs : List WireReply) (suffix : Bytes) :
    parseReplies (encodeReplies rs ++ suffix) rs.length =
      .ok (some (rs.map WireReply.reply)) :=
  parseFrom_encodeReplies rs [] suffix

theorem feed_of_cut (hp : chunks.flatten <+: encodeReplies rs)
    (hne : chunks.flatten ≠ encodeReplies rs) :
    (RedisSocket.feed rs.length password chunks).resolved = none := by
  induction chunks using List.reverseRecOn with
  | nil => rfl
  | append_singleton chunks chunk ih =>
      rw [List.flatten_concat] at hp hne
      have hbefore : chunks.flatten <+: encodeReplies rs := (List.prefix_append _ _).trans hp
      have hshort : chunks.flatten ≠ encodeReplies rs := fun heq =>
        hne (hp.eq_of_length_le (heq ▸ (List.prefix_append _ _).length_le))
      rw [RedisSocket.feed_concat, RedisSocket.onData_of_incomplete, ih hbefore hshort]
      rw [RedisSocket.feed_buf]
      exact parseReplies_of_prefix hp hne

/-- The chunk that completes the replies resolves them, and no later one changes that. -/
theorem feed_of_complete (hrs : rs ≠ []) (hp : encodeReplies rs <+: chunks.flatten) :
    (RedisSocket.feed rs.length password chunks).resolved =
      some (answer password (rs.map WireReply.reply)) := by
  induction chunks using List.reverseRecOn with
  | nil =>
      obtain ⟨r, rs, rfl⟩ := List.exists_cons_of_ne_nil hrs
      exact absurd (List.prefix_nil.mp hp) (List.cons_ne_nil _ _)
  | append_singleton chunks chunk ih =>
      rw [List.flatten_concat] at hp
      rw [RedisSocket.feed_concat]
      by_cases hbefore : encodeReplies rs <+: chunks.flatten
      · exact RedisSocket.onData_of_resolved (ih hbefore)
      · have hopen : chunks.flatten <+: encodeReplies rs :=
          (List.prefix_or_prefix_of_prefix (List.prefix_append _ _) hp).resolve_right hbefore
        have hshort : chunks.flatten ≠ encodeReplies rs := fun heq => hbefore (heq ▸ List.prefix_rfl)
        obtain ⟨suffix, hsuffix⟩ := hp
        apply RedisSocket.onData_of_complete (feed_of_cut hopen hshort)
        rw [RedisSocket.feed_buf, ← hsuffix]
        exact parseReplies_append rs suffix

/-- Replies are read exactly: none from a strict prefix of their wire form, all of them from the
whole of it with anything behind, and so the same ones however the bytes arrive. -/
theorem replies_exact (rs : List WireReply) (hrs : rs ≠ []) :
    (∀ p, p <+: encodeReplies rs → p ≠ encodeReplies rs → parseReplies p rs.length = .ok none) ∧
    (∀ suffix, parseReplies (encodeReplies rs ++ suffix) rs.length =
      .ok (some (rs.map WireReply.reply))) ∧
    ∀ (password : Bool) (chunks : List Bytes),
      (chunks.flatten <+: encodeReplies rs → chunks.flatten ≠ encodeReplies rs →
        (RedisSocket.feed rs.length password chunks).resolved = none) ∧
      (encodeReplies rs <+: chunks.flatten →
        (RedisSocket.feed rs.length password chunks).resolved =
          some (answer password (rs.map WireReply.reply))) := by
  refine ⟨?_, ?_, ?_⟩
  · intro p hp hne
    exact parseReplies_of_prefix hp hne
  · exact parseReplies_append rs
  · intro password chunks
    exact ⟨feed_of_cut, feed_of_complete hrs⟩

end Feed

/-- A bulk string that looks like a null bulk and a line of its own, and three more replies. -/
def sampleReplies : List WireReply :=
  [.bulk [36, 45, 49, 13, 10], .int (-7), .null, .status ⟨[79, 75], by decide⟩]

/-- Cut in the middle of the line end that the bulk string holds. -/
theorem replies_exact_sample :
    parseReplies ((encodeReplies sampleReplies).take 8) 4 = .ok none ∧
    (RedisSocket.feed 4 true
      [(encodeReplies sampleReplies).take 8, (encodeReplies sampleReplies).drop 8 ++ [36]]).resolved =
        some (some [.int (.fin (-7)), .bulk none, .status "OK"]) := by
  obtain ⟨hcut, -, hfeed⟩ := replies_exact sampleReplies (List.cons_ne_nil _ _)
  constructor
  · exact hcut _ (List.take_prefix _ _) (by decide +kernel)
  · have hresolved := (hfeed true _).2 (by decide +kernel : encodeReplies sampleReplies <+:
      [(encodeReplies sampleReplies).take 8, (encodeReplies sampleReplies).drop 8 ++ [36]].flatten)
    have hanswer : answer true (sampleReplies.map WireReply.reply) =
        some [.int (.fin (-7)), .bulk none, .status "OK"] := by decide +kernel
    rw [hanswer] at hresolved
    exact hresolved

end NexusQuant.Web
