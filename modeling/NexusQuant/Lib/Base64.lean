import Mathlib.Data.List.Basic
import Mathlib.Data.List.DropRight
import Mathlib.Data.Nat.Notation

/-!
# Base64

Bytes as sextets and back, with the alphabet and the padding of the standard form, and the URL-safe form
that has two other characters and no padding.  `decode` is the forgiving decoding: it takes white space
out, accepts a missing padding and ignores the bits of the last sextet that belong to no byte.
-/

namespace Base64

def charOf (n : ℕ) : Char :=
  if n < 26 then Char.ofNat (65 + n)
  else if n < 52 then Char.ofNat (71 + n)
  else if n < 62 then Char.ofNat (n - 4)
  else if n = 62 then '+'
  else '/'

def valueOf? (c : Char) : Option ℕ :=
  if 65 ≤ c.toNat ∧ c.toNat ≤ 90 then some (c.toNat - 65)
  else if 97 ≤ c.toNat ∧ c.toNat ≤ 122 then some (c.toNat - 71)
  else if 48 ≤ c.toNat ∧ c.toNat ≤ 57 then some (c.toNat + 4)
  else if c = '+' then some 62
  else if c = '/' then some 63
  else none

/-- The bits of the bytes, six at a time, the last sextet filled up with zeros. -/
def sextets : List UInt8 → List ℕ
  | [] => []
  | [a] => [a.toNat / 4, a.toNat % 4 * 16]
  | [a, b] => [a.toNat / 4, a.toNat % 4 * 16 + b.toNat / 16, b.toNat % 16 * 4]
  | a :: b :: c :: rest =>
      [a.toNat / 4, a.toNat % 4 * 16 + b.toNat / 16, b.toNat % 16 * 4 + c.toNat / 64, c.toNat % 64] ++
        sextets rest

/-- The bytes of the sextets; one sextet alone is no byte. -/
def bytes? : List ℕ → Option (List UInt8)
  | [] => some []
  | [_] => none
  | [p, q] => some [UInt8.ofNat (p * 4 + q / 16)]
  | [p, q, r] => some [UInt8.ofNat (p * 4 + q / 16), UInt8.ofNat (q % 16 * 16 + r / 4)]
  | p :: q :: r :: s :: rest =>
      (bytes? rest).map fun bs =>
        [UInt8.ofNat (p * 4 + q / 16), UInt8.ofNat (q % 16 * 16 + r / 4), UInt8.ofNat (r % 4 * 64 + s)] ++
          bs

/-- The padding to a multiple of four characters. -/
def padding (length : ℕ) : List Char :=
  List.replicate (if length % 4 = 0 then 0 else 4 - length % 4) '='

def encode (bs : List UInt8) : List Char :=
  (sextets bs).map charOf ++ padding (sextets bs).length

def isSpace (c : Char) : Bool := c = '\t' || c = '\n' || c = '\x0c' || c = '\r' || c = ' '

/-- One or two padding characters are taken off a text of whole groups. -/
def unpad (cs : List Char) : List Char :=
  if cs.length % 4 = 0 then
    if ['=', '='] <:+ cs then cs.dropLast.dropLast
    else if ['='] <:+ cs then cs.dropLast
    else cs
  else cs

def decode (cs : List Char) : Option (List UInt8) :=
  ((unpad (cs.filter fun c => !isSpace c)).mapM valueOf?).bind bytes?

/-! ## The URL-safe form -/

def toUrl (c : Char) : Char := if c = '+' then '-' else if c = '/' then '_' else c

def ofUrl (c : Char) : Char := if c = '-' then '+' else if c = '_' then '/' else c

def encodeUrl (bs : List UInt8) : List Char := ((encode bs).map toUrl).rdropWhile (· = '=')

def decodeUrl (cs : List Char) : Option (List UInt8) := decode (cs.map ofUrl ++ padding cs.length)

/-! ## Round trip -/

theorem sextets_lt (bs : List UInt8) : ∀ n ∈ sextets bs, n < 64 := by
  fun_induction sextets bs with
  | case1 => simp
  | case2 a =>
      have ha := a.toNat_lt
      simp only [List.mem_cons, List.not_mem_nil, or_false]
      rintro n (rfl | rfl) <;> omega
  | case3 a b =>
      have ha := a.toNat_lt
      have hb := b.toNat_lt
      simp only [List.mem_cons, List.not_mem_nil, or_false]
      rintro n (rfl | rfl | rfl) <;> omega
  | case4 a b c rest ih =>
      have ha := a.toNat_lt
      have hb := b.toNat_lt
      have hc := c.toNat_lt
      intro n hn
      rcases List.mem_append.mp hn with hhead | hrest
      · simp only [List.mem_cons, List.not_mem_nil, or_false] at hhead
        rcases hhead with rfl | rfl | rfl | rfl <;> omega
      · exact ih n hrest

theorem bytes?_sextets (bs : List UInt8) : bytes? (sextets bs) = some bs := by
  have hbyte : ∀ (a : UInt8) (n : ℕ), n = a.toNat → UInt8.ofNat n = a := by
    rintro a _ rfl
    exact UInt8.ofNat_toNat
  fun_induction sextets bs with
  | case1 => rfl
  | case2 a =>
      show some [_] = some [a]
      rw [hbyte a _ (by omega)]
  | case3 a b =>
      have hb := b.toNat_lt
      show some [_, _] = some [a, b]
      rw [hbyte a _ (by omega), hbyte b _ (by omega)]
  | case4 a b c rest ih =>
      have hb := b.toNat_lt
      have hc := c.toNat_lt
      show (bytes? (sextets rest)).map _ = some (a :: b :: c :: rest)
      rw [ih, Option.map_some, hbyte a _ (by omega), hbyte b _ (by omega), hbyte c _ (by omega)]
      rfl

/-- One sextet over a multiple of four does not happen. -/
theorem length_sextets_mod (bs : List UInt8) : (sextets bs).length % 4 ≠ 1 := by
  fun_induction sextets bs with
  | case1 => decide
  | case2 a => show 2 % 4 ≠ 1; decide
  | case3 a b => show 3 % 4 ≠ 1; decide
  | case4 a b c rest ih =>
      show (_ ++ _ : List ℕ).length % 4 ≠ 1
      rw [List.length_append]
      simp only [List.length_cons, List.length_nil]
      omega

theorem charOf_facts : ∀ n < 64, valueOf? (charOf n) = some n ∧ isSpace (charOf n) = false ∧
    charOf n ≠ '=' ∧ toUrl (charOf n) ≠ '=' ∧ ofUrl (toUrl (charOf n)) = charOf n := by
  decide

section Unpad

variable {cs : List Char} (hnone : ∀ c ∈ cs, c ≠ '=')
include hnone

theorem unpad_whole : unpad cs = cs := by
  have hlast : ¬ ['='] <:+ cs := by
    rintro ⟨front, rfl⟩
    exact hnone '=' (List.mem_append_right front (List.mem_singleton_self _)) rfl
  have htwo : ¬ ['=', '='] <:+ cs := by
    rintro ⟨front, rfl⟩
    exact hnone '=' (List.mem_append_right front List.mem_cons_self) rfl
  unfold unpad
  rw [if_neg htwo, if_neg hlast, ite_self]

theorem unpad_one (hlength : (cs ++ ['=']).length % 4 = 0) : unpad (cs ++ ['=']) = cs := by
  -- A second padding character would be one of the text.
  have htwo : ¬ ['=', '='] <:+ cs ++ ['='] := by
    rintro ⟨front, hfront⟩
    rw [show front ++ ['=', '='] = (front ++ ['=']) ++ ['='] by simp] at hfront
    have hcut := List.append_cancel_right hfront
    exact hnone '=' (hcut ▸ List.mem_append_right front (List.mem_singleton_self _)) rfl
  unfold unpad
  rw [if_pos hlength, if_neg htwo, if_pos (List.suffix_append _ _), List.dropLast_concat]

omit hnone in
theorem unpad_two (hlength : (cs ++ ['=', '=']).length % 4 = 0) : unpad (cs ++ ['=', '=']) = cs := by
  unfold unpad
  rw [if_pos hlength, if_pos (List.suffix_append _ _),
    show cs ++ ['=', '='] = (cs ++ ['=']) ++ ['='] by simp, List.dropLast_concat, List.dropLast_concat]

end Unpad

section Text

variable {ns : List ℕ} (h : ∀ n ∈ ns, n < 64)
include h

theorem mapM_valueOf? : (ns.map charOf).mapM valueOf? = some ns := by
  induction ns with
  | nil => rfl
  | cons n ns ih =>
      rw [List.map_cons, List.mapM_cons, (charOf_facts n (h n List.mem_cons_self)).1,
        ih fun m hm => h m (List.mem_cons_of_mem n hm)]
      rfl

/-- The text of sextets, padded, is read as these sextets. -/
theorem unpad_padded (hmod : ns.length % 4 ≠ 1) :
    unpad ((ns.map charOf ++ padding ns.length).filter fun c => !isSpace c) = ns.map charOf := by
  have hkeep : (ns.map charOf ++ padding ns.length).filter (fun c => !isSpace c) =
      ns.map charOf ++ padding ns.length := by
    apply List.filter_eq_self.mpr
    intro c hc
    rcases List.mem_append.mp hc with hc | hc
    · obtain ⟨n, hn, rfl⟩ := List.mem_map.mp hc
      rw [(charOf_facts n (h n hn)).2.1]
      rfl
    · rw [List.eq_of_mem_replicate hc]
      rfl
  have hnone : ∀ c ∈ ns.map charOf, c ≠ '=' := by
    intro c hc
    obtain ⟨n, hn, rfl⟩ := List.mem_map.mp hc
    exact (charOf_facts n (h n hn)).2.2.1
  rw [hkeep]
  have hcases : ns.length % 4 = 0 ∨ ns.length % 4 = 2 ∨ ns.length % 4 = 3 := by omega
  rcases hcases with hrest | hrest | hrest
  · rw [show padding ns.length = [] by simp [padding, hrest], List.append_nil]
    exact unpad_whole hnone
  · rw [show padding ns.length = ['=', '='] by simp [padding, hrest, List.replicate]]
    apply unpad_two
    simp only [List.length_append, List.length_map, List.length_cons, List.length_nil]
    omega
  · rw [show padding ns.length = ['='] by simp [padding, hrest]]
    apply unpad_one hnone
    simp only [List.length_append, List.length_map, List.length_cons, List.length_nil]
    omega

end Text

theorem decode_encode (bs : List UInt8) : decode (encode bs) = some bs := by
  have hlt := sextets_lt bs
  unfold decode encode
  rw [unpad_padded hlt (length_sextets_mod bs), mapM_valueOf? hlt]
  exact bytes?_sextets bs

theorem encodeUrl_eq (bs : List UInt8) : encodeUrl bs = (sextets bs).map fun n => toUrl (charOf n) := by
  unfold encodeUrl encode padding
  rw [List.map_append, List.map_map, List.map_replicate]
  have hpad : toUrl '=' = '=' := rfl
  rw [hpad]
  -- No character of a sextet is a padding one, so the padding goes and nothing else.
  have hlast : ∀ cs : List Char, (∀ c ∈ cs, c ≠ '=') → ∀ k : ℕ,
      (cs ++ List.replicate k '=').rdropWhile (· = '=') = cs := by
    intro cs hcs k
    induction k with
    | zero =>
        rw [List.replicate_zero, List.append_nil, List.rdropWhile_eq_self_iff]
        intro hne heq
        exact hcs _ (List.getLast_mem hne) (of_decide_eq_true heq)
    | succ k ih =>
        rw [List.replicate_succ', ← List.append_assoc, List.rdropWhile_concat_pos _ _ _ (by simp), ih]
  apply hlast
  intro c hc
  obtain ⟨n, hn, rfl⟩ := List.mem_map.mp hc
  exact (charOf_facts n (sextets_lt bs n hn)).2.2.2.1

theorem decodeUrl_encodeUrl (bs : List UInt8) : decodeUrl (encodeUrl bs) = some bs := by
  have hback : (encodeUrl bs).map ofUrl = (sextets bs).map charOf := by
    rw [encodeUrl_eq, List.map_map]
    apply List.map_congr_left
    intro n hn
    exact (charOf_facts n (sextets_lt bs n hn)).2.2.2.2
  have hlength : (encodeUrl bs).length = (sextets bs).length := by
    rw [encodeUrl_eq, List.length_map]
  unfold decodeUrl
  rw [hback, hlength]
  exact decode_encode bs

/-- What the URL-safe form is written with. -/
theorem mem_encodeUrl {bs : List UInt8} {c : Char} (h : c ∈ encodeUrl bs) : c ≠ '.' ∧ c ≠ '=' := by
  have hdot : ∀ n < 64, toUrl (charOf n) ≠ '.' := by decide
  rw [encodeUrl_eq] at h
  obtain ⟨n, hn, rfl⟩ := List.mem_map.mp h
  exact ⟨hdot n (sextets_lt bs n hn), (charOf_facts n (sextets_lt bs n hn)).2.2.2.1⟩

end Base64
