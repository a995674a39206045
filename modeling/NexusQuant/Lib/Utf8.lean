import Mathlib.Data.List.Basic
import Mathlib.Data.Nat.Notation

/-!
# Texts of arbitrary bytes

The UTF-8 decoding that never fails: what is no part of a character becomes the replacement
character, one for every longest run of bytes that could have started a character.
-/

namespace Utf8

/-- A character that has started: its value so far, the number of bytes it still takes, and the range
the next one has to be in. -/
structure Pending where
  value : ℕ
  needed : ℕ
  lower : UInt8
  upper : UInt8
deriving DecidableEq, Repr

def replacement : Char := '\ufffd'

/-- A byte where a character starts. -/
def start (b : UInt8) : List Char × Option Pending :=
  if b < 0x80 then ([Char.ofNat b.toNat], none)
  else if 0xc2 ≤ b ∧ b ≤ 0xdf then ([], some ⟨b.toNat % 32, 1, 0x80, 0xbf⟩)
  -- Overlong forms, surrogates and values past the last character are cut off at the second byte.
  else if 0xe0 ≤ b ∧ b ≤ 0xef then
    ([], some ⟨b.toNat % 16, 2, if b = 0xe0 then 0xa0 else 0x80, if b = 0xed then 0x9f else 0xbf⟩)
  else if 0xf0 ≤ b ∧ b ≤ 0xf4 then
    ([], some ⟨b.toNat % 8, 3, if b = 0xf0 then 0x90 else 0x80, if b = 0xf4 then 0x8f else 0xbf⟩)
  else ([replacement], none)

def step (pending : Option Pending) (b : UInt8) : List Char × Option Pending :=
  match pending with
  | none => start b
  | some p =>
      if p.lower ≤ b ∧ b ≤ p.upper then
        let value := p.value * 64 + b.toNat % 64
        if p.needed = 1 then ([Char.ofNat value], none)
        else ([], some ⟨value, p.needed - 1, 0x80, 0xbf⟩)
      else
        -- The character breaks off, and the byte starts the next one.
        let next := start b
        (replacement :: next.1, next.2)

def decodeFrom : Option Pending → List UInt8 → List Char
  | none, [] => []
  | some _, [] => [replacement]
  | pending, b :: bs =>
      let next := step pending b
      next.1 ++ decodeFrom next.2 bs

def decode (bs : List UInt8) : String := String.ofList (decodeFrom none bs)

/-- ASCII bytes are their characters. -/
theorem decode_of_ascii {bs : List UInt8} (h : ∀ b ∈ bs, b < 0x80) :
    decode bs = String.ofList (bs.map fun b => Char.ofNat b.toNat) := by
  have hchars : decodeFrom none bs = bs.map fun b => Char.ofNat b.toNat := by
    induction bs with
    | nil => rfl
    | cons b bs ih =>
        rw [decodeFrom, step, start, if_pos (h b List.mem_cons_self)]
        rw [ih fun c hc => h c (List.mem_cons_of_mem b hc)]
        rfl
  rw [decode, hchars]

/-! ## Texts that were encoded -/

section Encoded

variable {k l value needed : ℕ} {lower upper : UInt8}

theorem start_two (hlow : 2 ≤ k) (hk : k < 32) :
    start (UInt8.ofNat (k + 0xc0)) = ([], some ⟨k, 1, 0x80, 0xbf⟩) := by
  have hall : ∀ k < 32, 2 ≤ k → start (UInt8.ofNat (k + 0xc0)) = ([], some ⟨k, 1, 0x80, 0xbf⟩) := by
    decide
  exact hall k hk hlow

theorem start_three (hk : k < 16) : start (UInt8.ofNat (k + 0xe0)) =
    ([], some ⟨k, 2, if k = 0 then 0xa0 else 0x80, if k = 13 then 0x9f else 0xbf⟩) := by
  have hall : ∀ k < 16, start (UInt8.ofNat (k + 0xe0)) =
      ([], some ⟨k, 2, if k = 0 then 0xa0 else 0x80, if k = 13 then 0x9f else 0xbf⟩) := by
    decide
  exact hall k hk

theorem start_four (hk : k < 5) : start (UInt8.ofNat (k + 0xf0)) =
    ([], some ⟨k, 3, if k = 0 then 0x90 else 0x80, if k = 4 then 0x8f else 0xbf⟩) := by
  have hall : ∀ k < 5, start (UInt8.ofNat (k + 0xf0)) =
      ([], some ⟨k, 3, if k = 0 then 0x90 else 0x80, if k = 4 then 0x8f else 0xbf⟩) := by
    decide
  exact hall k hk

theorem toNat_continuation (hl : l < 64) : (UInt8.ofNat (l + 0x80)).toNat = l + 0x80 :=
  UInt8.toNat_ofNat_of_lt' (show l + 0x80 < 256 by omega)

theorem continuation_mem (hl : l < 64) (hlower : lower.toNat ≤ l + 0x80)
    (hupper : l + 0x80 ≤ upper.toNat) :
    lower ≤ UInt8.ofNat (l + 0x80) ∧ UInt8.ofNat (l + 0x80) ≤ upper := by
  rw [UInt8.le_iff_toNat_le, UInt8.le_iff_toNat_le, toNat_continuation hl]
  exact ⟨hlower, hupper⟩

theorem decodeFrom_last (hl : l < 64) (hlower : lower.toNat ≤ l + 0x80)
    (hupper : l + 0x80 ≤ upper.toNat) (bs : List UInt8) :
    decodeFrom (some ⟨value, 1, lower, upper⟩) (UInt8.ofNat (l + 0x80) :: bs) =
      Char.ofNat (value * 64 + l) :: decodeFrom none bs := by
  have hbits : (l + 0x80) % 64 = l := by omega
  rw [decodeFrom, step, if_pos (continuation_mem hl hlower hupper), toNat_continuation hl, hbits,
    if_pos rfl]
  rfl

theorem decodeFrom_more (hl : l < 64) (hlower : lower.toNat ≤ l + 0x80)
    (hupper : l + 0x80 ≤ upper.toNat) (bs : List UInt8) :
    decodeFrom (some ⟨value, needed + 2, lower, upper⟩) (UInt8.ofNat (l + 0x80) :: bs) =
      decodeFrom (some ⟨value * 64 + l, needed + 1, 0x80, 0xbf⟩) bs := by
  have hbits : (l + 0x80) % 64 = l := by omega
  have hmore : needed + 2 ≠ 1 := by omega
  rw [decodeFrom, step, if_pos (continuation_mem hl hlower hupper), toNat_continuation hl, hbits,
    if_neg hmore]
  rfl

theorem decodeFrom_two (hlow : 2 ≤ k) (hk : k < 32) (hl : l < 64) (bs : List UInt8) :
    decodeFrom none (UInt8.ofNat (k + 0xc0) :: UInt8.ofNat (l + 0x80) :: bs) =
      Char.ofNat (k * 64 + l) :: decodeFrom none bs := by
  rw [decodeFrom, step, start_two hlow hk]
  apply decodeFrom_last hl
  · show 128 ≤ _
    omega
  · show _ ≤ 191
    omega

/-- An overlong form and a surrogate are ruled out by the second byte. -/
theorem decodeFrom_three {m : ℕ} (hk : k < 16) (hl : l < 64) (hm : m < 64)
    (hlong : k = 0 → 32 ≤ l) (hsurrogate : k = 13 → l < 32) (bs : List UInt8) :
    decodeFrom none (UInt8.ofNat (k + 0xe0) :: UInt8.ofNat (l + 0x80) :: UInt8.ofNat (m + 0x80) :: bs) =
      Char.ofNat ((k * 64 + l) * 64 + m) :: decodeFrom none bs := by
  rw [decodeFrom, step, start_three hk]
  dsimp only
  rw [List.nil_append, decodeFrom_more hl]
  · apply decodeFrom_last hm
    · show 128 ≤ _
      omega
    · show _ ≤ 191
      omega
  · split
    · show 160 ≤ _
      omega
    · show 128 ≤ _
      omega
  · split
    · show _ ≤ 159
      omega
    · show _ ≤ 191
      omega

/-- An overlong form and a value past the last character are ruled out by the second byte. -/
theorem decodeFrom_four {m n : ℕ} (hk : k < 5) (hl : l < 64) (hm : m < 64) (hn : n < 64)
    (hlong : k = 0 → 16 ≤ l) (hlast : k = 4 → l < 16) (bs : List UInt8) :
    decodeFrom none (UInt8.ofNat (k + 0xf0) :: UInt8.ofNat (l + 0x80) :: UInt8.ofNat (m + 0x80) ::
      UInt8.ofNat (n + 0x80) :: bs) =
        Char.ofNat (((k * 64 + l) * 64 + m) * 64 + n) :: decodeFrom none bs := by
  rw [decodeFrom, step, start_four hk]
  dsimp only
  rw [List.nil_append, decodeFrom_more hl, decodeFrom_more hm]
  · apply decodeFrom_last hn
    · show 128 ≤ _
      omega
    · show _ ≤ 191
      omega
  · show 128 ≤ _
    omega
  · show _ ≤ 191
    omega
  · split
    · show 144 ≤ _
      omega
    · show 128 ≤ _
      omega
  · split
    · show _ ≤ 143
      omega
    · show _ ≤ 191
      omega

theorem decodeFrom_encodeChar (c : Char) (bs : List UInt8) :
    decodeFrom none (String.utf8EncodeChar c ++ bs) = c :: decodeFrom none bs := by
  obtain ⟨v, hval⟩ : ∃ v, c.val.toNat = v := ⟨_, rfl⟩
  have hvalid : v < 0xd800 ∨ 0xdfff < v ∧ v < 0x110000 := hval ▸ c.valid
  have hc : c = Char.ofNat v := by
    rw [← hval]
    exact c.ofNat_toNat.symm
  unfold String.utf8EncodeChar
  dsimp only
  rw [hval, hc]
  by_cases h₁ : v ≤ 0x7f
  · have hbyte : (UInt8.ofNat v).toNat = v := UInt8.toNat_ofNat_of_lt' (show v < 256 by omega)
    have hascii : UInt8.ofNat v < 0x80 := by
      rw [UInt8.lt_iff_toNat_lt, hbyte]
      show v < 128
      omega
    rw [if_pos h₁, List.singleton_append, decodeFrom, step, start, if_pos hascii, hbyte]
    rfl
  rw [if_neg h₁]
  by_cases h₂ : v ≤ 0x7ff
  · have hfirst : v / 64 % 32 = v / 64 := by omega
    have hsum : v / 64 * 64 + v % 64 = v := by omega
    rw [if_pos h₂, hfirst, List.cons_append, List.singleton_append,
      decodeFrom_two (by omega) (by omega) (by omega), hsum]
  rw [if_neg h₂]
  by_cases h₃ : v ≤ 0xffff
  · have hfirst : v / 4096 % 16 = v / 4096 := by omega
    have hsum : (v / 4096 * 64 + v / 64 % 64) * 64 + v % 64 = v := by omega
    rw [if_pos h₃, hfirst, List.cons_append, List.cons_append, List.singleton_append,
      decodeFrom_three (by omega) (by omega) (by omega) (by omega) (by omega), hsum]
  · have hfirst : v / 262144 % 8 = v / 262144 := by omega
    have hsum : ((v / 262144 * 64 + v / 4096 % 64) * 64 + v / 64 % 64) * 64 + v % 64 = v := by omega
    rw [if_neg h₃, hfirst, List.cons_append, List.cons_append, List.cons_append,
      List.singleton_append,
      decodeFrom_four (by omega) (by omega) (by omega) (by omega) (by omega) (by omega), hsum]

/-- The encoding of a text is decoded to it. -/
theorem decode_toByteArray (s : String) : decode s.toByteArray.data.toList = s := by
  have hchars : ∀ cs : List Char, decodeFrom none (cs.flatMap String.utf8EncodeChar) = cs := by
    intro cs
    induction cs with
    | nil => rfl
    | cons c cs ih => rw [List.flatMap_cons, decodeFrom_encodeChar, ih]
  rw [decode, ← String.utf8Encode_toList, List.utf8Encode, List.toList_data_toByteArray, hchars,
    String.ofList_toList]

end Encoded

example : decode [0x24, 0xe2, 0x82, 0xac, 0xe2, 0x82, 0x24, 0xff] = "$€�$�" := by decide

end Utf8
