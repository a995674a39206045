import Mathlib.Data.List.Lex
import Mathlib.Data.List.Sort
import NexusQuant.Lib.JsonWriter
import NexusQuant.Lib.Utf16

/-!
# Stable serialization

`serialization.ts` of the execution core, which the adapter has a copy of: a value is normalized, its
keys sorted at every depth, and written as JSON.  Two states are written alike exactly when they differ
in the order of members at most, and a state is read back from what was written.
-/

namespace NexusQuant.ExecutionCore

open JsonText

/-! ## The order of keys -/

/-- The number of a key that is the canonical text of an array index. -/
def arrayIndex? (key : String) : Option ℕ :=
  let n := Nat.ofDigitChars 10 key.toList 0
  if key.toList = Nat.toDigits 10 n ∧ n < 2 ^ 32 - 1 then some n else none

/-- The order an object lists the keys in that were set in the order of `sort()`: array indices by their
numbers, then the other keys by their code units. -/
def KeyLe (k l : String) : Prop :=
  match arrayIndex? k, arrayIndex? l with
  | some m, some n => m ≤ n
  | some _, none => True
  | none, some _ => False
  | none, none => Utf16.encode k ≤ Utf16.encode l

instance (k l : String) : Decidable (KeyLe k l) := by
  unfold KeyLe
  split <;> infer_instance

/-- The own keys of `out`; a `__proto__` that is set is none. -/
def IsOwnKey (key : String) : Prop := key ≠ "__proto__"

def ownProperties (members : List (String × JsValue)) : List (String × JsValue) :=
  (members.filter fun m => m.1 ≠ "__proto__").insertionSort fun m n => KeyLe m.1 n.1

mutual

def normalize : JsValue → JsValue
  | .undefined => .null
  | .null => .null
  | .bool b => .bool b
  | .num (.fin q) => .num (.fin q)
  | .num _ => .null
  | .str s => .str s
  | .arr items => .arr (normalizeItems items)
  | .obj members => .obj (ownProperties (normalizeMembers members))

def normalizeItems : List JsValue → List JsValue
  | [] => []
  | v :: items => normalize v :: normalizeItems items

def normalizeMembers : List (String × JsValue) → List (String × JsValue)
  | [] => []
  | (key, v) :: members => (key, normalize v) :: normalizeMembers members

end

/-- Over the way numbers are written. -/
def stableStringify (numText : ℚ → List Char) (value : JsValue) : String :=
  String.ofList (jsonText numText (normalize value))

theorem normalizeItems_eq (items : List JsValue) : normalizeItems items = items.map normalize := by
  induction items with
  | nil => rw [normalizeItems, List.map_nil]
  | cons v items ih => rw [normalizeItems, ih, List.map_cons]

theorem normalizeMembers_eq (members : List (String × JsValue)) :
    normalizeMembers members = members.map fun m => (m.1, normalize m.2) := by
  induction members with
  | nil => rw [normalizeMembers, List.map_nil]
  | cons m members ih => rw [normalizeMembers, ih, List.map_cons]

/-! ## Keys are told apart -/

theorem toList_of_arrayIndex? {key : String} {n : ℕ} (h : arrayIndex? key = some n) :
    key.toList = Nat.toDigits 10 n := by
  unfold arrayIndex? at h
  dsimp only at h
  split at h
  · rename_i hcanonical
    cases h
    exact hcanonical.1
  · cases h

theorem keyLe_total (k l : String) : KeyLe k l ∨ KeyLe l k := by
  unfold KeyLe
  cases arrayIndex? k with
  | none =>
      cases arrayIndex? l with
      | none => exact le_total _ _
      | some n => exact .inr trivial
  | some m =>
      cases arrayIndex? l with
      | none => exact .inl trivial
      | some n => exact le_total m n

theorem keyLe_trans {j k l : String} (hjk : KeyLe j k) (hkl : KeyLe k l) : KeyLe j l := by
  unfold KeyLe at *
  cases hj : arrayIndex? j <;> cases hk : arrayIndex? k <;> cases hl : arrayIndex? l <;>
    simp only [hj, hk, hl] at hjk hkl ⊢
  · exact hjk.trans hkl
  · exact hjk.trans hkl

theorem keyLe_antisymm {k l : String} (hkl : KeyLe k l) (hlk : KeyLe l k) : k = l := by
  unfold KeyLe at *
  cases hk : arrayIndex? k <;> cases hl : arrayIndex? l <;> simp only [hk, hl] at hkl hlk
  · exact Utf16.encode_injective (le_antisymm hkl hlk)
  · rw [le_antisymm hkl hlk] at hk
    apply String.toList_injective
    rw [toList_of_arrayIndex? hk, toList_of_arrayIndex? hl]

/-- The order in which members are given does not matter. -/
theorem ownProperties_eq_of_perm {ms ns : List (String × JsValue)} (hperm : ms.Perm ns)
    (hnodup : (ms.map Prod.fst).Nodup) : ownProperties ms = ownProperties ns := by
  have htotal : Std.Total fun m n : String × JsValue => KeyLe m.1 n.1 := ⟨fun m n => keyLe_total m.1 n.1⟩
  have htrans : IsTrans (String × JsValue) fun m n => KeyLe m.1 n.1 := ⟨fun _ _ _ => keyLe_trans⟩
  have hsorted : (ownProperties ms).Perm (ownProperties ns) :=
    (List.perm_insertionSort _ _).trans ((hperm.filter _).trans (List.perm_insertionSort _ _).symm)
  apply hsorted.eq_of_pairwise _ (List.pairwise_insertionSort _ _) (List.pairwise_insertionSort _ _)
  intro m n hm hn hmn hnm
  have hmem : ∀ {other : String × JsValue}, other ∈ ownProperties ms → other ∈ ms := by
    intro other hother
    exact (List.mem_filter.mp ((List.perm_insertionSort _ _).mem_iff.mp hother)).1
  exact List.inj_on_of_nodup_map hnodup (hmem hm) (hmem (hsorted.mem_iff.mpr hn))
    (keyLe_antisymm hmn hnm)

theorem ownProperties_perm {members : List (String × JsValue)} (h : ∀ m ∈ members, IsOwnKey m.1) :
    (ownProperties members).Perm members := by
  have hall : members.filter (fun m => m.1 ≠ "__proto__") = members := by
    rw [List.filter_eq_self]
    exact fun m hm => decide_eq_true (h m hm)
  unfold ownProperties
  rw [hall]
  exact List.perm_insertionSort _ _

/-! ## Normal forms -/

variable {numText : ℚ → List Char} {v w : JsValue}

/-- A normal form is the value with its members in another order. -/
theorem reordered_normalize (h : Plain numText IsOwnKey v) : Reordered v (normalize v) := by
  induction h with
  | null => exact .refl _
  | bool b => exact .refl _
  | num q _ => exact .refl _
  | str s => exact .refl _
  | arr items _ ih =>
      rw [normalize, normalizeItems_eq]
      exact reordered_items [] items ih
  | obj members _ hkeys _ ih =>
      have hmembers := reordered_members [] members ih
      have hown : ∀ m ∈ members.map (fun m => (m.1, normalize m.2)), IsOwnKey m.1 := by
        intro m hm
        obtain ⟨n, hn, rfl⟩ := List.mem_map.mp hm
        exact hkeys n hn
      rw [normalize, normalizeMembers_eq]
      exact hmembers.trans (.members (ownProperties_perm hown).symm)

/-- Values that differ in the order of members have one normal form. -/
theorem normalize_eq_of_reordered (h : Reordered v w) (hv : Plain numText IsOwnKey v) :
    normalize v = normalize w := by
  induction h with
  | refl v => rfl
  | trans huv _ ih ih' => exact (ih hv).trans (ih' (Plain.reordered huv hv))
  | members hperm =>
      cases hv with
      | obj members hnodup _ _ =>
          rw [normalize, normalize, normalizeMembers_eq, normalizeMembers_eq]
          congr 1
          apply ownProperties_eq_of_perm (hperm.map _)
          rw [List.map_map]
          exact hnodup
  | member key before after _ ih =>
      cases hv with
      | obj members _ _ hmembers =>
          have hsame := ih (hmembers _ (List.mem_append_right before List.mem_cons_self))
          rw [normalize, normalize, normalizeMembers_eq, normalizeMembers_eq]
          simp only [List.map_append, List.map_cons, hsame]
  | item before after _ ih =>
      cases hv with
      | arr items hitems =>
          have hsame := ih (hitems _ (List.mem_append_right before List.mem_cons_self))
          rw [normalize, normalize, normalizeItems_eq, normalizeItems_eq]
          simp only [List.map_append, List.map_cons, hsame]

/-- What is written is read back as the normal form, and two values are written alike exactly when they
are the same but for the order of members, at whatever depth. -/
theorem stableStringify_canonical (hv : Plain numText IsOwnKey v) (hw : Plain numText IsOwnKey w) :
    parse (stableStringify numText v) = some (normalize v) ∧
      (stableStringify numText v = stableStringify numText w ↔ Reordered v w) := by
  have hread : ∀ {u : JsValue}, Plain numText IsOwnKey u →
      parse (stableStringify numText u) = some (normalize u) :=
    fun hu => parse_jsonText (Plain.reordered (reordered_normalize hu) hu)
  refine ⟨hread hv, ?_, ?_⟩
  · intro htext
    have hnormal : normalize v = normalize w := by
      have hparse := hread hv
      rw [htext, hread hw] at hparse
      exact (Option.some.inj hparse).symm
    have hback := (reordered_normalize hw).symm
    rw [← hnormal] at hback
    exact (reordered_normalize hv).trans hback
  · intro hreordered
    unfold stableStringify
    rw [normalize_eq_of_reordered hreordered hv]

/-- Numbers that are integers. -/
def integerText (q : ℚ) : List Char := intText q.num

def sampleState : JsValue :=
  .obj [("status", .str "PLANNED"), ("audit", .obj [("sequence", .num (.fin 1)), ("events", .arr [.null])])]

def sampleStateReordered : JsValue :=
  .obj [("audit", .obj [("events", .arr [.null]), ("sequence", .num (.fin 1))]), ("status", .str "PLANNED")]

theorem plain_one : Plain integerText IsOwnKey (.num (.fin 1)) := by
  refine .num 1 ?_
  have htext := writesUpTo_intText 1
  rw [Int.cast_one] at htext
  exact htext

theorem sampleState_plain : Plain integerText IsOwnKey sampleState := by
  refine .obj _ (by decide) (by unfold IsOwnKey; decide) ?_
  simp only [List.forall_mem_cons, List.not_mem_nil, false_implies, implies_true, and_true]
  refine ⟨.str _, .obj _ (by decide) (by unfold IsOwnKey; decide) ?_⟩
  simp only [List.forall_mem_cons, List.not_mem_nil, false_implies, implies_true, and_true]
  refine ⟨plain_one, .arr _ ?_⟩
  simp only [List.forall_mem_cons, List.not_mem_nil, false_implies, implies_true, and_true]
  exact .null

theorem sampleState_reordered : Reordered sampleState sampleStateReordered :=
  (Reordered.members (List.Perm.swap _ _ [])).trans
    (.member "audit" [] _ (.members (List.Perm.swap _ _ [])))

theorem stableStringify_canonical_sample :
    stableStringify integerText sampleState = stableStringify integerText sampleStateReordered :=
  (stableStringify_canonical sampleState_plain
    (Plain.reordered sampleState_reordered sampleState_plain)).2.mpr sampleState_reordered

end NexusQuant.ExecutionCore
