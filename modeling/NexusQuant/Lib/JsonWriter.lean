import NexusQuant.Lib.JsonText
import NexusQuant.Lib.JsonValue

/-!
# Writing JSON

`JSON.stringify` of a value, over any way of writing numbers, and what can be read back of it.  A value
is `Plain` where nothing of it is lost: no `undefined`, no number that is not finite, and no key twice,
all keys of a kind.
`Reordered` is what two values have in common that differ in the order of members only, at any depth.
-/

namespace JsonText

/-! ## Values by their structure -/

/-- The induction principle with one hypothesis for all items of an array or object. -/
theorem value_induction {P : JsValue → Prop} (hundefined : P .undefined) (hnull : P .null)
    (hbool : ∀ b, P (.bool b)) (hnum : ∀ x, P (.num x)) (hstr : ∀ s, P (.str s))
    (harr : ∀ items, (∀ v ∈ items, P v) → P (.arr items))
    (hobj : ∀ members, (∀ m ∈ members, P m.2) → P (.obj members)) (v : JsValue) : P v :=
  @JsValue.rec P (fun items => ∀ v ∈ items, P v) (fun members => ∀ m ∈ members, P m.2)
    (fun m => P m.2) hundefined hnull hbool hnum hstr harr hobj (by simp)
    (fun _ _ hv hvs => List.forall_mem_cons.mpr ⟨hv, hvs⟩) (by simp)
    (fun _ _ hm hms => List.forall_mem_cons.mpr ⟨hm, hms⟩) (fun _ _ hv => hv) v

/-- One value from the other by putting members in another order, at any depth and any number of
times. -/
inductive Reordered : JsValue → JsValue → Prop
  | refl (v : JsValue) : Reordered v v
  | trans {u v w : JsValue} : Reordered u v → Reordered v w → Reordered u w
  | members {ms ns : List (String × JsValue)} : ms.Perm ns → Reordered (.obj ms) (.obj ns)
  | member (key : String) (before after : List (String × JsValue)) {v w : JsValue} : Reordered v w →
      Reordered (.obj (before ++ (key, v) :: after)) (.obj (before ++ (key, w) :: after))
  | item (before after : List JsValue) {v w : JsValue} : Reordered v w →
      Reordered (.arr (before ++ v :: after)) (.arr (before ++ w :: after))

theorem Reordered.symm {v w : JsValue} (h : Reordered v w) : Reordered w v := by
  induction h with
  | refl v => exact .refl v
  | trans _ _ ih ih' => exact ih'.trans ih
  | members hperm => exact .members hperm.symm
  | member key before after _ ih => exact .member key before after ih
  | item before after _ ih => exact .item before after ih

/-- Every item reordered on its own. -/
theorem reordered_items {f : JsValue → JsValue} (before items : List JsValue)
    (h : ∀ v ∈ items, Reordered v (f v)) :
    Reordered (.arr (before ++ items)) (.arr (before ++ items.map f)) := by
  induction items generalizing before with
  | nil => exact .refl _
  | cons v items ih =>
      have hfirst := Reordered.item before items (h v List.mem_cons_self)
      have hrest := ih (before ++ [f v]) fun w hw => h w (List.mem_cons_of_mem v hw)
      rw [List.append_assoc, List.append_assoc] at hrest
      exact hfirst.trans hrest

theorem reordered_members {f : JsValue → JsValue} (before members : List (String × JsValue))
    (h : ∀ m ∈ members, Reordered m.2 (f m.2)) :
    Reordered (.obj (before ++ members)) (.obj (before ++ members.map fun m => (m.1, f m.2))) := by
  induction members generalizing before with
  | nil => exact .refl _
  | cons m members ih =>
      have hfirst := Reordered.member m.1 before members (h m List.mem_cons_self)
      have hrest := ih (before ++ [(m.1, f m.2)]) fun n hn => h n (List.mem_cons_of_mem m hn)
      rw [List.append_assoc, List.append_assoc] at hrest
      exact hfirst.trans hrest

/-! ## Texts -/

section Text

variable (numText : ℚ → List Char)

mutual

/-- `JSON.stringify`, of `undefined` what an array writes for it. -/
def jsonText : JsValue → List Char
  | .undefined => ['n', 'u', 'l', 'l']
  | .null => ['n', 'u', 'l', 'l']
  | .bool true => ['t', 'r', 'u', 'e']
  | .bool false => ['f', 'a', 'l', 's', 'e']
  | .num (.fin q) => numText q
  | .num _ => ['n', 'u', 'l', 'l']
  | .str s => quoted s
  | .arr items => arrayText (itemTexts items)
  | .obj members => objectText (memberTexts members)

def itemTexts : List JsValue → List (List Char)
  | [] => []
  | v :: items => jsonText v :: itemTexts items

/-- A member that is `undefined` is left out. -/
def memberTexts : List (String × JsValue) → List (List Char)
  | [] => []
  | (_, .undefined) :: members => memberTexts members
  | (key, v) :: members => memberText key (jsonText v) :: memberTexts members

end

/-- A value that is written without loss. -/
inductive Plain (key : String → Prop) : JsValue → Prop
  | null : Plain key .null
  | bool (b : Bool) : Plain key (.bool b)
  | num (q : ℚ) : WritesUpTo (numText q) (.num (.fin q)) → Plain key (.num (.fin q))
  | str (s : String) : Plain key (.str s)
  | arr (items : List JsValue) : (∀ v ∈ items, Plain key v) → Plain key (.arr items)
  | obj (members : List (String × JsValue)) : (members.map Prod.fst).Nodup →
      (∀ m ∈ members, key m.1) → (∀ m ∈ members, Plain key m.2) → Plain key (.obj members)

end Text

variable {numText : ℚ → List Char} {key : String → Prop}

theorem itemTexts_eq (items : List JsValue) : itemTexts numText items = items.map (jsonText numText) := by
  induction items with
  | nil => rw [itemTexts, List.map_nil]
  | cons v items ih => rw [itemTexts, ih, List.map_cons]

theorem memberTexts_eq {members : List (String × JsValue)} (h : ∀ m ∈ members, m.2 ≠ .undefined) :
    memberTexts numText members = members.map fun m => memberText m.1 (jsonText numText m.2) := by
  induction members with
  | nil => rw [memberTexts, List.map_nil]
  | cons m members ih =>
      obtain ⟨key, v⟩ := m
      have hv : v ≠ .undefined := h (key, v) List.mem_cons_self
      rw [memberTexts, ih fun n hn => h n (List.mem_cons_of_mem _ hn), List.map_cons]
      exact hv

theorem ofMembers_of_nodup {members : List (String × JsValue)} (h : (members.map Prod.fst).Nodup) :
    ofMembers members = .obj members := by
  have hfold : ∀ done : Dict JsValue, (∀ m ∈ members, m.1 ∉ Dict.keys done) →
      members.foldl (fun d m => Dict.set d m.1 m.2) done = done ++ members := by
    induction members with
    | nil => exact fun done _ => (List.append_nil done).symm
    | cons m members ih =>
        intro done hdone
        obtain ⟨hm, hrest⟩ := List.nodup_cons.mp h
        have hset : Dict.set done m.1 m.2 = done ++ [m] := by
          have hnew := hdone m List.mem_cons_self
          clear ih hdone
          induction done with
          | nil => rfl
          | cons e done ihd =>
              obtain ⟨k, v⟩ := e
              have hnew : m.1 ∉ k :: Dict.keys done := hnew
              rw [List.mem_cons, not_or] at hnew
              rw [Dict.set, if_neg (Ne.symm hnew.1), ihd hnew.2]
              rfl
        rw [List.foldl_cons, hset, ih hrest]
        · rw [List.append_assoc]
          rfl
        · intro n hn
          unfold Dict.keys
          rw [List.map_append, List.mem_append, not_or]
          refine ⟨hdone n (List.mem_cons_of_mem m hn), ?_⟩
          intro heq
          rw [List.map_singleton, List.mem_singleton] at heq
          exact hm (heq ▸ List.mem_map_of_mem hn)
  unfold ofMembers
  rw [hfold [] fun _ _ => List.not_mem_nil]
  rfl

/-- A plain value is read back as it was. -/
theorem writesUpTo_jsonText {v : JsValue} (h : Plain numText key v) : WritesUpTo (jsonText numText v) v := by
  induction h with
  | null =>
      rw [jsonText]
      refine ⟨⟨'n', _, rfl, by decide, by decide, by decide⟩, fun fuel r hfuel _ => ?_⟩
      cases fuel with
      | zero => cases hfuel
      | succ fuel => rfl
  | bool b =>
      cases b with
      | true =>
          rw [jsonText]
          refine ⟨⟨'t', _, rfl, by decide, by decide, by decide⟩, fun fuel r hfuel _ => ?_⟩
          cases fuel with
          | zero => cases hfuel
          | succ fuel => rfl
      | false =>
          rw [jsonText]
          refine ⟨⟨'f', _, rfl, by decide, by decide, by decide⟩, fun fuel r hfuel _ => ?_⟩
          cases fuel with
          | zero => cases hfuel
          | succ fuel => rfl
  | num q hq =>
      rw [jsonText]
      exact hq
  | str s =>
      rw [jsonText]
      exact (writes_quoted s).upTo
  | arr items _ ih =>
      have hwrites := @writes_array_upTo (items.map fun v => (jsonText numText v, v)) (by
        intro i hi
        obtain ⟨v, hv, rfl⟩ := List.mem_map.mp hi
        exact ih v hv)
      rw [List.map_map, List.map_map] at hwrites
      rw [jsonText, itemTexts_eq]
      have hvalues : items.map (Prod.snd ∘ fun v => (jsonText numText v, v)) = items := by
        simp [Function.comp_def]
      rw [hvalues] at hwrites
      exact hwrites.upTo
  | obj members hkeys _ hmembers ih =>
      have hwrites := @writes_object_upTo (members.map fun m => (m.1, jsonText numText m.2, m.2)) (by
        intro i hi
        obtain ⟨m, hm, rfl⟩ := List.mem_map.mp hi
        exact ih m hm)
      have hdefined : ∀ m ∈ members, m.2 ≠ .undefined := by
        intro m hm hundefined
        have hplain := hmembers m hm
        rw [hundefined] at hplain
        cases hplain
      rw [List.map_map, List.map_map] at hwrites
      rw [jsonText, memberTexts_eq hdefined]
      have hvalues : members.map ((fun m => (m.1, m.2.2)) ∘
          fun m : String × JsValue => (m.1, jsonText numText m.2, m.2)) = members := by
        simp [Function.comp_def]
      rw [hvalues, ofMembers_of_nodup hkeys] at hwrites
      exact hwrites.upTo

/-- A plain value is plain in any order of its members. -/
theorem Plain.reordered {v w : JsValue} (h : Reordered v w) (hv : Plain numText key v) :
    Plain numText key w := by
  induction h with
  | refl v => exact hv
  | trans _ _ ih ih' => exact ih' (ih hv)
  | members hperm =>
      cases hv with
      | obj _ hnodup hkeys hmembers =>
          refine .obj _ ((hperm.map Prod.fst).nodup_iff.mp hnodup) ?_ ?_
          · exact fun m hm => hkeys m (hperm.mem_iff.mpr hm)
          · exact fun m hm => hmembers m (hperm.mem_iff.mpr hm)
  | member k before after _ ih =>
      cases hv with
      | obj _ hnodup hkeys hmembers =>
          refine .obj _ ?_ ?_ ?_
          · simpa using hnodup
          · intro m hm
            rcases List.mem_append.mp hm with hbefore | hrest
            · exact hkeys m (List.mem_append_left _ hbefore)
            · rcases List.mem_cons.mp hrest with rfl | hafter
              · have hold := hkeys _ (List.mem_append_right before List.mem_cons_self)
                exact hold
              · exact hkeys m (List.mem_append_right _ (List.mem_cons_of_mem _ hafter))
          · intro m hm
            rcases List.mem_append.mp hm with hbefore | hrest
            · exact hmembers m (List.mem_append_left _ hbefore)
            · rcases List.mem_cons.mp hrest with rfl | hafter
              · exact ih (hmembers _ (List.mem_append_right _ List.mem_cons_self))
              · exact hmembers m (List.mem_append_right _ (List.mem_cons_of_mem _ hafter))
  | item before after _ ih =>
      cases hv with
      | arr _ hitems =>
          refine .arr _ ?_
          intro u hu
          rcases List.mem_append.mp hu with hbefore | hrest
          · exact hitems u (List.mem_append_left _ hbefore)
          · rcases List.mem_cons.mp hrest with rfl | hafter
            · exact ih (hitems _ (List.mem_append_right _ List.mem_cons_self))
            · exact hitems u (List.mem_append_right _ (List.mem_cons_of_mem _ hafter))

/-- `JSON.parse` inverts `JSON.stringify` on plain values. -/
theorem parse_jsonText {v : JsValue} (h : Plain numText key v) :
    parse (String.ofList (jsonText numText v)) = some v :=
  parse_of_writesUpTo (writesUpTo_jsonText h)

/-! ## What a text makes of a value -/

theorem roundTrip_ne_undefined {v : JsValue} (h : v ≠ .undefined) : v.jsonRoundTrip ≠ .undefined := by
  cases v with
  | undefined => exact absurd rfl h
  | num x =>
      unfold JsValue.jsonRoundTrip
      split <;> simp
  | _ => simp [JsValue.jsonRoundTrip]

/-- What a JSON text does not keep of a value is not in the text. -/
theorem jsonText_jsonRoundTrip (v : JsValue) : jsonText numText v.jsonRoundTrip = jsonText numText v := by
  induction v using value_induction with
  | hundefined | hnull | hbool b | hstr s => rfl
  | hnum x => cases x <;> rfl
  | harr items ih =>
      rw [JsValue.jsonRoundTrip, jsonText, jsonText]
      congr 1
      induction items with
      | nil => rfl
      | cons v items ihitems =>
          have hrest := ihitems fun w hw => ih w (List.mem_cons_of_mem _ hw)
          have hv := ih v List.mem_cons_self
          cases v with
          | undefined =>
              rw [JsValue.roundTripItems, itemTexts, itemTexts, hrest]
              rfl
          | _ => rw [JsValue.roundTripItems, itemTexts, itemTexts, hrest, hv]; simp
  | hobj members ih =>
      rw [JsValue.jsonRoundTrip, jsonText, jsonText]
      congr 1
      induction members with
      | nil => rfl
      | cons m members ihmembers =>
          obtain ⟨k, v⟩ := m
          have hrest := ihmembers fun n hn => ih n (List.mem_cons_of_mem _ hn)
          have hv := ih (k, v) List.mem_cons_self
          by_cases hundefined : v = .undefined
          · subst hundefined
            rw [JsValue.roundTripMembers, memberTexts, hrest]
          · rw [JsValue.roundTripMembers, memberTexts, memberTexts, hrest, hv]
            · exact hundefined
            · exact roundTrip_ne_undefined hundefined
            · exact hundefined

theorem plain_roundTrip_num {x : JsNumber}
    (h : ∀ q, x = .fin q → WritesUpTo (numText q) (.num (.fin q))) :
    Plain numText key (JsValue.num x).jsonRoundTrip := by
  cases x with
  | fin q => exact .num q (h q rfl)
  | _ => exact .null

/-- What is left of an object is plain where what is left of its members is. -/
theorem plain_roundTrip_obj {members : List (String × JsValue)} (hnodup : (members.map Prod.fst).Nodup)
    (hkey : ∀ m ∈ members, key m.1)
    (h : ∀ m ∈ members, m.2 = .undefined ∨ Plain numText key m.2.jsonRoundTrip) :
    Plain numText key (JsValue.obj members).jsonRoundTrip := by
  have hkept : ∀ members : List (String × JsValue), ∀ m ∈ JsValue.roundTripMembers members,
      ∃ n ∈ members, n.2 ≠ .undefined ∧ m = (n.1, n.2.jsonRoundTrip) := by
    intro members
    induction members with
    | nil => exact List.forall_mem_nil _
    | cons n members ih =>
        obtain ⟨k, v⟩ := n
        intro m hm
        by_cases hv : v = .undefined
        · subst hv
          obtain ⟨n, hn, hrest⟩ := ih m hm
          exact ⟨n, List.mem_cons_of_mem _ hn, hrest⟩
        · rw [JsValue.roundTripMembers] at hm
          · rcases List.mem_cons.mp hm with rfl | hm
            · exact ⟨(k, v), List.mem_cons_self, hv, rfl⟩
            · obtain ⟨n, hn, hrest⟩ := ih m hm
              exact ⟨n, List.mem_cons_of_mem _ hn, hrest⟩
          · exact hv
  have hsub : ∀ members : List (String × JsValue),
      ((JsValue.roundTripMembers members).map Prod.fst).Sublist (members.map Prod.fst) := by
    intro members
    induction members with
    | nil => exact .slnil
    | cons n members ih =>
        obtain ⟨k, v⟩ := n
        by_cases hv : v = .undefined
        · subst hv
          exact ih.cons k
        · rw [JsValue.roundTripMembers]
          · exact ih.cons_cons k
          · exact hv
  refine .obj _ (hnodup.sublist (hsub members)) ?_ ?_
  · intro m hm
    obtain ⟨n, hn, -, rfl⟩ := hkept members m hm
    exact hkey n hn
  · intro m hm
    obtain ⟨n, hn, hne, rfl⟩ := hkept members m hm
    exact (h n hn).resolve_left hne

/-- `JSON.parse` of `JSON.stringify`. -/
theorem parse_jsonText_roundTrip {v : JsValue} (h : Plain numText key v.jsonRoundTrip) :
    parse (String.ofList (jsonText numText v)) = some v.jsonRoundTrip := by
  rw [← jsonText_jsonRoundTrip]
  exact parse_jsonText h

end JsonText
