import NexusQuant.Web.OperatorRegistry

/-!
# Operator authentication

What `OPERATORS` lists, stated apart from the parser, and that nobody else is authenticated.  The legacy
token breaks it exactly when the list is set, has no entry and the legacy token is set as well.
-/

namespace NexusQuant.Web

/-! ## Laws -/

/-- The text is an array with an object of that identity and token. -/
def ListedJson (text : String) (e : OperatorRegistryEntry) : Prop :=
  ∃ items members id, JsonText.parse text = some (.arr items) ∧ .obj members ∈ items ∧
    Dict.get? members "id" = some (.str id) ∧ trimmed id = e.id ∧
      Dict.get? members "token" = some (.str e.token)

/-- The text is a list of pairs separated by commas, one of them of that identity and token. -/
def ListedPair (text : String) (e : OperatorRegistryEntry) : Prop :=
  ∃ id : List Char, id ++ ':' :: e.token.toList ∈ text.toList.splitOn ',' ∧ ':' ∉ id ∧
    trimmed (String.ofList id) = e.id

/-- The environment lists an operator with a token. -/
def Listed (env : OperatorEnv) (e : OperatorRegistryEntry) : Prop :=
  (e.id ≠ "" ∧ e.token ≠ "") ∧
    if startsWithBracket (envText env.operators) then ListedJson (envText env.operators) e
    else ListedPair (envText env.operators) e

/-- An entry that either form can carry. -/
structure Writable (e : OperatorRegistryEntry) : Prop where
  id : trimmed e.id ≠ "" ∧ ',' ∉ e.id.toList ∧ ':' ∉ e.id.toList
  token : e.token ≠ "" ∧ ',' ∉ e.token.toList

def trimEntry (e : OperatorRegistryEntry) : OperatorRegistryEntry := ⟨trimmed e.id, e.token⟩

section Laws

variable {Digest : Type} [DecidableEq Digest] (sha256 : String → Digest) (env : OperatorEnv)

/-- `OPERATORS` is unset or blank. -/
def OperatorsBlank : Prop := envText env.operators = ""

def LegacyBlank : Prop := envText env.opsControlToken = ""

structure FailClosed : Prop where
  resolved : ¬ OperatorsBlank env → ∀ token id, resolveOperator sha256 env token = some id →
    Listed env ⟨id, token⟩
  closed : ¬ OperatorsBlank env → (∀ e, ¬ Listed env e) →
    (∀ token, resolveOperator sha256 env token = none) ∧ ∀ id, isRegisteredOperatorId env id = false
  legacy : ¬ OperatorsBlank env →
    parseOperatorRegistry env = parseOperatorRegistry { env with opsControlToken := none }
  json : ∀ entries, (∀ e ∈ entries, Writable e) → env.operators = some (jsonForm entries) →
    parseOperatorRegistry env = entries.map trimEntry
  compact : ∀ entries, (∀ e ∈ entries, Writable e) → env.operators = some (compactForm entries) →
    ¬ OperatorsBlank env → trimmed (compactForm entries) = compactForm entries →
      startsWithBracket (compactForm entries) = false → parseOperatorRegistry env = entries.map trimEntry

end Laws

/-! ## What is parsed is what is listed -/

section Entries

variable {e : OperatorRegistryEntry} {env : OperatorEnv}

theorem jsonEntry_eq_some {v : JsValue} :
    jsonEntry v = some e ↔ ∃ members id, v = .obj members ∧ Dict.get? members "id" = some (.str id) ∧
      Dict.get? members "token" = some (.str e.token) ∧ trimmed id = e.id ∧ e.id ≠ "" ∧ e.token ≠ "" := by
  constructor
  · intro h
    unfold jsonEntry at h
    split at h
    · rename_i members
      split at h
      · rename_i id token hid htoken
        dsimp only at h
        split at h
        · rename_i hvalid
          cases h
          exact ⟨members, id, rfl, hid, htoken, rfl, hvalid⟩
        · cases h
      · cases h
    · cases h
  · intro h
    obtain ⟨members, id, rfl, hid, htoken, htrim, hne⟩ := h
    unfold jsonEntry
    dsimp only
    rw [hid, htoken]
    dsimp only
    rw [htrim, if_pos hne]

/-- A pair is cut at its first colon. -/
theorem cut_of_idxOf? {pair : List Char} {idx : ℕ} (h : pair.idxOf? ':' = some idx) :
    pair.take idx ++ ':' :: pair.drop (idx + 1) = pair ∧ ':' ∉ pair.take idx := by
  obtain ⟨hlt, hcolon, hfirst⟩ := List.idxOf?_eq_some_iff.mp h
  constructor
  · rw [← hcolon, List.getElem_cons_drop, List.take_append_drop]
  · intro hmem
    obtain ⟨j, hj, heq⟩ := List.mem_take_iff_getElem.mp hmem
    exact hfirst j (by omega) heq

theorem idxOf?_colon {id : List Char} (hid : ':' ∉ id) (rest : List Char) :
    (id ++ ':' :: rest).idxOf? ':' = some id.length := by
  rw [List.idxOf?_eq_some_iff]
  refine ⟨by simp, by simp, ?_⟩
  intro j hj heq
  rw [List.getElem_append_left hj] at heq
  exact hid (heq ▸ List.getElem_mem hj)

theorem pairEntry_eq_some {pair : List Char} :
    pairEntry pair = some e ↔ (∃ id : List Char, id ++ ':' :: e.token.toList = pair ∧ ':' ∉ id ∧
      trimmed (String.ofList id) = e.id) ∧ e.id ≠ "" ∧ e.token ≠ "" := by
  constructor
  · intro h
    obtain ⟨idx, hidx, hentry⟩ := Option.bind_eq_some_iff.mp h
    obtain ⟨hcut, hfirst⟩ := cut_of_idxOf? hidx
    dsimp only at hentry
    split_ifs at hentry with hzero hvalid
    cases hentry
    refine ⟨⟨pair.take idx, ?_, hfirst, rfl⟩, hvalid⟩
    rw [String.toList_ofList]
    exact hcut
  · intro h
    obtain ⟨⟨id, rfl, hcolon, htrim⟩, hne⟩ := h
    have hid : id.length ≠ 0 := by
      intro hzero
      rw [List.eq_nil_of_length_eq_zero hzero] at htrim
      exact hne.1 htrim.symm
    rw [pairEntry, idxOf?_colon hcolon, Option.bind_some, if_neg hid]
    dsimp only
    rw [List.take_left, List.drop_append, htrim]
    simp only [List.drop_eq_nil_of_le (Nat.le_succ _), Nat.add_sub_cancel_left, List.nil_append,
      List.drop_one, List.tail_cons, String.ofList_toList]
    rw [if_pos hne]

theorem mem_operatorEntries : e ∈ operatorEntries (envText env.operators) ↔ Listed env e := by
  unfold operatorEntries Listed
  by_cases hbracket : startsWithBracket (envText env.operators) = true
  · rw [if_pos hbracket, if_pos hbracket]
    constructor
    · intro h
      split at h
      · rename_i items hparse
        obtain ⟨v, hv, hentry⟩ := List.mem_filterMap.mp h
        obtain ⟨members, id, rfl, hid, htoken, htrim, hne⟩ := jsonEntry_eq_some.mp hentry
        exact ⟨hne, items, members, id, hparse, hv, hid, htrim, htoken⟩
      · cases h
    · intro h
      obtain ⟨hne, items, members, id, hparse, hv, hid, htrim, htoken⟩ := h
      rw [hparse]
      apply List.mem_filterMap.mpr
      exact ⟨_, hv, jsonEntry_eq_some.mpr ⟨members, id, rfl, hid, htoken, htrim, hne⟩⟩
  · rw [if_neg hbracket, if_neg hbracket]
    by_cases hblank : envText env.operators = ""
    · rw [if_neg (not_not.mpr hblank), hblank]
      constructor
      · intro h
        cases h
      · intro h
        obtain ⟨-, id, hmem, -⟩ := h
        have hpair : id ++ ':' :: e.token.toList = [] := List.mem_singleton.mp hmem
        simp at hpair
    · rw [if_pos hblank, List.mem_filterMap]
      constructor
      · intro h
        obtain ⟨pair, hmem, hentry⟩ := h
        obtain ⟨⟨id, rfl, hcolon, htrim⟩, hne⟩ := pairEntry_eq_some.mp hentry
        exact ⟨hne, id, hmem, hcolon, htrim⟩
      · intro h
        obtain ⟨hne, id, hmem, hcolon, htrim⟩ := h
        exact ⟨_, hmem, pairEntry_eq_some.mpr ⟨⟨id, rfl, hcolon, htrim⟩, hne⟩⟩

theorem operatorEntries_eq_nil : operatorEntries (envText env.operators) = [] ↔ ∀ e, ¬ Listed env e := by
  rw [List.eq_nil_iff_forall_not_mem]
  exact forall_congr' fun e => not_congr mem_operatorEntries

/-- Where the legacy token is not fallen back to, the registry is the list. -/
theorem parseOperatorRegistry_eq (h : (∃ e, Listed env e) ∨ LegacyBlank env) :
    parseOperatorRegistry env = operatorEntries (envText env.operators) := by
  unfold parseOperatorRegistry
  dsimp only
  by_cases hempty : operatorEntries (envText env.operators) = []
  · have hlegacy : LegacyBlank env := by
      rcases h with h | h
      · obtain ⟨e, he⟩ := h
        exact absurd he (operatorEntries_eq_nil.mp hempty e)
      · exact h
    rw [hempty, show envText env.opsControlToken = "" from hlegacy]
    rfl
  · rw [if_neg fun hlength => hempty (List.eq_nil_of_length_eq_zero hlength)]

/-- Where it is, the registry is the legacy identity alone. -/
theorem parseOperatorRegistry_legacy (hlisted : ∀ e, ¬ Listed env e) (hlegacy : ¬ LegacyBlank env) :
    parseOperatorRegistry env = [⟨"operator", envText env.opsControlToken⟩] := by
  unfold parseOperatorRegistry
  dsimp only
  rw [operatorEntries_eq_nil.mpr hlisted, List.length_nil, if_pos rfl]
  exact if_pos hlegacy

end Entries

/-! ## What is resolved is registered -/

section Resolve

variable {Digest : Type} [DecidableEq Digest] {sha256 : String → Digest} {env : OperatorEnv}

/-- The last match is one of the entries, unless it is what was matched before. -/
theorem mem_of_foldl_match {presented : Digest} {entries : List (Registered Digest)}
    {matched : Option String} {id : String}
    (h : entries.foldl (fun matched r => if presented = r.tokenHash then some r.id else matched) matched =
      some id) :
    matched = some id ∨ ∃ r ∈ entries, presented = r.tokenHash ∧ r.id = id := by
  induction entries generalizing matched with
  | nil => exact .inl h
  | cons r entries ih =>
      rw [List.foldl_cons] at h
      rcases ih h with hmatched | hlater
      · split_ifs at hmatched with hmatch
        · exact .inr ⟨r, List.mem_cons_self, hmatch, Option.some_inj.mp hmatched⟩
        · exact .inl hmatched
      · obtain ⟨s, hs, hmatch⟩ := hlater
        exact .inr ⟨s, List.mem_cons_of_mem r hs, hmatch⟩

theorem registered_of_resolveOperator (hinjective : Function.Injective sha256) {token id : String}
    (h : resolveOperator sha256 env token = some id) : ⟨id, token⟩ ∈ parseOperatorRegistry env := by
  unfold resolveOperator at h
  split_ifs at h
  rcases mem_of_foldl_match h with hnone | hmatch
  · cases hnone
  · obtain ⟨r, hr, hhash, rfl⟩ := hmatch
    obtain ⟨e, he, rfl⟩ := List.mem_map.mp hr
    rw [hinjective hhash]
    exact he

end Resolve

/-! ## What is written is parsed back -/

section RoundTrip

variable {entries : List OperatorRegistryEntry}

theorem trim_bracketed (cs : List Char) : DecimalText.trim ('[' :: (cs ++ [']'])) = '[' :: (cs ++ [']']) := by
  have hopen : DecimalText.isBlank '[' = false := by decide
  have hclose : DecimalText.isBlank ']' = false := by decide
  rw [DecimalText.trim, List.dropWhile_cons, hopen]
  simp only [Bool.false_eq_true, if_false, List.reverse_cons, List.reverse_append, List.reverse_nil,
    List.nil_append, List.cons_append, List.dropWhile_cons, hclose, List.reverse_reverse]

theorem trimmed_jsonForm (entries : List OperatorRegistryEntry) :
    trimmed (jsonForm entries) = jsonForm entries := by
  obtain ⟨cs, hcs⟩ := JsonText.closeList_eq_append ']' (entries.map entryText)
  rw [trimmed, jsonForm, JsonText.arrayText, hcs, String.toList_ofList, trim_bracketed]

/-- The object of an entry. -/
def entryValue (e : OperatorRegistryEntry) : JsValue := .obj [("id", .str e.id), ("token", .str e.token)]

theorem writes_entryText (e : OperatorRegistryEntry) : JsonText.Writes (entryText e) (entryValue e) := by
  have hmembers : ∀ m ∈ [("id", JsonText.quoted e.id, JsValue.str e.id),
      ("token", JsonText.quoted e.token, JsValue.str e.token)], JsonText.Writes m.2.1 m.2.2 := by
    intro m hm
    rcases List.mem_cons.mp hm with rfl | hm
    · exact JsonText.writes_quoted e.id
    · rw [List.mem_singleton.mp hm]
      exact JsonText.writes_quoted e.token
  exact JsonText.writes_object hmembers

theorem parse_jsonForm (entries : List OperatorRegistryEntry) :
    JsonText.parse (jsonForm entries) = some (.arr (entries.map entryValue)) := by
  have hitems : ∀ i ∈ entries.map fun e => (entryText e, entryValue e), JsonText.Writes i.1 i.2 := by
    intro i hi
    obtain ⟨e, -, rfl⟩ := List.mem_map.mp hi
    exact writes_entryText e
  have hwrites := JsonText.writes_array hitems
  rw [List.map_map, List.map_map] at hwrites
  exact JsonText.parse_of_writes hwrites

/-- Reading each of a list of written entries reads the list. -/
theorem filterMap_map_eq {α β γ : Type} {write : α → β} {read : β → Option γ} {value : α → γ} {as : List α}
    (h : ∀ a ∈ as, read (write a) = some (value a)) : (as.map write).filterMap read = as.map value := by
  rw [List.filterMap_map, ← List.filterMap_eq_map]
  exact List.filterMap_congr h

theorem operatorEntries_jsonForm (h : ∀ e ∈ entries, Writable e) :
    operatorEntries (jsonForm entries) = entries.map trimEntry := by
  have hbracket : startsWithBracket (jsonForm entries) = true := by
    rw [startsWithBracket, jsonForm, String.toList_ofList]
    rfl
  rw [operatorEntries, if_pos hbracket, parse_jsonForm]
  apply filterMap_map_eq
  intro e he
  exact if_pos ⟨(h e he).id.1, (h e he).token.1⟩

theorem operatorEntries_compactForm (h : ∀ e ∈ entries, Writable e) (hne : compactForm entries ≠ "")
    (hbracket : startsWithBracket (compactForm entries) = false) :
    operatorEntries (compactForm entries) = entries.map trimEntry := by
  have hentries : entries.map pairText ≠ [] := by
    intro hnil
    exact hne (by rw [compactForm, hnil]; rfl)
  have hcomma : ∀ pair ∈ entries.map pairText, ',' ∉ pair := by
    intro pair hpair
    obtain ⟨e, he, rfl⟩ := List.mem_map.mp hpair
    have hwritable := h e he
    rw [pairText, List.mem_append, List.mem_cons]
    intro hmem
    rcases hmem with hid | hcolon | htoken
    · exact hwritable.id.2.1 hid
    · cases hcolon
    · exact hwritable.token.2 htoken
  rw [operatorEntries, hbracket, if_neg Bool.false_ne_true, if_pos hne, compactForm, String.toList_ofList,
    List.splitOn_intercalate ',' hcomma hentries]
  apply filterMap_map_eq
  intro e he
  have hwritable := h e he
  apply pairEntry_eq_some.mpr
  refine ⟨⟨e.id.toList, rfl, hwritable.id.2.2, ?_⟩, hwritable.id.1, hwritable.token.1⟩
  rw [String.ofList_toList]
  rfl

end RoundTrip

/-- For every environment: the authentication is fail-closed, and either form is parsed back, exactly when
`OPERATORS` is blank, or lists an operator, or the legacy token is blank. -/
theorem failClosed_iff {Digest : Type} [DecidableEq Digest] {sha256 : String → Digest}
    (hinjective : Function.Injective sha256) (env : OperatorEnv) :
    FailClosed sha256 env ↔ OperatorsBlank env ∨ (∃ e, Listed env e) ∨ LegacyBlank env := by
  constructor
  · intro h
    by_contra hcondition
    rw [not_or, not_or, not_exists] at hcondition
    obtain ⟨hblank, hlisted, hlegacy⟩ := hcondition
    have hregistry := parseOperatorRegistry_legacy hlisted hlegacy
    have hoperator := (h.closed hblank hlisted).2 "operator"
    rw [isRegisteredOperatorId, hregistry] at hoperator
    cases hoperator
  · intro h
    have hregistry (hblank : ¬ OperatorsBlank env) :
        parseOperatorRegistry env = operatorEntries (envText env.operators) :=
      parseOperatorRegistry_eq (h.resolve_left hblank)
    constructor
    case resolved =>
      intro hblank token id hresolve
      have hmem := registered_of_resolveOperator hinjective hresolve
      rw [hregistry hblank] at hmem
      exact mem_operatorEntries.mp hmem
    case closed =>
      intro hblank hlisted
      have hempty : parseOperatorRegistry env = [] :=
        (hregistry hblank).trans (operatorEntries_eq_nil.mpr hlisted)
      constructor
      · intro token
        rw [resolveOperator, loadRegistry, hempty]
        exact ite_self _
      · intro id
        rw [isRegisteredOperatorId, hempty]
        exact ite_self _
    case legacy =>
      intro hblank
      rw [hregistry hblank]
      exact (@parseOperatorRegistry_eq { env with opsControlToken := none } (.inr rfl)).symm
    case json =>
      intro entries hwritable henv
      have htext : envText env.operators = jsonForm entries := by
        rw [henv]
        exact trimmed_jsonForm entries
      have hblank : ¬ OperatorsBlank env := by
        rw [OperatorsBlank, htext]
        intro hnil
        have hlist := congrArg String.toList hnil
        rw [jsonForm, String.toList_ofList] at hlist
        cases hlist
      rw [hregistry hblank, htext, operatorEntries_jsonForm hwritable]
    case compact =>
      intro entries hwritable henv hblank htrim hbracket
      have htext : envText env.operators = compactForm entries := by
        rw [henv]
        exact htrim
      have hne : compactForm entries ≠ "" := fun hnil => hblank (htext.trans hnil)
      rw [hregistry hblank, htext, operatorEntries_compactForm hwritable hne hbracket]

def namedOperators : OperatorEnv := ⟨some "alice:tok-alice,bob:tok:with:colons", some "legacy-shared"⟩

theorem failClosed_namedOperators : FailClosed String.toList namedOperators :=
  (failClosed_iff (fun _ _ h => String.toList_injective h) namedOperators).mpr
    (.inr (.inl ⟨⟨"alice", "tok-alice"⟩, mem_operatorEntries.mp (by decide +kernel)⟩))

/-- A list that is no JSON, beside the token of an earlier deployment. -/
def brokenList : OperatorEnv := ⟨some "[ not valid json", some "legacy-shared"⟩

/-- The list names nobody, and the legacy token authenticates. -/
theorem brokenList_not_failClosed :
    resolveOperator String.toList brokenList "legacy-shared" = some "operator" ∧
      isRegisteredOperatorId brokenList "operator" = true ∧ ¬ FailClosed String.toList brokenList := by
  have hresolve : resolveOperator String.toList brokenList "legacy-shared" = some "operator" := by
    decide +kernel
  refine ⟨hresolve, by decide +kernel, ?_⟩
  intro h
  have hlisted := h.resolved (by unfold OperatorsBlank; decide +kernel) _ _ hresolve
  have hnone : operatorEntries (envText brokenList.operators) = [] := by decide +kernel
  exact operatorEntries_eq_nil.mp hnone _ hlisted

end NexusQuant.Web
