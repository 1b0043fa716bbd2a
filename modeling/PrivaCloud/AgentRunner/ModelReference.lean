import PrivaCloud.AskUser.AnswerText

/-!
# Model references

`llm_profiles.resolve_model`, which finds the profile and the model of a run, and the entry of
`session_meta` that remembers them. A suffix `[1m]` of a model id asks for the long context.
-/

namespace PrivaCloud.AgentRunner

open Framework AskUser

inductive ImageReadTransport
  | chatCompletions
  | imagesEdits
  | unsupported
  deriving DecidableEq

structure ModelCapabilities where
  image : Option Bool := none
  imageReadTransport : Option ImageReadTransport := none
  deriving DecidableEq

structure LlmProfile where
  id : Text
  label : Text
  baseUrl : Text
  authToken : Text
  defaultModel : Option Text := none
  opusModel : Option Text := none
  sonnetModel : Option Text := none
  haikuModel : Option Text := none
  visionModel : Option Text := none
  modelCapabilities : List (Text × ModelCapabilities) := []
  deriving DecidableEq

def present (text : Option Text) : Option Text := text.filter (· ≠ [])

def modelContext1m : Text := "1m".toList
def modelContext1mSuffix : Text := "[1m]".toList

/-- `value.lower().endswith(MODEL_CONTEXT_1M_SUFFIX)`: only `M` and `m` have the lower case `m`. -/
def endsWithContext (value : Text) : Bool :=
  (value.rtake 4).map Char.toLower = modelContext1mSuffix

/-- The id of a model without a suffix, and whether there was one; `space` is what the language
strips. -/
def splitSuffix (space : Char → Bool) (model : Text) : Text × Bool :=
  let value := strip space model
  if endsWithContext value then (strip space (value.rdrop 4), true) else (value, false)

def splitModelContext (model : Option Text) : Option Text × Option Text :=
  let parts := splitSuffix pySpace (model.getD [])
  (present (some parts.1), if parts.2 then some modelContext1m else none)

def applyModelContext (modelId : Option Text) (context : Option Text) : Option Text :=
  let parts := splitModelContext modelId
  match parts.1 with
  | none => none
  | some value =>
    let effective := if context = some modelContext1m then context else parts.2
    if effective = some modelContext1m then some (value ++ modelContext1mSuffix) else some value

section Suffix

variable {space : Char → Bool} {model rest : Text}

theorem endsWithContext_iff : endsWithContext model = true ↔ ∃ base mark, model = base ++ mark ∧
      mark.map Char.toLower = modelContext1mSuffix := by
  rw [endsWithContext, decide_eq_true_iff]
  constructor
  · intro h
    exact ⟨model.rdrop 4, model.rtake 4, (List.take_append_drop _ _).symm, h⟩
  · rintro ⟨base, mark, rfl, h⟩
    have hlen : mark.length = 4 := by
      rw [← List.length_map (f := Char.toLower), h]
      rfl
    rw [List.rtake, List.length_append, hlen, Nat.add_sub_cancel, List.drop_left]
    exact h

theorem endsWithContext_append (base : Text) : endsWithContext (base ++ modelContext1mSuffix) = true :=
  endsWithContext_iff.mpr ⟨base, modelContext1mSuffix, rfl, by decide⟩

theorem rdrop_append_suffix (base : Text) : (base ++ modelContext1mSuffix).rdrop 4 = base :=
  List.rdrop_append_length

theorem endsWithContext_append_colon (front model : Text) :
    endsWithContext (front ++ ':' :: model) = endsWithContext model := by
  rw [Bool.eq_iff_iff, endsWithContext_iff, endsWithContext_iff]
  constructor
  · rintro ⟨base, mark, happend, hmark⟩
    have hcolon : ':' ∉ mark := by
      intro hmem
      have hlower := List.mem_map_of_mem (f := Char.toLower) hmem
      rw [hmark] at hlower
      revert hlower
      decide
    rcases List.append_eq_append_iff.mp happend with ⟨middle, hbase, hrest⟩ | ⟨middle, hfront, hrest⟩
    · cases middle with
      | nil =>
        rw [List.nil_append] at hrest
        exact absurd (hrest ▸ List.mem_cons_self) hcolon
      | cons c middle =>
        rw [List.cons_append, List.cons.injEq] at hrest
        exact ⟨middle, mark, hrest.2, hmark⟩
    · exact absurd (hrest ▸ List.mem_append_right middle List.mem_cons_self) hcolon
  · rintro ⟨base, mark, rfl, hmark⟩
    exact ⟨front ++ ':' :: base, mark, by simp, hmark⟩

theorem four_le_of_endsWithContext (h : endsWithContext model = true) : 4 ≤ model.length := by
  obtain ⟨base, mark, rfl, hmark⟩ := endsWithContext_iff.mp h
  have hlen : mark.length = 4 := by
    rw [← List.length_map (f := Char.toLower), hmark]
    rfl
  rw [List.length_append, hlen]
  exact Nat.le_add_left _ _

theorem length_splitSuffix_le (space : Char → Bool) (model : Text) :
    (splitSuffix space model).1.length ≤ model.length := by
  have hstrip := length_strip_le space model
  unfold splitSuffix
  dsimp only
  split
  · have hrest := length_strip_le space ((strip space model).rdrop 4)
    rw [List.rdrop, List.length_take] at hrest
    exact hrest.trans ((Nat.min_le_right _ _).trans hstrip)
  · exact hstrip

theorem splitSuffix_eq_of_length (h : model.length ≤ (splitSuffix space model).1.length) :
    strip space model = model ∧ endsWithContext model = false := by
  have hstrip := length_strip_le space model
  unfold splitSuffix at h
  dsimp only at h
  split at h
  · rename_i hends
    have hfour := four_le_of_endsWithContext hends
    have hrest := length_strip_le space ((strip space model).rdrop 4)
    rw [List.rdrop, List.length_take] at hrest
    dsimp only [List.rdrop] at h
    omega
  · rename_i hends
    have hsame := strip_eq_self_of_length h
    rw [hsame] at hends
    exact ⟨hsame, Bool.eq_false_iff.mpr hends⟩

theorem splitSuffix_of_kept (hstrip : strip space model = model)
    (hends : endsWithContext model = false) : splitSuffix space model = (model, false) := by
  simp only [splitSuffix, hstrip, hends]
  rfl

theorem strip_splitSuffix (space : Char → Bool) (model : Text) :
    strip space (splitSuffix space model).1 = (splitSuffix space model).1 := by
  unfold splitSuffix
  dsimp only
  split
  · exact strip_strip _
  · exact strip_strip _

theorem endsWithContext_splitSuffix (h : (splitSuffix space model).2 = false) :
    endsWithContext (splitSuffix space model).1 = false := by
  unfold splitSuffix at h ⊢
  dsimp only at h ⊢
  split at h
  · cases h
  · rename_i hends
    rw [if_neg hends]
    exact Bool.eq_false_iff.mpr hends

/-- Neither the characters of the suffix nor the colon are white space. -/
structure Spaced (space : Char → Bool) : Prop where
  colon : space ':' = false
  opening : space '[' = false
  closing : space ']' = false

theorem Spaced.strip_suffix (h : Spaced space) : strip space modelContext1mSuffix = modelContext1mSuffix := by
  have hmark : (['1', 'm', ']'] : Text).rdropWhile space = ['1', 'm', ']'] :=
    List.rdropWhile_concat_neg space ['1', 'm'] ']' (by simp [h.closing])
  change strip space ('[' :: ['1', 'm', ']']) = _
  rw [strip_cons_of_not_space h.opening, hmark]
  rfl

theorem Spaced.rdropWhile_append (h : Spaced space) (model : Text) :
    (model ++ modelContext1mSuffix).rdropWhile space = model ++ modelContext1mSuffix := by
  have hstay : strip space modelContext1mSuffix ≠ [] := by
    rw [h.strip_suffix]
    decide
  rw [rdropWhile_append_of_strip hstay, rdropWhile_eq_self_of_strip_eq h.strip_suffix]

theorem Spaced.splitSuffix_append (h : Spaced space) (model : Text) :
    splitSuffix space (model ++ modelContext1mSuffix) = (strip space model, true) := by
  have hstrip := strip_append_of_strip_eq (by decide) h.strip_suffix model
  simp only [splitSuffix, hstrip, endsWithContext_append, rdrop_append_suffix, strip_dropWhile]
  rfl

theorem spaced_pySpace : Spaced pySpace := ⟨by decide, by decide, by decide⟩

theorem spaced_jsSpace : Spaced jsSpace := ⟨by decide, by decide, by decide⟩

end Suffix

inductive ProfileError
  | defaultProfileMissing
  | invalidModelReference
  | profileNotReady
  deriving DecidableEq

/-- A look-up in `{p.id: p for p in profiles}`, where later profiles win. -/
def profileById (profiles : List LlmProfile) (id : Text) : Option LlmProfile :=
  profiles.reverse.find? (·.id = id)

/-- `value.split(":", 1)` -/
def splitColon (value : Text) : Option (Text × Text) :=
  if ':' ∈ value then some (value.takeWhile (· ≠ ':'), (value.dropWhile (· ≠ ':')).tail) else none

def resolveModelReference (reference : Option Text) (profiles : List LlmProfile)
    (defaultProfileId : Option Text) : Except ProfileError (LlmProfile × Option Text) :=
  match (present defaultProfileId).bind (profileById profiles) with
  | none => .error .defaultProfileMissing
  | some fallback =>
    let value := strip pySpace (reference.getD [])
    let model := (present (some value)).or fallback.defaultModel
    match splitColon value with
    | none => .ok (fallback, model)
    | some (pre, remainder) =>
      match profileById profiles pre with
      | none => .ok (fallback, model)
      | some profile =>
        let model := (present (some remainder)).or profile.defaultModel
        if present model = none then .error .invalidModelReference else .ok (profile, model)

structure ResolvedProfile where
  profile : LlmProfile
  model : Option Text
  deriving DecidableEq

namespace ResolvedProfile

def modelId (r : ResolvedProfile) : Option Text := (splitModelContext r.model).1

/-- The entry `context` of `capabilities`. -/
def capabilities (r : ResolvedProfile) : Option Text := (splitModelContext r.model).2

end ResolvedProfile

/-- The second half of `resolve_model`. -/
def resolveFor (profile : LlmProfile) (model : Option Text) : Except ProfileError ResolvedProfile :=
  let parts := splitModelContext model
  if profile.baseUrl = [] ∨ profile.authToken = [] ∨ parts.1 = none then .error .profileNotReady
  else .ok { profile := profile, model := applyModelContext parts.1 parts.2 }

/-- `resolve_model`, on the profiles of the store -/
def resolveModel (reference : Option Text) (profiles : List LlmProfile)
    (defaultProfileId : Option Text) : Except ProfileError ResolvedProfile :=
  match resolveModelReference reference profiles defaultProfileId with
  | .error e => .error e
  | .ok (profile, model) => resolveFor profile model

section Resolution

variable {profiles : List LlmProfile} {profile fallback : LlmProfile} {id model : Text}
  {run : ResolvedProfile}

theorem present_some (h : model ≠ []) : present (some model) = some model := by
  simp [present, Option.filter, h]

theorem present_eq_some {text : Option Text} : present text = some model ↔ text = some model ∧ model ≠ [] := by
  cases text with
  | none => simp [present]
  | some text =>
    simp only [present, Option.filter_eq_some_iff, Option.some.injEq, decide_eq_true_eq]

theorem splitColon_append (h : ':' ∉ id) (rest : Text) : splitColon (id ++ ':' :: rest) = some (id, rest) := by
  have hall : ∀ c ∈ id, decide (c ≠ ':') = true := fun c hc =>
    decide_eq_true fun heq => h (heq ▸ hc)
  have htake : (id ++ ':' :: rest).takeWhile (· ≠ ':') = id := by
    rw [List.takeWhile_append_of_pos hall, List.takeWhile_cons_of_neg (by simp), List.append_nil]
  have hdrop : (id ++ ':' :: rest).dropWhile (· ≠ ':') = ':' :: rest := by
    rw [List.dropWhile_append_of_pos hall, List.dropWhile_cons_of_neg (by simp)]
  rw [splitColon, if_pos (by simp), htake, hdrop, List.tail_cons]

theorem profileById_of_mem (hnodup : (profiles.map (·.id)).Nodup) (h : profile ∈ profiles) :
    profileById profiles profile.id = some profile := by
  cases hfind : profileById profiles profile.id with
  | none =>
    have hnone := List.find?_eq_none.mp hfind profile (List.mem_reverse.mpr h)
    simp at hnone
  | some other =>
    have hmem : other ∈ profiles := List.mem_reverse.mp (List.mem_of_find?_eq_some hfind)
    have hid : other.id = profile.id := by simpa using List.find?_some hfind
    rw [List.inj_on_of_nodup_map hnodup hmem h hid]

theorem resolveFor_ok {text : Option Text} :
    resolveFor profile text = .ok run ↔ (profile.baseUrl ≠ [] ∧ profile.authToken ≠ [] ∧
      (splitModelContext text).1 ≠ none) ∧
      run = { profile := profile, model := applyModelContext (splitModelContext text).1
                (splitModelContext text).2 } := by
  unfold resolveFor
  dsimp only
  split
  · rename_i h
    simp only [reduceCtorEq, false_iff]
    tauto
  · rename_i h
    rw [Except.ok.injEq]
    constructor
    · rintro rfl
      tauto
    · rintro ⟨-, rfl⟩
      rfl

theorem splitModelContext_id {text : Option Text} (h : (splitModelContext text).1 = some id) :
    (splitSuffix pySpace (text.getD [])).1 = id ∧ id ≠ [] := by
  change present (some (splitSuffix pySpace (text.getD [])).1) = some id at h
  obtain ⟨hid, hne⟩ := present_eq_some.mp h
  exact ⟨Option.some.inj hid, hne⟩

theorem applyModelContext_cases (text context : Option Text) : applyModelContext text context = none ∨
      applyModelContext text context = some (splitSuffix pySpace (text.getD [])).1 ∨
      applyModelContext text context =
        some ((splitSuffix pySpace (text.getD [])).1 ++ modelContext1mSuffix) := by
  cases hid : (splitModelContext text).1 with
  | none =>
    left
    simp only [applyModelContext, hid]
  | some value =>
    right
    obtain ⟨rfl, -⟩ := splitModelContext_id hid
    simp only [applyModelContext, hid]
    split
    · exact .inr rfl
    · split
      · exact .inr rfl
      · exact .inl rfl

theorem length_modelId_le (h : resolveFor profile (some model) = .ok run)
    (hid : run.modelId = some id) : id.length ≤ (splitSuffix pySpace model).1.length := by
  obtain ⟨⟨-, -, hsome⟩, rfl⟩ := resolveFor_ok.mp h
  obtain ⟨first, hfirst⟩ := Option.ne_none_iff_exists'.mp hsome
  obtain ⟨hmodel, -⟩ := splitModelContext_id hfirst
  obtain ⟨hlast, -⟩ := splitModelContext_id hid
  have hstep := length_splitSuffix_le pySpace first
  rw [Option.getD_some] at hmodel
  rw [hmodel, ← hlast]
  dsimp only
  rw [hfirst]
  rcases applyModelContext_cases (some first) (splitModelContext (some model)).2 with
    happly | happly | happly
  · rw [happly]
    exact Nat.zero_le _
  · rw [happly]
    exact (length_splitSuffix_le _ _).trans hstep
  · rw [happly]
    simp only [Option.getD_some, spaced_pySpace.splitSuffix_append]
    exact (length_strip_le _ _).trans hstep

/-- An id that `resolve_model` leaves alone. -/
structure Settled (id : Text) : Prop where
  nonempty : id ≠ []
  stripped : strip pySpace id = id
  bare : endsWithContext id = false

theorem Settled.splitModelContext (h : Settled id) : splitModelContext (some id) = (some id, none) := by
  simp only [AgentRunner.splitModelContext, Option.getD_some,
    splitSuffix_of_kept h.stripped h.bare, present_some h.nonempty]
  rfl

theorem splitModelContext_append (hne : id ≠ []) (hstrip : strip pySpace id = id) :
    splitModelContext (some (id ++ modelContext1mSuffix)) = (some id, some modelContext1m) := by
  simp only [splitModelContext, Option.getD_some, spaced_pySpace.splitSuffix_append, hstrip, present_some hne]
  rfl

theorem Settled.resolveFor (h : Settled id) (hurl : profile.baseUrl ≠ []) (htoken : profile.authToken ≠ []) :
    resolveFor profile (some id) = .ok { profile := profile, model := some id } := by
  rw [resolveFor_ok, h.splitModelContext]
  refine ⟨⟨hurl, htoken, Option.some_ne_none id⟩, ?_⟩
  simp only [applyModelContext, h.splitModelContext]
  rfl

theorem Settled.resolveFor_append (h : Settled id) (hurl : profile.baseUrl ≠ [])
    (htoken : profile.authToken ≠ []) :
    AgentRunner.resolveFor profile (some (id ++ modelContext1mSuffix)) =
      .ok { profile := profile, model := some (id ++ modelContext1mSuffix) } := by
  rw [resolveFor_ok, splitModelContext_append h.nonempty h.stripped]
  refine ⟨⟨hurl, htoken, Option.some_ne_none id⟩, ?_⟩
  simp only [applyModelContext, h.splitModelContext]
  rfl

/-- The base id of a run is stripped, and it has a suffix only in the long context. -/
theorem ResolvedProfile.modelId_spec (hid : run.modelId = some id) :
    id ≠ [] ∧ strip pySpace id = id ∧ (run.capabilities = some modelContext1m ∨
      run.capabilities = none ∧ endsWithContext id = false) := by
  obtain ⟨hid, hne⟩ := splitModelContext_id hid
  refine ⟨hne, hid ▸ strip_splitSuffix _ _, ?_⟩
  cases hflag : (splitSuffix pySpace (run.model.getD [])).2 with
  | true => exact .inl (by simp [capabilities, AgentRunner.splitModelContext, hflag])
  | false =>
    refine .inr ⟨by simp [capabilities, AgentRunner.splitModelContext, hflag], ?_⟩
    exact hid ▸ endsWithContext_splitSuffix hflag

/-- An id without a colon and without outer white space. -/
structure PlainId (id : Text) : Prop where
  nonempty : id ≠ []
  colon : ':' ∉ id
  py : strip pySpace id = id
  js : strip jsSpace id = id

def idChar (c : Char) : Bool := ('a' ≤ c && c ≤ 'z') || ('0' ≤ c && c ≤ '9')

/-- `PROFILE_ID_RE.fullmatch` -/
def isProfileId : Text → Bool
  | [] => false
  | c :: rest =>
    idChar c && rest.length ≤ 62 && rest.all fun c => idChar c || c = '.' || c = '_' || c = '-'

theorem idChar_spec {c : Char}
    (h : (idChar c || decide (c = '.') || decide (c = '_') || decide (c = '-')) = true) :
    c ≠ ':' ∧ pySpace c = false ∧ jsSpace c = false := by
  simp only [Bool.or_eq_true, decide_eq_true_eq] at h
  rcases h with ((h | rfl) | rfl) | rfl
  · have hrange : 97 ≤ c.toNat ∧ c.toNat ≤ 122 ∨ 48 ≤ c.toNat ∧ c.toNat ≤ 57 := by
      simp only [idChar, Bool.or_eq_true, Bool.and_eq_true, decide_eq_true_eq] at h
      exact h
    refine ⟨?_, ?_, ?_⟩
    · rintro rfl
      revert hrange
      decide
    · simp only [pySpace, Bool.or_eq_false_iff, Bool.and_eq_false_iff, decide_eq_false_iff_not,
        beq_eq_false_iff_ne]
      omega
    · simp only [jsSpace, Bool.or_eq_false_iff, Bool.and_eq_false_iff, decide_eq_false_iff_not,
        beq_eq_false_iff_ne]
      omega
  · decide
  · decide
  · decide

/-- Whatever `validate_profile_id` accepts is plain. -/
theorem plain_of_isProfileId (h : isProfileId id = true) : PlainId id := by
  have hchars : ∀ c ∈ id, c ≠ ':' ∧ pySpace c = false ∧ jsSpace c = false := by
    cases id with
    | nil => cases h
    | cons first rest =>
      simp only [isProfileId, Bool.and_eq_true, List.all_eq_true] at h
      intro c hc
      apply idChar_spec
      rcases List.mem_cons.mp hc with rfl | hc
      · simp [h.1.1]
      · exact h.2 c hc
  refine ⟨?_, fun hmem => (hchars ':' hmem).1 rfl, ?_, ?_⟩
  · rintro rfl
    cases h
  · exact strip_eq_self_of_not_space fun c hc => (hchars c hc).2.1
  · exact strip_eq_self_of_not_space fun c hc => (hchars c hc).2.2

/-- The profiles of a store, one for each id, with a default among them. -/
structure ProfileSet where
  profiles : List LlmProfile
  defaultId : Text
  distinct : (profiles.map (·.id)).Nodup
  default_mem : defaultId ∈ profiles.map (·.id)
  plain : ∀ p ∈ profiles, PlainId p.id

namespace ProfileSet

variable {S : ProfileSet}

theorem exists_default (S : ProfileSet) : ∃ p ∈ S.profiles, p.id = S.defaultId ∧
    (present (some S.defaultId)).bind (profileById S.profiles) = some p := by
  obtain ⟨p, hp, hid⟩ := List.mem_map.mp S.default_mem
  refine ⟨p, hp, hid, ?_⟩
  rw [← hid, present_some (S.plain p hp).nonempty]
  exact profileById_of_mem S.distinct hp

theorem resolveModel_none (hp : profile ∈ S.profiles) (hid : profile.id = S.defaultId) :
    resolveModel none S.profiles (some S.defaultId) = resolveFor profile profile.defaultModel := by
  obtain ⟨p, hp', hid', hfind⟩ := S.exists_default
  obtain rfl : p = profile := List.inj_on_of_nodup_map S.distinct hp' hp (hid'.trans hid.symm)
  simp only [resolveModel, resolveModelReference, hfind]
  rfl

theorem resolveModel_qualified (hp : profile ∈ S.profiles) (rest : Text) :
    resolveModel (some (profile.id ++ ':' :: rest)) S.profiles (some S.defaultId) =
      if present ((present (some (rest.rdropWhile pySpace))).or profile.defaultModel) = none then
        .error .invalidModelReference
      else resolveFor profile
        ((present (some (rest.rdropWhile pySpace))).or profile.defaultModel) := by
  obtain ⟨p, -, -, hfind⟩ := S.exists_default
  have hplain := S.plain profile hp
  have hvalue := strip_append_cons hplain.nonempty hplain.py spaced_pySpace.colon rest
  simp only [resolveModel, resolveModelReference, hfind, Option.getD_some, hvalue,
    splitColon_append hplain.colon, profileById_of_mem S.distinct hp]
  split <;> rename_i h
  · split at h <;> cases h
    rename_i hnone
    rw [if_pos hnone]
  · split at h <;> cases h
    rename_i hsome
    rw [if_neg hsome]

theorem resolveModel_suffixed (hp : profile ∈ S.profiles) (model : Text) :
    resolveModel (some (profile.id ++ ':' :: (model ++ modelContext1mSuffix))) S.profiles
      (some S.defaultId) = resolveFor profile (some (model ++ modelContext1mSuffix)) := by
  have hne : model ++ modelContext1mSuffix ≠ [] :=
    List.append_ne_nil_of_right_ne_nil model (by decide)
  rw [resolveModel_qualified hp, spaced_pySpace.rdropWhile_append, present_some hne,
    Option.some_or, present_some hne, if_neg (Option.some_ne_none _)]

theorem resolveModel_named (hp : profile ∈ S.profiles) {model : Text} (hne : model.rdropWhile pySpace ≠ []) :
    resolveModel (some (profile.id ++ ':' :: model)) S.profiles (some S.defaultId) =
      resolveFor profile (some (model.rdropWhile pySpace)) := by
  rw [resolveModel_qualified hp, present_some hne, Option.some_or, present_some hne,
    if_neg (Option.some_ne_none _)]

theorem resolved_mem {reference : Option Text}
    (h : resolveModel reference S.profiles (some S.defaultId) = .ok run) :
    run.profile ∈ S.profiles ∧ run.profile.baseUrl ≠ [] ∧ run.profile.authToken ≠ [] := by
  obtain ⟨p, hp, -, hfind⟩ := S.exists_default
  have hby {id : Text} {q : LlmProfile} (hq : profileById S.profiles id = some q) :
      q ∈ S.profiles := List.mem_reverse.mp (List.mem_of_find?_eq_some hq)
  have hfor {q : LlmProfile} {text : Option Text} (hq : q ∈ S.profiles)
      (hok : resolveFor q text = .ok run) :
      run.profile ∈ S.profiles ∧ run.profile.baseUrl ≠ [] ∧ run.profile.authToken ≠ [] := by
    obtain ⟨⟨hurl, htoken, -⟩, rfl⟩ := resolveFor_ok.mp hok
    exact ⟨hq, hurl, htoken⟩
  simp only [resolveModel, resolveModelReference, hfind] at h
  split at h
  · cases h
  · rename_i q text href
    split at href
    · cases href
      exact hfor hp h
    · split at href
      · cases href
        exact hfor hp h
      · rename_i hq
        split at href <;> cases href
        exact hfor (hby hq) h

end ProfileSet

end Resolution

/-- The model of an entry: a nested record, or the flat `model_id` of older entries. -/
inductive RawModel
  | nested (id : Option Text) (context : Option Text)
  | flat (modelId : Option Text)
  deriving DecidableEq

structure ResponseModel where
  profileId : Option Text
  model : RawModel
  observedAt : Option Nat
  deriving DecidableEq

/-- `_normalize_response_model`: the id and the context -/
def normalizeResponseModel (model : RawModel) : Option (Text × Option Text) :=
  let raw := match model with
    | .nested id context => (id, context)
    | .flat modelId => (modelId, none)
  match raw.1 with
  | none => none
  | some rawId =>
    let parts := splitModelContext (some rawId)
    parts.1.map fun id =>
      (id, if raw.2 = some modelContext1m ∨ parts.2 = some modelContext1m then some modelContext1m
        else none)

abbrev ResponseModels := List (Text × ResponseModel)

/-- `set_last_response_model` without a time of its own -/
def setLastResponseModel (index : ResponseModels) (sessionId : Text) (model : RawModel)
    (profileId : Option Text) (now : Nat) : Option ResponseModels :=
  if sessionId = [] then none
  else
    match normalizeResponseModel model, present (profileId.map (strip pySpace)) with
    | some (id, context), some profileId =>
      some (assign index sessionId
        { profileId := some profileId, model := .nested (some id) context, observedAt := some now })
    | _, _ => none

/-- `_record_last_response_model` for a run; `none` when it writes nothing -/
def recordLastResponseModel (index : ResponseModels) (sessionId : Text) (run : ResolvedProfile)
    (now : Nat) : Option ResponseModels :=
  match present run.modelId with
  | none => none
  | some id =>
    setLastResponseModel index sessionId (.nested (some id) run.capabilities) (some run.profile.id)
      now

def getLastResponseModel (index : ResponseModels) (sessionId : Text) : Option ResponseModel :=
  (getValue index sessionId).bind fun entry =>
    (normalizeResponseModel entry.model).map fun model =>
      { profileId := present entry.profileId
        model := .nested (some model.1) model.2
        observedAt := entry.observedAt }

section Recorded

variable {index index' : ResponseModels} {sessionId id : Text} {run : ResolvedProfile} {now : Nat}
  {response : ResponseModel}

theorem normalizeResponseModel_nested {context : Option Text} {model : Text × Option Text}
    (h : normalizeResponseModel (.nested (some id) context) = some model) :
    model.1 = (splitSuffix pySpace id).1 ∧ model.1 ≠ [] ∧
      model.2 = if context = some modelContext1m ∨ (splitSuffix pySpace id).2 = true then
        some modelContext1m else none := by
  obtain ⟨first, hfirst, rfl⟩ := Option.map_eq_some_iff.mp h
  obtain ⟨hid, hne⟩ := splitModelContext_id hfirst
  refine ⟨hid.symm, hne, ?_⟩
  have hflag : ((splitModelContext (some id)).2 = some modelContext1m) ↔ (splitSuffix pySpace id).2 = true := by
    cases hsuffix : (splitSuffix pySpace id).2 <;> simp [splitModelContext, hsuffix]
  simp only [hflag]

theorem getValue_setLastResponseModel {model : RawModel} {profileId : Text}
    (h : setLastResponseModel index sessionId model (some profileId) now = some index') :
    ∃ m, normalizeResponseModel model = some m ∧ getValue index' sessionId =
      some { profileId := some (strip pySpace profileId), model := .nested (some m.1) m.2,
             observedAt := some now } := by
  unfold setLastResponseModel at h
  split at h
  · cases h
  · split at h <;> cases h
    rename_i id context profileId' hmodel hprofile
    obtain ⟨hid, -⟩ := present_eq_some.mp hprofile
    cases hid
    exact ⟨(id, context), hmodel, by rw [getValue_assign, if_pos rfl]⟩

/-- What the page is told about a recorded run: the profile, the context, and the base id, unless the
id has a suffix of its own. -/
theorem recorded_spec (hplain : PlainId run.profile.id) (hid : run.modelId = some id)
    (hset : recordLastResponseModel index sessionId run now = some index')
    (hget : getLastResponseModel index' sessionId = some response) :
    ∃ shown, response.profileId = some run.profile.id ∧ response.model = .nested (some shown) run.capabilities ∧
      (shown = id ∧ endsWithContext id = false ∨ shown.length < id.length ∧ endsWithContext id = true) := by
  obtain ⟨hne, hstrip, hcontext⟩ := run.modelId_spec hid
  simp only [recordLastResponseModel, hid, present_some hne] at hset
  obtain ⟨⟨id', context'⟩, hnorm, hvalue⟩ := getValue_setLastResponseModel hset
  simp only [getLastResponseModel, hvalue, Option.bind_some] at hget
  obtain ⟨⟨shown, context''⟩, hread, rfl⟩ := Option.map_eq_some_iff.mp hget
  obtain ⟨hid', -, hctx'⟩ := normalizeResponseModel_nested hnorm
  obtain ⟨hshown, -, hctx''⟩ := normalizeResponseModel_nested hread
  dsimp only at hid' hctx' hshown hctx''
  refine ⟨shown, ?_, ?_, ?_⟩
  · rw [hplain.py, present_some hplain.nonempty]
  · have hsame : context'' = run.capabilities := by
      rcases hcontext with hlong | ⟨hnone, hends⟩
      · rw [hlong] at hctx' ⊢
        rw [hctx'', hctx', if_pos (.inl (if_pos (.inl rfl)))]
      · have hkept := splitSuffix_of_kept hstrip hends
        rw [hkept] at hid' hctx'
        rw [hid', hkept] at hctx''
        rw [hnone] at hctx' ⊢
        rw [hctx'', hctx']
        simp
    rw [hsame]
  · cases hends : endsWithContext id with
    | false =>
      have hkept := splitSuffix_of_kept hstrip hends
      rw [hkept] at hid'
      rw [hid', hkept] at hshown
      exact .inl ⟨hshown, rfl⟩
    | true =>
      refine .inr ⟨?_, rfl⟩
      have hshort : id'.length < id.length := by
        by_contra hlong
        rw [hid'] at hlong
        have hkept := (splitSuffix_eq_of_length (Nat.le_of_not_lt hlong)).2
        rw [hends] at hkept
        cases hkept
      rw [hshown]
      exact (length_splitSuffix_le _ _).trans_lt hshort

end Recorded

end PrivaCloud.AgentRunner
