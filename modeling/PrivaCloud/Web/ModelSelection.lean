import PrivaCloud.AgentRunner.ModelReference

/-!
# The model of a reopened session

`modelSelection.js`: the selection that the page restores from the last response model of a session
and the reference that it sends with the next request. The reference is resolved by the runner again.
-/

namespace PrivaCloud.Web

open Framework AskUser AgentRunner

/-- `splitModelContext`: unlike in the runner, a suffix alone has no context. -/
def splitModelContext (value : Option Text) : Option Text × Option Text :=
  let parts := splitSuffix jsSpace (value.getD [])
  (present (some parts.1), if parts.2 ∧ parts.1 ≠ [] then some modelContext1m else none)

def normalizeModelCapabilities (context fallbackContext : Option Text) : Option Text :=
  if context = some modelContext1m then some modelContext1m
  else if fallbackContext = some modelContext1m then some modelContext1m
  else none

structure LastResponseModel where
  profileId : Option Text
  id : Text
  capabilities : Option Text
  observedAt : Option Nat

def normalizeLastResponseModel (response : ResponseModel) : Option LastResponseModel :=
  let raw := match response.model with
    | .nested id context => (id, context)
    | .flat modelId => (modelId, none)
  let parsed := splitModelContext raw.1
  parsed.1.map fun id =>
    { profileId := response.profileId
      id := id
      capabilities := normalizeModelCapabilities raw.2 parsed.2
      observedAt := response.observedAt }

/-- `profiles.find((profile) => profile.id === id)` -/
def findProfile (profiles : List LlmProfile) (id : Option Text) : Option LlmProfile :=
  profiles.find? fun p => some p.id = id

def modelSelectionFromResponse (response : ResponseModel) (profiles : List LlmProfile)
    (defaultProfileId : Option Text) : Option Text :=
  match normalizeLastResponseModel response with
  | none => none
  | some normalized =>
    match present normalized.profileId with
    | none =>
      let defaultProfile := findProfile profiles defaultProfileId
      if defaultProfile.bind (·.defaultModel) = some normalized.id then none
      else some normalized.id
    | some profileId =>
      let profile := findProfile profiles (some profileId)
      if profiles ≠ [] ∧ profile = none then none
      else if some profileId = defaultProfileId ∧ profile.bind (·.defaultModel) = some normalized.id then none
      else some (profileId ++ ':' :: normalized.id)

def modelCapabilitiesFromResponse (response : ResponseModel) : Option Text :=
  normalizeModelCapabilities ((normalizeLastResponseModel response).bind (·.capabilities)) none

def modelReferenceForRequest (selection capabilities : Option Text) (profiles : List LlmProfile)
    (defaultProfileId : Option Text) : Option Text :=
  let reference := (splitModelContext selection).1
  if capabilities ≠ some modelContext1m then reference
  else
    match reference with
    | some reference => some (reference ++ modelContext1mSuffix)
    | none =>
      let effectiveDefaultProfileId :=
        (present defaultProfileId).or (present (profiles.head?.map (·.id)))
      let profile := findProfile profiles effectiveDefaultProfileId
      match present (some (strip jsSpace ((profile.bind (·.defaultModel)).getD []))) with
      | none => none
      | some modelId =>
        let reference := match effectiveDefaultProfileId with
          | some profileId => profileId ++ ':' :: modelId
          | none => modelId
        some (reference ++ modelContext1mSuffix)

def reopenedReference (S : ProfileSet) (response : ResponseModel) : Option Text :=
  modelReferenceForRequest (modelSelectionFromResponse response S.profiles (some S.defaultId))
    (modelCapabilitiesFromResponse response) S.profiles (some S.defaultId)

/-- A resolution gives the profile, the base id and the context of a run. -/
def Matches (run : ResolvedProfile) (resolved : Except ProfileError ResolvedProfile) : Prop :=
  ∃ run', resolved = .ok run' ∧ run'.profile = run.profile ∧ run'.modelId = run.modelId ∧
    run'.capabilities = run.capabilities

def Reopens (S : ProfileSet) (run : ResolvedProfile) (response : ResponseModel) : Prop :=
  Matches run (resolveModel (reopenedReference S response) S.profiles (some S.defaultId))

def shownId (response : ResponseModel) : Text :=
  match response.model with
  | .nested id _ | .flat id => (splitSuffix jsSpace (id.getD [])).1

/-- The page and the index leave the base id of the run alone. -/
def Restorable (run : ResolvedProfile) : Prop :=
  ∃ id, run.modelId = some id ∧ endsWithContext id = false ∧ strip jsSpace id = id

/-- Nothing but white space is left of the id, and the run was on what its profile runs by default. -/
def RestoredByDefault (S : ProfileSet) (run : ResolvedProfile) (response : ResponseModel) : Prop :=
  strip pySpace (shownId response) = [] ∧ modelCapabilitiesFromResponse response = none ∧
    (shownId response = [] → run.profile.id = S.defaultId) ∧
    Matches run (resolveFor run.profile run.profile.defaultModel)

variable {S : ProfileSet} {profile : LlmProfile} {response : ResponseModel} {run : ResolvedProfile}
  {id : Text} {context : Option Text}

private theorem findProfile_of_mem (hp : profile ∈ S.profiles) :
    findProfile S.profiles (some profile.id) = some profile := by
  cases hfind : findProfile S.profiles (some profile.id) with
  | none =>
    have hnone := List.find?_eq_none.mp hfind profile hp
    simp at hnone
  | some other =>
    have hid : other.id = profile.id := by simpa using List.find?_some hfind
    rw [List.inj_on_of_nodup_map S.distinct (List.mem_of_find?_eq_some hfind) hp hid]

/-- The id before the suffix, as the page shows it. -/
def withoutSuffix (model : Text) : Text :=
  if endsWithContext model then (model.rdrop 4).rdropWhile jsSpace else model

private theorem withoutSuffix_prefix (model : Text) : withoutSuffix model <+: model := by
  unfold withoutSuffix
  split
  · exact (List.rdropWhile_prefix jsSpace _).trans (List.take_prefix _ _)
  · exact List.prefix_rfl

private theorem splitModelContext_qualified {pre : Text} (hplain : PlainId pre) {model : Text}
    (hstrip : strip jsSpace model = model) :
    (splitModelContext (some (pre ++ ':' :: model))).1 = some (pre ++ ':' :: withoutSuffix model) := by
  have hsplit : (splitSuffix jsSpace (pre ++ ':' :: model)).1 = pre ++ ':' :: withoutSuffix model := by
    have hcolon := strip_append_cons hplain.nonempty hplain.js spaced_jsSpace.colon
    rw [splitSuffix, hcolon model, rdropWhile_eq_self_of_strip_eq hstrip,
      endsWithContext_append_colon, withoutSuffix]
    split
    · rename_i hends
      have hfour := four_le_of_endsWithContext hends
      have hdrop : (pre ++ ':' :: model).rdrop 4 = pre ++ ':' :: model.rdrop 4 := by
        have hcons : (':' :: model).rdrop 4 = ':' :: model.rdrop 4 :=
          @List.rdrop_append_of_le_length _ [':'] model 4 hfour
        rw [List.rdrop_append_of_le_length 4 (by rw [List.length_cons]; omega), hcons]
      rw [hdrop, hcolon]
    · rfl
  simp only [splitModelContext, Option.getD_some, hsplit]
  exact present_some (by simp)

structure Recorded (S : ProfileSet) (profile : LlmProfile) (id : Text) (context : Option Text)
    (response : ResponseModel) : Prop where
  mem : profile ∈ S.profiles
  profile : response.profileId = some profile.id
  model : response.model = .nested (some id) context

namespace Recorded

private theorem shownId_eq (h : Recorded S profile id context response) :
    shownId response = (splitSuffix jsSpace id).1 := by
  simp only [shownId, h.model, Option.getD_some]

private theorem strip_shownId (h : Recorded S profile id context response) :
    strip jsSpace (shownId response) = shownId response := by
  rw [h.shownId_eq, strip_splitSuffix]

private theorem normalize_none (h : Recorded S profile id context response) (hm : shownId response = []) :
    normalizeLastResponseModel response = none := by
  rw [h.shownId_eq] at hm
  simp only [normalizeLastResponseModel, h.model, splitModelContext, Option.getD_some, hm]
  rfl

private theorem normalize_some (h : Recorded S profile id context response) (hm : shownId response ≠ []) :
    normalizeLastResponseModel response = some
      { profileId := some profile.id
        id := shownId response
        capabilities := normalizeModelCapabilities context
          (if (splitSuffix jsSpace id).2 then some modelContext1m else none)
        observedAt := response.observedAt } := by
  rw [h.shownId_eq] at hm ⊢
  simp only [normalizeLastResponseModel, h.model, splitModelContext, Option.getD_some,
    present_some hm, h.profile, hm, ne_eq, not_false_eq_true, and_true, Option.map_some]

private theorem reopenedReference_none (h : Recorded S profile id context response)
    (hm : shownId response = []) : reopenedReference S response = none ∧
      modelCapabilitiesFromResponse response = none := by
  have hcaps : modelCapabilitiesFromResponse response = none := by
    simp only [modelCapabilitiesFromResponse, h.normalize_none hm]
    rfl
  refine ⟨?_, hcaps⟩
  simp only [reopenedReference, modelSelectionFromResponse, h.normalize_none hm, hcaps]
  rfl

private theorem selection (h : Recorded S profile id context response) (hm : shownId response ≠ []) :
    modelSelectionFromResponse response S.profiles (some S.defaultId) =
      if profile.id = S.defaultId ∧ profile.defaultModel = some (shownId response) then none
      else some (profile.id ++ ':' :: shownId response) := by
  have hplain := S.plain profile h.mem
  simp only [modelSelectionFromResponse, h.normalize_some hm, present_some hplain.nonempty,
    findProfile_of_mem h.mem, reduceCtorEq, and_false, if_false, Option.some.injEq,
    Option.bind_some]

private theorem capabilities (h : Recorded S profile id context response) (hm : shownId response ≠ []) :
    modelCapabilitiesFromResponse response =
      if context = some modelContext1m ∨ (splitSuffix jsSpace id).2 = true then some modelContext1m
      else none := by
  simp only [modelCapabilitiesFromResponse, h.normalize_some hm, Option.bind_some, normalizeModelCapabilities]
  by_cases hcontext : context = some modelContext1m
  · simp [hcontext]
  · cases (splitSuffix jsSpace id).2 <;> simp [hcontext]

private theorem reopenedReference_cases (h : Recorded S profile id context response) (hm : shownId response ≠ []) :
    (modelCapabilitiesFromResponse response = some modelContext1m ∧ ∃ model, reopenedReference S response =
          some (profile.id ++ ':' :: (model ++ modelContext1mSuffix)) ∧
        model <+: shownId response ∧
        (endsWithContext (shownId response) = false → model = shownId response)) ∨
    (modelCapabilitiesFromResponse response = none ∧
      (reopenedReference S response = some (profile.id ++ ':' :: shownId response) ∨
        reopenedReference S response = none ∧ profile.id = S.defaultId ∧
          profile.defaultModel = some (shownId response))) := by
  have hplain := S.plain profile h.mem
  have hsplit := splitModelContext_qualified hplain h.strip_shownId
  have hcaps := h.capabilities hm
  unfold reopenedReference
  rw [h.selection hm]
  split at hcaps
  · left
    refine ⟨hcaps, ?_⟩
    split
    · rename_i hdefault
      refine ⟨shownId response, ?_, List.prefix_rfl, fun _ => rfl⟩
      rw [hcaps, ← hdefault.1]
      have hnone : (splitModelContext none).1 = none := rfl
      simp only [modelReferenceForRequest, ne_eq, not_true_eq_false, if_false, hnone,
        present_some hplain.nonempty, Option.some_or, findProfile_of_mem h.mem, Option.bind_some,
        hdefault.2, Option.getD_some, h.strip_shownId, present_some hm, List.append_assoc,
        List.cons_append]
    · refine ⟨withoutSuffix (shownId response), ?_, withoutSuffix_prefix _, ?_⟩
      · rw [hcaps]
        simp only [modelReferenceForRequest, ne_eq, not_true_eq_false, if_false, hsplit,
          List.append_assoc, List.cons_append]
      · intro hends
        rw [withoutSuffix, hends]
        rfl
  · right
    rename_i hno
    rw [not_or, Bool.not_eq_true] at hno
    have hends : endsWithContext (shownId response) = false := by
      rw [h.shownId_eq]
      exact endsWithContext_splitSuffix hno.2
    refine ⟨hcaps, ?_⟩
    split
    · rename_i hdefault
      refine .inr ⟨?_, hdefault⟩
      rw [hcaps]
      rfl
    · left
      have hbare : withoutSuffix (shownId response) = shownId response := by
        rw [withoutSuffix, hends]
        rfl
      rw [hcaps, modelReferenceForRequest, if_pos (by decide), hsplit, hbare]

end Recorded

section RoundTrip

private theorem reopens_of_settled (h : Recorded S run.profile id run.capabilities response)
    (hid : run.modelId = some id) (hurl : run.profile.baseUrl ≠ [])
    (htoken : run.profile.authToken ≠ []) (hsettled : Settled id) (hjs : strip jsSpace id = id) :
    Reopens S run response := by
  have hsplit := splitSuffix_of_kept hjs hsettled.bare
  have hm : shownId response = id := by rw [h.shownId_eq, hsplit]
  have hne : shownId response ≠ [] := hm ▸ hsettled.nonempty
  have hcaps := h.capabilities hne
  rw [hsplit] at hcaps
  unfold Reopens
  rcases h.reopenedReference_cases hne with ⟨hlong, model, href, -, hmodel⟩ | ⟨hnone, href⟩
  · rw [hm] at hmodel
    have hlong' : run.capabilities = some modelContext1m := by
      by_contra hshort
      rw [hlong, if_neg (by simp [hshort])] at hcaps
      cases hcaps
    rw [href, hmodel hsettled.bare, ProfileSet.resolveModel_suffixed h.mem,
      hsettled.resolveFor_append hurl htoken]
    have hparts := splitModelContext_append hsettled.nonempty hsettled.stripped
    refine ⟨_, rfl, rfl, ?_, ?_⟩
    · rw [hid, ResolvedProfile.modelId, hparts]
    · rw [hlong', ResolvedProfile.capabilities, hparts]
  · have hshort : run.capabilities = none := by
      rcases run.modelId_spec hid with ⟨-, -, hlong | hshort⟩
      · rw [hnone, if_pos (.inl hlong)] at hcaps
        cases hcaps
      · exact hshort.1
    have hmatch : Matches run (resolveFor run.profile (some id)) := by
      rw [hsettled.resolveFor hurl htoken]
      refine ⟨_, rfl, rfl, ?_, ?_⟩
      · rw [hid, ResolvedProfile.modelId, hsettled.splitModelContext]
      · rw [hshort, ResolvedProfile.capabilities, hsettled.splitModelContext]
    rw [hm] at href
    rcases href with href | ⟨href, hdefault, hmodel⟩
    · have hrest := rdropWhile_eq_self_of_strip_eq hsettled.stripped
      rw [href, ProfileSet.resolveModel_named h.mem (by rw [hrest]; exact hsettled.nonempty), hrest]
      exact hmatch
    · rw [href, ProfileSet.resolveModel_none h.mem hdefault, hmodel]
      exact hmatch

private theorem length_le_of_reopens {shown : Text}
    (h : Recorded S run.profile shown run.capabilities response) (hid : run.modelId = some id)
    (hm : strip pySpace (shownId response) ≠ []) (hr : Reopens S run response) : id.length ≤ (shownId response).length := by
  have hne : shownId response ≠ [] := fun hnil => hm (by rw [hnil]; rfl)
  obtain ⟨run', hok, -, hid', -⟩ := hr
  rw [hid] at hid'
  rcases h.reopenedReference_cases hne with ⟨-, model, href, hpre, -⟩ | ⟨-, href | href⟩
  · rw [href, ProfileSet.resolveModel_suffixed h.mem] at hok
    have hlen := length_modelId_le hok hid'
    rw [spaced_pySpace.splitSuffix_append] at hlen
    exact hlen.trans ((length_strip_le _ _).trans hpre.length_le)
  · have hrest : (shownId response).rdropWhile pySpace ≠ [] := by
      intro hnil
      have hall := List.rdropWhile_eq_nil_iff.mp hnil
      exact hm (strip_eq_nil_iff.mpr hall)
    rw [href, ProfileSet.resolveModel_named h.mem hrest] at hok
    have hlen := length_modelId_le hok hid'
    exact hlen.trans ((length_splitSuffix_le _ _).trans (List.rdropWhile_prefix _ _).length_le)
  · rw [href.1, ProfileSet.resolveModel_none h.mem href.2.1, href.2.2] at hok
    have hlen := length_modelId_le hok hid'
    exact hlen.trans (length_splitSuffix_le _ _)

private theorem matches_unique {other : LlmProfile} {text : Option Text}
    (h : Matches run (resolveFor other text)) : other = run.profile := by
  obtain ⟨run', hok, hprofile, -⟩ := h
  obtain ⟨-, rfl⟩ := resolveFor_ok.mp hok
  exact hprofile

private theorem not_matches_error {e : ProfileError} : ¬Matches run (.error e) := by
  rintro ⟨run', hok, -⟩
  cases hok

private theorem not_matches_of_split {text : Option Text} (hsplit : (splitSuffix pySpace (text.getD [])).1 = []) :
    ¬Matches run (resolveFor run.profile text) := by
  rintro ⟨run', hok, -⟩
  obtain ⟨⟨-, -, hsome⟩, -⟩ := resolveFor_ok.mp hok
  obtain ⟨id, hid⟩ := Option.ne_none_iff_exists'.mp hsome
  obtain ⟨hid, hne⟩ := splitModelContext_id hid
  exact hne (hid.symm.trans hsplit)

private theorem splitSuffix_of_blank {space : Char → Bool} {model : Text} (h : strip space model = []) :
    (splitSuffix space model).1 = [] := by
  rw [splitSuffix, h]
  rfl

/-- When only white space is shown, the session reopens as the default model of the profile does. -/
theorem reopens_blank_iff (h : Recorded S run.profile id run.capabilities response)
    (hm : strip pySpace (shownId response) = []) :
    Reopens S run response ↔ RestoredByDefault S run response := by
  unfold Reopens RestoredByDefault
  by_cases hne : shownId response = []
  · obtain ⟨href, hcaps⟩ := h.reopenedReference_none hne
    obtain ⟨p, hp, hdefault, -⟩ := S.exists_default
    rw [href, ProfileSet.resolveModel_none hp hdefault]
    constructor
    · intro hmatch
      obtain rfl := matches_unique hmatch
      exact ⟨hm, hcaps, fun _ => hdefault, hmatch⟩
    · rintro ⟨-, -, hid, hmatch⟩
      obtain rfl := List.inj_on_of_nodup_map S.distinct hp h.mem (hdefault.trans (hid hne).symm)
      exact hmatch
  · rcases h.reopenedReference_cases hne with ⟨hlong, model, href, hpre, -⟩ | ⟨hnone, href⟩
    · have hblank : strip pySpace model = [] :=
        strip_eq_nil_iff.mpr fun c hc => strip_eq_nil_iff.mp hm c (hpre.subset hc)
      have hno : ¬Matches run (resolveFor run.profile (some (model ++ modelContext1mSuffix))) :=
        not_matches_of_split (by rw [Option.getD_some, spaced_pySpace.splitSuffix_append, hblank])
      rw [href, ProfileSet.resolveModel_suffixed h.mem, hlong]
      simp [hno]
    · have hdrop : (shownId response).rdropWhile pySpace = [] :=
        List.rdropWhile_eq_nil_iff.mpr (strip_eq_nil_iff.mp hm)
      rcases href with href | ⟨href, hdefault, hmodel⟩
      · rw [href, ProfileSet.resolveModel_qualified h.mem, hdrop]
        change Matches run (if present run.profile.defaultModel = none then
          .error .invalidModelReference else resolveFor run.profile run.profile.defaultModel) ↔ _
        split
        · rename_i hnone
          have hempty : run.profile.defaultModel.getD [] = [] := by
            cases hmodel : run.profile.defaultModel with
            | none => rfl
            | some model =>
              by_contra hsome
              rw [hmodel, present_some (show model ≠ [] from hsome)] at hnone
              cases hnone
          have hno : ¬Matches run (resolveFor run.profile run.profile.defaultModel) :=
            not_matches_of_split (by rw [hempty]; rfl)
          simp [hno, not_matches_error]
        · simp [hm, hnone, hne]
      · have hno : ¬Matches run (resolveFor run.profile (some (shownId response))) :=
          not_matches_of_split (splitSuffix_of_blank hm)
        rw [href, ProfileSet.resolveModel_none h.mem hdefault, hmodel]
        simp [hno]

/-- A session that is opened again selects the profile, the base id and the context of its last run
exactly when the base id survives the splits of both sides, or the default model of the profile
stands in for it. -/
theorem reopens_iff (S : ProfileSet) (reference : Option Text) (run : ResolvedProfile)
    (hrun : resolveModel reference S.profiles (some S.defaultId) = .ok run)
    (index index' : ResponseModels) (sessionId : Text) (now : Nat)
    (hset : recordLastResponseModel index sessionId run now = some index') (response : ResponseModel)
    (hget : getLastResponseModel index' sessionId = some response) :
    Reopens S run response ↔ Restorable run ∨ RestoredByDefault S run response := by
  obtain ⟨hp, hurl, htoken⟩ := ProfileSet.resolved_mem hrun
  obtain ⟨id, hid⟩ : ∃ id, run.modelId = some id := by
    cases hid : run.modelId with
    | none =>
      simp only [recordLastResponseModel, hid] at hset
      cases hset
    | some id => exact ⟨id, rfl⟩
  obtain ⟨hne, hstrip, -⟩ := run.modelId_spec hid
  obtain ⟨shown, hprofile, hmodel, hshown⟩ := recorded_spec (S.plain _ hp) hid hset hget
  have h : Recorded S run.profile shown run.capabilities response := ⟨hp, hprofile, hmodel⟩
  have hkept (hr : Restorable run) : shown = id ∧ strip jsSpace id = id ∧ Settled id := by
    obtain ⟨id', hid', hends, hjs⟩ := hr
    obtain rfl : id = id' := Option.some.inj (hid.symm.trans hid')
    rcases hshown with ⟨hsame, -⟩ | ⟨-, hsuffix⟩
    · exact ⟨hsame, hjs, hne, hstrip, hends⟩
    · rw [hends] at hsuffix
      cases hsuffix
  by_cases hm : strip pySpace (shownId response) = []
  · rw [reopens_blank_iff h hm]
    constructor
    · exact .inr
    · rintro (hr | hd)
      · obtain ⟨rfl, hjs, hsettled⟩ := hkept hr
        rw [h.shownId_eq, splitSuffix_of_kept hjs hsettled.bare, hstrip] at hm
        exact absurd hm hne
      · exact hd
  · constructor
    · intro hr
      have hlong := length_le_of_reopens h hid hm hr
      rw [h.shownId_eq] at hlong
      rcases hshown with ⟨rfl, hends⟩ | ⟨hshort, -⟩
      · exact .inl ⟨shown, hid, hends, (splitSuffix_eq_of_length hlong).1⟩
      · have hle := length_splitSuffix_le jsSpace shown
        omega
    · rintro (hr | hd)
      · obtain ⟨rfl, hjs, hsettled⟩ := hkept hr
        exact reopens_of_settled h hid hurl htoken hsettled hjs
      · exact absurd hd.1 hm

/-- A default profile and a gateway, whose id is the first part of a model id of the default. -/
def sampleProfiles : ProfileSet where
  profiles := [
    { id := "default".toList, label := "Default".toList, baseUrl := "https://a".toList,
      authToken := "k".toList, defaultModel := some "gateway:m".toList },
    { id := "gateway".toList, label := "Gateway".toList, baseUrl := "https://b".toList,
      authToken := "k".toList, defaultModel := some "ollama:llama3:8b".toList }]
  defaultId := "default".toList
  distinct := by decide
  default_mem := by decide
  plain := by
    intro p hp
    apply plain_of_isProfileId
    revert p
    decide

def runOf (profile : Nat) (model : String) : ResolvedProfile :=
  { profile := sampleProfiles.profiles.getD profile { id := [], label := [], baseUrl := [], authToken := [] }
    model := some model.toList }

/-- The response that the page is given after a run with the model of the run. -/
def responseOf (profileId id : String) (context : Option Text) : ResponseModel :=
  { profileId := some profileId.toList, model := .nested (some id.toList) context, observedAt := some 7 }

/-- A run on `ollama:llama3:8b` of the gateway, in the long context. -/
theorem reopens_gateway : Reopens sampleProfiles (runOf 1 "ollama:llama3:8b[1m]")
      (responseOf "gateway" "ollama:llama3:8b" (some modelContext1m)) := by
  have hid : (runOf 1 "ollama:llama3:8b[1m]").modelId = some "ollama:llama3:8b".toList := by decide
  apply (reopens_iff sampleProfiles (some "gateway:ollama:llama3:8b[1M]".toList)
    (runOf 1 "ollama:llama3:8b[1m]") (by decide) [] _ "s".toList 7 rfl _ rfl).mpr
  exact .inl ⟨_, hid, by decide, by decide⟩

/-- Of three suffixes the run keeps one in its base id, and the reopened session none. -/
theorem not_reopens_threeSuffixes : ∃ run index response,
    resolveModel (some "gateway:m[1m][1m][1m]".toList) sampleProfiles.profiles
      (some sampleProfiles.defaultId) = .ok run ∧
    recordLastResponseModel [] "s".toList run 7 = some index ∧
    getLastResponseModel index "s".toList = some response ∧ ¬Reopens sampleProfiles run response := by
  refine ⟨runOf 1 "m[1m][1m]", [("s".toList, responseOf "gateway" "m" (some modelContext1m))],
    responseOf "gateway" "m" (some modelContext1m), by decide, by decide, by decide, ?_⟩
  rintro ⟨run', hok, -, hid, -⟩
  have hother : resolveModel (reopenedReference sampleProfiles
      (responseOf "gateway" "m" (some modelContext1m))) sampleProfiles.profiles
      (some sampleProfiles.defaultId) = .ok (runOf 1 "m[1m]") := by decide
  rw [hother] at hok
  cases hok
  exact absurd hid (by decide)

end RoundTrip

end PrivaCloud.Web
