import PrivaCloud.AgentRunner.ModelReference

/-!
# The profile store

`LlmProfileStore` on the content of `llm-profiles.json`: loading drops the entries that do not
validate and repairs the default, and every operation writes the whole list back.
-/

namespace PrivaCloud.AgentRunner

open Framework AskUser

/-- `value.split("://", 1)[0]`, when there is a `://` -/
def schemeOf : Text → Option Text
  | [] => none
  | c :: rest =>
    if "://".toList.isPrefixOf (c :: rest) then some [] else (schemeOf rest).map (c :: ·)

def validateBaseUrl (value : Text) : Option Text :=
  let value := (strip pySpace value).rdropWhile (· = '/')
  match schemeOf value with
  | none => none
  | some scheme =>
    if scheme.map Char.toLower ∈ ["http".toList, "https".toList] then some value else none

/-- `LlmProfile.model_validate`, on fields of the declared types -/
def LlmProfile.validated (p : LlmProfile) : Option LlmProfile :=
  if 1 ≤ p.id.length ∧ p.id.length ≤ 63 ∧ 1 ≤ p.label.length ∧ p.label.length ≤ 120 then
    (validateBaseUrl p.baseUrl).map fun url => { p with baseUrl := url }
  else none

/-- An entry of the list `profiles`: an object with the fields of a profile, or anything else. -/
inductive StoredProfile
  | fields (p : LlmProfile)
  | other (json : Text)
  deriving DecidableEq

def StoredProfile.validated : StoredProfile → Option LlmProfile
  | .fields p => p.validated
  | .other _ => none

/-- The content of `llm-profiles.json`. -/
inductive ProfileFile
  | missing
  /-- not JSON, or no object -/
  | unreadable
  /-- `profiles` when it is a list, and `default_profile_id` when it is a string -/
  | document (profiles : Option (List StoredProfile)) (defaultProfileId : Option Text)
  deriving DecidableEq

/-- The profiles and the default as the store returns them. -/
structure ProfileList where
  profiles : List LlmProfile
  defaultId : Option Text
  deriving DecidableEq

namespace ProfileList

def ids (v : ProfileList) : List Text := v.profiles.map (·.id)

def find (v : ProfileList) (id : Text) : Option LlmProfile := v.profiles.find? (·.id = id)

end ProfileList

namespace ProfileFile

def entries : ProfileFile → List StoredProfile
  | .document (some profiles) _ => profiles
  | _ => []

/-- `_raw_profiles` of what `_read_json` returns -/
def load (file : ProfileFile) : ProfileList :=
  let profiles := file.entries.filterMap StoredProfile.validated
  let defaultId := match file with
    | .document (some _) defaultId => defaultId
    | _ => none
  { profiles := profiles
    defaultId := (defaultId.filter (· ∈ profiles.map (·.id))).or (profiles.head?.map (·.id)) }

/-- What `save` writes. -/
def written (v : ProfileList) : ProfileFile := .document (some (v.profiles.map .fields)) v.defaultId

def Valid (file : ProfileFile) : Prop := ∀ raw ∈ file.entries, raw.validated ≠ none

instance (file : ProfileFile) : Decidable file.Valid := inferInstanceAs (Decidable (∀ _ ∈ _, _))

end ProfileFile

inductive StoreError
  | profileIdExists
  | profileNotFound
  | defaultProfileMissing

inductive StoreOp
  | read
  | upsert (profile : LlmProfile) (replacingId : Option Text)
  | delete (id : Text)
  | setDefault (id : Text)
  deriving DecidableEq

/-- The checks of `save`. -/
def save (v : ProfileList) : Except StoreError ProfileList :=
  match v.defaultId with
  | some id => if id ∈ v.ids then .ok v else .error .defaultProfileMissing
  | none => if v.profiles = [] then .ok v else .error .defaultProfileMissing

namespace StoreOp

def run (v : ProfileList) : StoreOp → Except StoreError ProfileList
  | .read => .ok v
  | .upsert profile replacingId =>
    if replacingId = none ∧ v.profiles.any (·.id = profile.id) then .error .profileIdExists
    else
      let profiles := v.profiles.map fun p =>
        if some p.id = replacingId ∨ p.id = profile.id then profile else p
      save
        { profiles := if replacingId = none then profiles ++ [profile] else profiles
          defaultId := v.defaultId.or (some profile.id) }
  | .delete id =>
    if v.profiles.any (·.id = id) then
      let remaining := v.profiles.filter (·.id ≠ id)
      save
        { profiles := remaining
          defaultId := if v.defaultId = some id then remaining.head?.map (·.id) else v.defaultId }
    else .error .profileNotFound
  | .setDefault id =>
    if v.profiles.any (·.id = id) then save { v with defaultId := some id }
    else .error .profileNotFound

end StoreOp

/-- The facts that a probe found out; what it leaves alone is `none`. -/
structure CapabilityUpdate where
  image : Option (Option Bool) := none
  imageReadTransport : Option (Option ImageReadTransport) := none
  deriving DecidableEq

namespace LlmProfile

def withCapability (p : LlmProfile) (modelId : Text) (u : CapabilityUpdate) : LlmProfile :=
  let current := (getValue p.modelCapabilities modelId).getD {}
  let values : ModelCapabilities :=
    { image := u.image.getD current.image
      imageReadTransport := u.imageReadTransport.getD current.imageReadTransport }
  { p with modelCapabilities := assign p.modelCapabilities modelId values }

end LlmProfile

/-- The section of `update_model_capability` under the file lock; a document that is no object raises. -/
def updateModelCapability (file : ProfileFile) (profileId modelId : Text) (u : CapabilityUpdate) :
    Option ProfileList :=
  let v := file.load
  if v.profiles.any (·.id = profileId) then
    some { v with profiles := v.profiles.map fun p =>
      if p.id = profileId then p.withCapability modelId u else p }
  else none

/-- The fields of a request to `PATCH`; `null` counts as absent, but for the token. -/
structure LlmProfileUpdateRequest where
  label : Option Text := none
  baseUrl : Option Text := none
  authToken : Option (Option Text) := none
  defaultModel : Option Text := none
  opusModel : Option Text := none
  sonnetModel : Option Text := none
  haikuModel : Option Text := none
  visionModel : Option Text := none
  deriving DecidableEq

/-- The profile that `update_profile` saves; `validateEndpoint` parses a URL with the library. -/
def LlmProfileUpdateRequest.patch (validateEndpoint : Text → Option Text)
    (request : LlmProfileUpdateRequest) (current : LlmProfile) : Option LlmProfile :=
  let text (field : Option Text) (old : Option Text) := (field.map (strip pySpace)).or old
  match request.authToken with
  | some none | some (some []) => none
  | _ =>
    match validateEndpoint ((request.baseUrl.map (strip pySpace)).getD current.baseUrl) with
    | none => none
    | some url =>
      LlmProfile.validated
        { current with
          label := (request.label.map (strip pySpace)).getD current.label
          baseUrl := url
          authToken := (request.authToken.bind (·.map (strip pySpace))).getD current.authToken
          defaultModel := text request.defaultModel current.defaultModel
          opusModel := text request.opusModel current.opusModel
          sonnetModel := text request.sonnetModel current.sonnetModel
          haikuModel := text request.haikuModel current.haikuModel
          visionModel := text request.visionModel current.visionModel }

inductive ProfileRequest
  | list
  | create (profile : LlmProfile)
  | update (id : Text) (request : LlmProfileUpdateRequest)
  | delete (id : Text)
  | setDefault (id : Text)
  | capability (id modelId : Text) (u : CapabilityUpdate)
  deriving DecidableEq

/-- A change of the store: by a request, or by the migration of the older settings. -/
inductive ProfileChange
  | migration (legacy : Option LlmProfile)
  | request (r : ProfileRequest)

namespace ProfileList

def modify (v : ProfileList) (id : Text) (f : LlmProfile → LlmProfile) : ProfileList :=
  { v with profiles := v.profiles.map fun p => if p.id = id then f p else p }

def add (v : ProfileList) (profile : Option LlmProfile) : ProfileList :=
  { profiles := v.profiles ++ profile.toList
    defaultId := v.defaultId.or (profile.map (·.id)) }

def remove (v : ProfileList) (id : Text) : ProfileList :=
  let remaining := v.profiles.filter (·.id ≠ id)
  { profiles := remaining
    defaultId := if v.defaultId = some id then remaining.head?.map (·.id) else v.defaultId }

end ProfileList

def ProfileChange.effect (validateEndpoint : Text → Option Text) (v : ProfileList) : ProfileChange → ProfileList
  | .migration legacy => v.add legacy
  | .request .list => v
  | .request (.create profile) => v.add (some profile)
  | .request (.update id fields) =>
    v.modify id fun p => (fields.patch validateEndpoint p).getD p
  | .request (.delete id) => v.remove id
  | .request (.setDefault id) => { v with defaultId := some id }
  | .request (.capability id modelId u) => v.modify id (·.withCapability modelId u)

structure ProfileList.Sound (v : ProfileList) : Prop where
  distinct : v.ids.Nodup
  named : ∀ id, v.defaultId = some id → id ∈ v.ids
  default : v.profiles ≠ [] → v.defaultId ≠ none

section Spec

variable {v next : ProfileList} {id : Text} {profile : LlmProfile}
  {validateEndpoint : Text → Option Text}

theorem save_eq_ok (h : save v = .ok next) : next = v ∧
    (∀ id, v.defaultId = some id → id ∈ v.ids) ∧ (v.profiles ≠ [] → v.defaultId ≠ none) := by
  unfold save at h
  split at h
  · rename_i d hd
    split at h <;> cases h
    rename_i hmem
    refine ⟨rfl, ?_, ?_⟩
    · intro id hid
      rw [hd] at hid
      cases hid
      exact hmem
    · intro _ hnone
      rw [hd] at hnone
      cases hnone
  · rename_i hd
    split at h <;> cases h
    rename_i hnil
    refine ⟨rfl, ?_, fun hne => absurd hnil hne⟩
    intro id hid
    rw [hd] at hid
    cases hid

theorem validated_id {p q : LlmProfile} (h : p.validated = some q) : q.id = p.id := by
  unfold LlmProfile.validated at h
  split at h
  · obtain ⟨url, -, rfl⟩ := Option.map_eq_some_iff.mp h
    rfl
  · cases h

theorem patch_id {request : LlmProfileUpdateRequest} {p q : LlmProfile}
    (h : request.patch validateEndpoint p = some q) : q.id = p.id := by
  unfold LlmProfileUpdateRequest.patch at h
  dsimp only at h
  split at h
  · cases h
  · cases h
  · split at h
    · cases h
    · have hid := validated_id h
      exact hid

theorem ids_modify {f : LlmProfile → LlmProfile} (hf : ∀ p, (f p).id = p.id) : (v.modify id f).ids = v.ids := by
  simp only [ProfileList.modify, ProfileList.ids, List.map_map]
  apply List.map_congr_left
  intro p _
  rw [Function.comp_apply]
  split
  · exact hf p
  · rfl

theorem any_id_iff : v.profiles.any (·.id = id) = true ↔ id ∈ v.ids := by
  simp [ProfileList.ids, List.any_eq_true, List.mem_map]

theorem find_eq_some (h : v.find id = some profile) : profile ∈ v.profiles ∧ profile.id = id :=
  ⟨List.mem_of_find?_eq_some h, by simpa using List.find?_some h⟩

theorem eq_of_id (hdistinct : v.ids.Nodup) {p : LlmProfile} (hp : p ∈ v.profiles)
    (hprofile : profile ∈ v.profiles) (hid : p.id = profile.id) : p = profile :=
  List.inj_on_of_nodup_map hdistinct hp hprofile hid

theorem ProfileList.Sound.modify (h : v.Sound) {f : LlmProfile → LlmProfile} (hf : ∀ p, (f p).id = p.id) :
    (v.modify id f).Sound := by
  have hids : (v.modify id f).ids = v.ids := ids_modify hf
  refine ⟨hids ▸ h.distinct, fun d hd => hids ▸ h.named d hd, ?_⟩
  intro hne
  apply h.default
  intro hnil
  apply hne
  simp [ProfileList.modify, hnil]

theorem run_create (h : v.Sound) (hok : StoreOp.run v (.upsert profile none) = .ok next) :
    next = v.add (some profile) ∧ next.Sound := by
  simp only [StoreOp.run, true_and, if_true, reduceCtorEq, false_or] at hok
  split at hok
  · cases hok
  · rename_i hany
    rw [any_id_iff] at hany
    obtain ⟨hnext, hnamed, hdefault⟩ := save_eq_ok hok
    have hsame : (v.profiles.map fun p => if p.id = profile.id then profile else p) = v.profiles := by
      conv_rhs => rw [← List.map_id v.profiles]
      apply List.map_congr_left
      intro p hp
      have hmem : p.id ∈ v.ids := List.mem_map_of_mem hp
      exact if_neg fun (hid : p.id = profile.id) => hany (hid ▸ hmem)
    have hadd : next = v.add (some profile) := by
      rw [hnext, hsame]
      rfl
    refine ⟨hadd, ?_, ?_, ?_⟩
    · rw [hadd, ProfileList.ids, ProfileList.add, List.map_append]
      exact List.nodup_append.mpr ⟨h.distinct, List.nodup_singleton _, by
        intro a ha b hb heq
        rw [Option.toList_some, List.map_singleton, List.mem_singleton] at hb
        exact hany (hb ▸ heq ▸ ha)⟩
    · exact hnext ▸ hnamed
    · exact hnext ▸ hdefault

theorem run_update (h : v.Sound) {f : LlmProfile → Option LlmProfile}
    (hf : ∀ p q, f p = some q → q.id = p.id) {current : LlmProfile}
    (hfind : v.find id = some current) (hpatch : f current = some profile)
    (hok : StoreOp.run v (.upsert profile (some id)) = .ok next) :
    next = v.modify id (fun p => (f p).getD p) ∧ next.Sound := by
  obtain ⟨hmem, hid⟩ := find_eq_some hfind
  have hprofile : profile.id = id := (hf _ _ hpatch).trans hid
  simp only [StoreOp.run, reduceCtorEq, false_and, if_false, Option.some.injEq] at hok
  obtain ⟨hnext, -, -⟩ := save_eq_ok hok
  have hdefault : v.defaultId.or (some profile.id) = v.defaultId := by
    obtain ⟨d, hd⟩ := Option.ne_none_iff_exists'.mp (h.default (List.ne_nil_of_mem hmem))
    rw [hd]
    rfl
  have hmodify : next = v.modify id (fun p => (f p).getD p) := by
    rw [hnext, hdefault]
    simp only [ProfileList.modify, ProfileList.mk.injEq, and_true]
    apply List.map_congr_left
    intro p hp
    simp only [hprofile, or_self]
    split
    · rename_i hpid
      rw [eq_of_id h.distinct hp hmem (hpid.trans hid.symm), hpatch]
      rfl
    · rfl
  refine ⟨hmodify, ?_⟩
  rw [hmodify]
  apply h.modify
  intro p
  cases hq : f p with
  | none => rfl
  | some q => exact hf p q hq

theorem run_delete (h : v.Sound) (hok : StoreOp.run v (.delete id) = .ok next) :
    next = v.remove id ∧ next.Sound := by
  simp only [StoreOp.run] at hok
  split at hok
  · obtain ⟨hnext, hnamed, hdefault⟩ := save_eq_ok hok
    refine ⟨hnext, ?_, hnext ▸ hnamed, hnext ▸ hdefault⟩
    rw [hnext]
    exact (List.filter_sublist.map _).nodup h.distinct
  · cases hok

theorem run_setDefault (h : v.Sound) (hok : StoreOp.run v (.setDefault id) = .ok next) :
    next = { v with defaultId := some id } ∧ next.Sound := by
  simp only [StoreOp.run] at hok
  split at hok
  · obtain ⟨hnext, hnamed, hdefault⟩ := save_eq_ok hok
    refine ⟨hnext, ?_, hnext ▸ hnamed, hnext ▸ hdefault⟩
    rw [hnext]
    exact h.distinct
  · cases hok

theorem updateModelCapability_eq {file : ProfileFile} {profileId modelId : Text}
    {u : CapabilityUpdate} (hok : updateModelCapability file profileId modelId u = some next) :
    next = file.load.modify profileId (·.withCapability modelId u) := by
  simp only [updateModelCapability] at hok
  split at hok <;> cases hok
  rfl

theorem validated_withCapability {p : LlmProfile} (h : p.validated = some p) (modelId : Text)
    (u : CapabilityUpdate) : (p.withCapability modelId u).validated = some (p.withCapability modelId u) := by
  unfold LlmProfile.validated at h ⊢
  split at h
  · rename_i hlengths
    obtain ⟨url, hurl, hp⟩ := Option.map_eq_some_iff.mp h
    have hsame : url = p.baseUrl := congrArg LlmProfile.baseUrl hp
    rw [hsame] at hurl
    have hurl' : validateBaseUrl (p.withCapability modelId u).baseUrl = some p.baseUrl := hurl
    rw [if_pos (by exact hlengths), hurl']
    rfl
  · cases h

theorem load_written (h : v.Sound) (hstable : ∀ p ∈ v.profiles, p.validated = some p) :
    (ProfileFile.written v).load = v := by
  have hprofiles : (v.profiles.map StoredProfile.fields).filterMap StoredProfile.validated = v.profiles := by
    rw [List.filterMap_map]
    conv_rhs => rw [← List.filterMap_some (l := v.profiles)]
    exact List.filterMap_congr hstable
  have hdefault : ((v.defaultId.filter (· ∈ v.profiles.map (·.id))).or
      (v.profiles.head?.map (·.id))) = v.defaultId := by
    cases hd : v.defaultId with
    | none =>
      have hnil : v.profiles = [] := by
        by_contra hne
        exact h.default hne hd
      rw [hnil]
      rfl
    | some d =>
      have hmem : d ∈ v.profiles.map (·.id) := h.named d hd
      rw [Option.filter_some, if_pos (decide_eq_true hmem), Option.some_or]
  simp only [ProfileFile.load, ProfileFile.written, ProfileFile.entries, hprofiles, hdefault]

end Spec

end PrivaCloud.AgentRunner
