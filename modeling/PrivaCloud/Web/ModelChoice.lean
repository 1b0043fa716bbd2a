import PrivaCloud.Framework.Run
import PrivaCloud.Web.ModelSelection

/-!
# The model of a conversation

`settingsStore.js`: the selection that the page shows, and the maps that keep one for each conversation.
-/

namespace PrivaCloud.Web

open Framework AskUser AgentRunner

inductive ModelSource
  | server
  | explicit

/-- What the selection of a model reads and writes; of the capabilities of a model, the context -/
structure ModelStore where
  profiles : List LlmProfile
  defaultProfileId : Option Text
  selectedModel : Option Text := none
  selectedModelCapabilities : Option Text := none
  activeModelSessionKey : Option Text := none
  selectedModelBySession : Text → Option (Option Text) := fun _ => none
  selectedModelCapabilitiesBySession : Text → Option (Option Text) := fun _ => none
  selectedModelSourceBySession : Text → Option ModelSource := fun _ => none

def sessionModelDraftKey : Text := "__draft__".toList

inductive ModelCall
  | activateSessionModel (sessionKey : Option Text) (lastResponseModel : Option ResponseModel) (preserveCurrent : Bool)
  | rekeySessionModel (oldKey newKey : Text)
  | setSelectedModel (model : Option Text)
  | setSelectedModelContext (context : Option Text)

namespace ModelStore

def select (s : ModelStore) (key : Text) (model context : Option Text) (source : ModelSource) : ModelStore :=
  { s with
    selectedModel := model
    selectedModelCapabilities := context
    selectedModelBySession := Function.update s.selectedModelBySession key (some model)
    selectedModelCapabilitiesBySession := Function.update s.selectedModelCapabilitiesBySession key (some context)
    selectedModelSourceBySession := Function.update s.selectedModelSourceBySession key (some source) }

def activateSessionModel (s : ModelStore) (sessionKey : Option Text) (lastResponseModel : Option ResponseModel)
    (preserveCurrent : Bool) : ModelStore :=
  let key := (present sessionKey).getD sessionModelDraftKey
  match s.selectedModelBySession key, s.selectedModelSourceBySession key with
  | some model, some .explicit =>
    { s with
      activeModelSessionKey := some key
      selectedModel := model
      selectedModelCapabilities :=
        normalizeModelCapabilities (s.selectedModelCapabilitiesBySession key).join none }
  | _, _ =>
    let selectedModel :=
      if preserveCurrent then s.selectedModel
      else lastResponseModel.bind (modelSelectionFromResponse · s.profiles s.defaultProfileId)
    let selectedModelCapabilities :=
      if preserveCurrent then normalizeModelCapabilities s.selectedModelCapabilities none
      else lastResponseModel.bind modelCapabilitiesFromResponse
    { s.select key selectedModel selectedModelCapabilities .server with activeModelSessionKey := some key }

def rekeySessionModel (s : ModelStore) (oldKey newKey : Text) : ModelStore :=
  if oldKey = [] ∨ newKey = [] ∨ oldKey = newKey then s
  else
    let activeKey := if s.activeModelSessionKey = some oldKey then some newKey else s.activeModelSessionKey
    match s.selectedModelBySession oldKey with
    | none => { s with activeModelSessionKey := activeKey }
    | some model =>
      let context := normalizeModelCapabilities (s.selectedModelCapabilitiesBySession oldKey).join none
      let source := (s.selectedModelSourceBySession oldKey).getD .server
      { s with
        activeModelSessionKey := activeKey
        selectedModelBySession :=
          Function.update (Function.update s.selectedModelBySession newKey (some model)) oldKey none
        selectedModelCapabilitiesBySession :=
          Function.update (Function.update s.selectedModelCapabilitiesBySession newKey (some context)) oldKey none
        selectedModelSourceBySession :=
          Function.update (Function.update s.selectedModelSourceBySession newKey (some source)) oldKey none }

/-- `state.activeModelSessionKey || SESSION_MODEL_DRAFT_KEY` -/
def choiceKey (s : ModelStore) : Text := (present s.activeModelSessionKey).getD sessionModelDraftKey

def setSelectedModel (s : ModelStore) (model : Option Text) : ModelStore := s.select s.choiceKey model none .explicit

def setSelectedModelContext (s : ModelStore) (context : Option Text) : ModelStore :=
  s.select s.choiceKey s.selectedModel (if context = some modelContext1m then some modelContext1m else none) .explicit

def exec (s : ModelStore) : ModelCall → ModelStore
  | .activateSessionModel sessionKey lastResponseModel preserveCurrent =>
    s.activateSessionModel sessionKey lastResponseModel preserveCurrent
  | .rekeySessionModel oldKey newKey => s.rekeySessionModel oldKey newKey
  | .setSelectedModel model => s.setSelectedModel model
  | .setSelectedModelContext context => s.setSelectedModelContext context

def step (s : ModelStore) (call : ModelCall) : Option ModelStore := some (s.exec call)

def entry (s : ModelStore) (key : Text) : Option (Option Text) × Option (Option Text) × Option ModelSource :=
  (s.selectedModelBySession key, s.selectedModelCapabilitiesBySession key, s.selectedModelSourceBySession key)

def Shown (s : ModelStore) : Prop :=
  ∃ key, s.activeModelSessionKey = some key ∧ s.selectedModelBySession key = some s.selectedModel ∧
    s.selectedModelCapabilitiesBySession key = some s.selectedModelCapabilities

def Explicit (s : ModelStore) (key : Text) : Prop :=
  s.selectedModelBySession key ≠ none ∧ s.selectedModelSourceBySession key = some .explicit

def Chooses (s : ModelStore) (key : Text) : ModelCall → Prop
  | .setSelectedModel _ | .setSelectedModelContext _ => s.activeModelSessionKey = some key
  | .activateSessionModel .. | .rekeySessionModel .. => False

def keyAfter : ModelCall → Text → Text
  | .rekeySessionModel oldKey newKey, key => if key = oldKey ∧ oldKey ≠ [] ∧ newKey ≠ [] then newKey else key
  | _, key => key

/-- A call leaves the selection of the active conversation on the page and the choices of the others alone. -/
structure Right (s : ModelStore) (call : ModelCall) : Prop where
  shown : (s.exec call).Shown
  explicit : ∀ key, s.Explicit key → s.Chooses key call ∨ (s.exec call).entry (keyAfter call key) = s.entry key
  rekeyed : ∀ oldKey newKey, call = .rekeySessionModel oldKey newKey → oldKey ≠ [] → newKey ≠ [] → oldKey ≠ newKey →
    ∀ key, (s.exec call).entry key = if key = oldKey then (none, none, none)
      else if key = newKey ∧ s.selectedModelBySession oldKey ≠ none then s.entry oldKey
      else s.entry key

/-- No conversation gets an id under which another choice is kept or another selection is on the page. -/
def Careful (s : ModelStore) : ModelCall → Prop
  | .rekeySessionModel oldKey newKey =>
    oldKey = [] ∨ newKey = [] ∨ oldKey = newKey ∨ s.selectedModelBySession oldKey = none ∨
      (s.Explicit newKey → s.entry newKey = s.entry oldKey) ∧ (s.activeModelSessionKey = some newKey →
          s.selectedModelBySession newKey = s.selectedModelBySession oldKey ∧
            s.selectedModelCapabilitiesBySession newKey = s.selectedModelCapabilitiesBySession oldKey)
  | _ => True

/-- The maps have the same keys, and the contexts are normalized. -/
structure Tidy (s : ModelStore) : Prop where
  active : s.activeModelSessionKey ≠ some []
  entries : ∀ key, s.entry key = (none, none, none) ∨ ∃ model context source,
    normalizeModelCapabilities context none = context ∧ s.entry key = (some model, some context, some source)

section Calls

variable {s : ModelStore} {key oldKey newKey : Text} {model context : Option Text} {source : ModelSource}

private theorem normal_normalize (context fallbackContext : Option Text) :
    normalizeModelCapabilities (normalizeModelCapabilities context fallbackContext) none =
      normalizeModelCapabilities context fallbackContext := by
  unfold normalizeModelCapabilities
  split <;> simp

private theorem entry_select (s : ModelStore) (key other : Text) (model context : Option Text) (source : ModelSource) :
    (s.select key model context source).entry other =
      if other = key then (some model, some context, some source) else s.entry other := by
  simp only [entry, select, Function.update_apply]
  split <;> rfl

theorem Tidy.select (h : Tidy s) (hnormal : normalizeModelCapabilities context none = context) {active : Option Text}
    (hactive : active ≠ some []) :
    Tidy { s.select key model context source with activeModelSessionKey := active } := by
  refine ⟨hactive, fun other => ?_⟩
  have hentry := entry_select s key other model context source
  split at hentry
  · exact .inr ⟨model, context, source, hnormal, hentry⟩
  · have hother := h.entries other
    rw [← hentry] at hother
    exact hother

private theorem Tidy.entry_of_ne (h : Tidy s) (hne : s.selectedModelBySession key ≠ none) : ∃ model context source,
    normalizeModelCapabilities context none = context ∧ s.entry key = (some model, some context, some source) := by
  refine (h.entries key).resolve_left fun hnone => hne ?_
  exact congrArg Prod.fst hnone

private theorem activate_cases (s : ModelStore) (sessionKey : Option Text) (lastResponseModel : Option ResponseModel)
    (preserveCurrent : Bool) : ∃ key ≠ [],
    (s.Explicit key ∧ ∃ model, s.selectedModelBySession key = some model ∧
      s.activateSessionModel sessionKey lastResponseModel preserveCurrent = { s with
          activeModelSessionKey := some key
          selectedModel := model
          selectedModelCapabilities :=
            normalizeModelCapabilities (s.selectedModelCapabilitiesBySession key).join none }) ∨
    (¬ s.Explicit key ∧ ∃ model context, normalizeModelCapabilities context none = context ∧
      s.activateSessionModel sessionKey lastResponseModel preserveCurrent =
        { s.select key model context .server with activeModelSessionKey := some key }) := by
  refine ⟨(present sessionKey).getD sessionModelDraftKey, ?_, ?_⟩
  · cases hkey : present sessionKey with
    | none => decide
    | some key => simpa using (Option.filter_eq_some_iff.mp hkey).2
  · unfold activateSessionModel
    simp only
    split
    · rename_i model hmodel hsource
      exact .inl ⟨⟨by simp [hmodel], hsource⟩, model, hmodel, rfl⟩
    · rename_i hother
      refine .inr ⟨?_, _, _, ?_, rfl⟩
      · rintro ⟨hsome, hsource⟩
        obtain ⟨model, hmodel⟩ := Option.ne_none_iff_exists'.mp hsome
        exact hother model hmodel hsource
      · split
        · exact normal_normalize _ _
        · cases lastResponseModel with
          | none => rfl
          | some response => exact normal_normalize _ _

private theorem Tidy.activate (h : Tidy s) (sessionKey : Option Text) (lastResponseModel : Option ResponseModel)
    (preserveCurrent : Bool) : Tidy (s.activateSessionModel sessionKey lastResponseModel preserveCurrent) := by
  obtain ⟨key, hne, ⟨-, model, -, heq⟩ | ⟨-, model, context, hnormal, heq⟩⟩ :=
    activate_cases s sessionKey lastResponseModel preserveCurrent
  · rw [heq]
    exact ⟨by simpa using hne, h.entries⟩
  · rw [heq]
    exact h.select hnormal (by simpa using hne)

private theorem right_activate (h : Tidy s) (sessionKey : Option Text) (lastResponseModel : Option ResponseModel)
    (preserveCurrent : Bool) : s.Right (.activateSessionModel sessionKey lastResponseModel preserveCurrent) := by
  obtain ⟨key, -, ⟨-, model, hmodel, heq⟩ | ⟨hnot, model, context, -, heq⟩⟩ :=
    activate_cases s sessionKey lastResponseModel preserveCurrent
  · refine ⟨?_, fun _ _ => .inr ?_, fun _ _ heq => nomatch heq⟩
    · have hne : s.selectedModelBySession key ≠ none := by simp [hmodel]
      obtain ⟨_, context, _, hnormal, hentry⟩ := h.entry_of_ne hne
      simp only [entry, Prod.mk.injEq] at hentry
      rw [exec, heq]
      refine ⟨key, rfl, hmodel, ?_⟩
      simp only [hentry.2.1, Option.join_some, hnormal]
    · rw [exec, heq]
      rfl
  · refine ⟨?_, fun other hother => .inr ?_, fun _ _ heq => nomatch heq⟩
    · rw [exec, heq]
      exact ⟨key, rfl, Function.update_self .., Function.update_self ..⟩
    · have hne : other ≠ key := by
        rintro rfl
        exact hnot hother
      rw [exec, heq]
      exact (entry_select s key other model context .server).trans (if_neg hne)

section Rekey

variable (hold : oldKey ≠ []) (hnew : newKey ≠ []) (hne : oldKey ≠ newKey)

include hold hnew hne

private theorem Tidy.entry_rekey (h : Tidy s) (key : Text) : (s.rekeySessionModel oldKey newKey).entry key =
    if key = oldKey then (none, none, none)
    else if key = newKey ∧ s.selectedModelBySession oldKey ≠ none then s.entry oldKey
    else s.entry key := by
  unfold rekeySessionModel
  rw [if_neg (by simp [hold, hnew, hne])]
  rcases h.entries oldKey with hnone | ⟨model, context, source, hnormal, hsome⟩
  · rw [hnone]
    simp only [entry, Prod.mk.injEq] at hnone
    by_cases hkey : key = oldKey
    · rw [hkey, if_pos rfl, entry, hnone.1]
      simp only [hnone]
    · simp only [hkey, hnone.1, ne_eq, not_true_eq_false, and_false, if_false]
      rfl
  · simp only [entry, Prod.mk.injEq] at hsome
    simp only [entry, Function.update_apply, hsome, Option.join_some, hnormal, Option.getD_some, ne_eq, reduceCtorEq,
      not_false_eq_true, and_true]
    split
    · rfl
    · split <;> rfl

private theorem active_rekey : (s.rekeySessionModel oldKey newKey).activeModelSessionKey =
    if s.activeModelSessionKey = some oldKey then some newKey else s.activeModelSessionKey := by
  unfold rekeySessionModel
  rw [if_neg (by simp [hold, hnew, hne])]
  cases s.selectedModelBySession oldKey <;> rfl

omit hold hnew hne in
theorem selected_rekey : (s.rekeySessionModel oldKey newKey).selectedModel = s.selectedModel ∧
    (s.rekeySessionModel oldKey newKey).selectedModelCapabilities = s.selectedModelCapabilities := by
  unfold rekeySessionModel
  split
  · exact ⟨rfl, rfl⟩
  · cases s.selectedModelBySession oldKey <;> exact ⟨rfl, rfl⟩

private theorem shown_rekey (h : Tidy s) (hs : s.Shown) (hmodel : s.selectedModelBySession oldKey ≠ none) :
    (s.rekeySessionModel oldKey newKey).Shown ↔ (s.activeModelSessionKey = some newKey →
      s.selectedModelBySession newKey = s.selectedModelBySession oldKey ∧
        s.selectedModelCapabilitiesBySession newKey = s.selectedModelCapabilitiesBySession oldKey) := by
  obtain ⟨key, hkey, hshown, hcontext⟩ := hs
  have hentry := h.entry_rekey hold hnew hne
  simp only [entry] at hentry
  simp only [Shown, active_rekey hold hnew hne, selected_rekey, hkey, Option.some.injEq]
  by_cases hactive : key = oldKey
  · subst hactive
    have hmoved := hentry newKey
    rw [if_neg (Ne.symm hne), if_pos ⟨rfl, hmodel⟩, Prod.mk.injEq, Prod.mk.injEq, hshown, hcontext] at hmoved
    exact ⟨fun _ heq => absurd heq hne, fun _ => ⟨newKey, if_pos rfl, hmoved.1, hmoved.2.1⟩⟩
  · have hthere := hentry key
    rw [if_neg hactive] at hthere
    simp only [hactive, if_false, Option.some.injEq, exists_eq_left']
    by_cases hmoved : key = newKey
    · rw [if_pos ⟨hmoved, hmodel⟩, Prod.mk.injEq, Prod.mk.injEq] at hthere
      rw [hthere.1, hthere.2.1, ← hmoved, hshown, hcontext]
      simp only [forall_const, eq_comm]
    · rw [if_neg (fun hand => hmoved hand.1), Prod.mk.injEq, Prod.mk.injEq, hshown, hcontext] at hthere
      exact ⟨fun _ heq => absurd heq hmoved, fun _ => ⟨hthere.1, hthere.2.1⟩⟩

end Rekey

private theorem rekey_eq_self (hs : s.Shown)
    (hnone : oldKey = [] ∨ newKey = [] ∨ oldKey = newKey ∨ s.selectedModelBySession oldKey = none) :
    s.rekeySessionModel oldKey newKey = s := by
  unfold rekeySessionModel
  split
  · rfl
  · have hmodel : s.selectedModelBySession oldKey = none := by tauto
    obtain ⟨key, hkey, hshown, -⟩ := hs
    have hne : s.activeModelSessionKey ≠ some oldKey := by
      rw [hkey]
      rintro ⟨⟩
      cases hmodel.symm.trans hshown
    simp only [hmodel, if_neg hne]

theorem Tidy.rekey (h : Tidy s) (hs : s.Shown) (oldKey newKey : Text) : Tidy (s.rekeySessionModel oldKey newKey) := by
  by_cases hnone : oldKey = [] ∨ newKey = [] ∨ oldKey = newKey ∨ s.selectedModelBySession oldKey = none
  · rw [rekey_eq_self hs hnone]
    exact h
  · simp only [not_or] at hnone
    obtain ⟨hold, hnew, hne, -⟩ := hnone
    refine ⟨?_, fun key => ?_⟩
    · rw [active_rekey hold hnew hne]
      split
      · simpa using hnew
      · exact h.active
    · rw [h.entry_rekey hold hnew hne]
      split
      · exact .inl rfl
      · split <;> exact h.entries _

private theorem right_rekey (h : Tidy s) (hs : s.Shown) (oldKey newKey : Text) :
    s.Right (.rekeySessionModel oldKey newKey) ↔ s.Careful (.rekeySessionModel oldKey newKey) := by
  have hrekeyed : ∀ old new, ModelCall.rekeySessionModel oldKey newKey = .rekeySessionModel old new →
      old ≠ [] → new ≠ [] → old ≠ new → ∀ key, (s.rekeySessionModel oldKey newKey).entry key =
        if key = old then (none, none, none)
        else if key = new ∧ s.selectedModelBySession old ≠ none then s.entry old
        else s.entry key := by
    rintro _ _ ⟨⟩ hold hnew hne
    exact h.entry_rekey hold hnew hne
  by_cases hnone : oldKey = [] ∨ newKey = [] ∨ oldKey = newKey ∨ s.selectedModelBySession oldKey = none
  · have heq := rekey_eq_self hs hnone
    refine ⟨fun _ => by unfold Careful; tauto, fun _ => ⟨?_, fun key hkey => .inr ?_, hrekeyed⟩⟩
    · rw [exec, heq]
      exact hs
    · rw [exec, heq, keyAfter]
      split
      · rename_i hmoved
        obtain ⟨rfl, hold, hnew⟩ := hmoved
        rcases hnone with hempty | hempty | hsame | hmodel
        · exact absurd hempty hold
        · exact absurd hempty hnew
        · rw [hsame]
        · exact absurd hmodel hkey.1
      · rfl
  · simp only [not_or] at hnone
    obtain ⟨hold, hnew, hne, hmodel⟩ := hnone
    have hentry := h.entry_rekey hold hnew hne
    have hcareful : s.Careful (.rekeySessionModel oldKey newKey) ↔
        (s.Explicit newKey → s.entry newKey = s.entry oldKey) ∧ (s.rekeySessionModel oldKey newKey).Shown := by
      rw [shown_rekey hold hnew hne h hs hmodel]
      simp only [Careful, hold, hnew, hne, hmodel, false_or]
    rw [hcareful]
    constructor
    · intro hright
      refine ⟨fun hexplicit => ?_, hright.shown⟩
      have hkept := (hright.explicit newKey hexplicit).resolve_left id
      rw [exec, keyAfter, if_neg (fun hand => hne hand.1.symm), hentry, if_neg (Ne.symm hne), if_pos ⟨rfl, hmodel⟩]
        at hkept
      exact hkept.symm
    · rintro ⟨hexplicit, hshown⟩
      refine ⟨hshown, fun key hkey => .inr ?_, hrekeyed⟩
      by_cases hkeyOld : key = oldKey
      · rw [hkeyOld, exec, keyAfter, if_pos ⟨rfl, hold, hnew⟩, hentry, if_neg (Ne.symm hne), if_pos ⟨rfl, hmodel⟩]
      · rw [exec, keyAfter, if_neg (fun hand => hkeyOld hand.1), hentry, if_neg hkeyOld]
        split
        · rename_i hmoved
          rw [hmoved.1] at hkey ⊢
          exact (hexplicit hkey).symm
        · rfl

private theorem right_choice (h : Tidy s) (hs : s.Shown) {call : ModelCall}
    (hcall : s.exec call = s.select s.choiceKey model context .explicit)
    (hchooses : ∀ key, s.activeModelSessionKey = some key → s.Chooses key call)
    (hrekey : ∀ oldKey newKey, call ≠ .rekeySessionModel oldKey newKey)
    (hkey : ∀ key, keyAfter call key = key) : s.Right call := by
  have hchoice : s.activeModelSessionKey = some s.choiceKey := by
    obtain ⟨key, hactive, -⟩ := hs
    have hne : key ≠ [] := by
      rintro rfl
      exact h.active hactive
    rw [choiceKey, hactive, present_some hne]
    rfl
  refine ⟨?_, fun key _ => ?_, fun oldKey newKey heq => absurd heq (hrekey oldKey newKey)⟩
  · rw [hcall]
    exact ⟨s.choiceKey, hchoice, Function.update_self .., Function.update_self ..⟩
  · by_cases hactive : key = s.choiceKey
    · exact .inl (hchooses key (hactive ▸ hchoice))
    · right
      rw [hcall, hkey, entry_select, if_neg hactive]

private theorem right_iff (h : Tidy s) (hs : s.Shown) (call : ModelCall) : s.Right call ↔ s.Careful call := by
  cases call with
  | activateSessionModel => exact ⟨fun _ => trivial, fun _ => right_activate h _ _ _⟩
  | rekeySessionModel => exact right_rekey h hs _ _
  | setSelectedModel | setSelectedModelContext =>
    exact ⟨fun _ => trivial, fun _ => right_choice h hs rfl (fun _ => id) nofun fun _ => rfl⟩

private theorem Tidy.exec (h : Tidy s) (hs : s.Shown) (call : ModelCall) : Tidy (s.exec call) := by
  cases call with
  | activateSessionModel => exact h.activate _ _ _
  | rekeySessionModel => exact h.rekey hs _ _
  | setSelectedModel => exact h.select rfl h.active
  | setSelectedModelContext => exact h.select (normal_normalize _ none) h.active

/-- After the first activation every call is right in a run exactly while the rekeys are careful. -/
theorem right_iff_careful (profiles : List LlmProfile) (defaultProfileId sessionKey : Option Text)
    (lastResponseModel : Option ResponseModel) (preserveCurrent : Bool) (calls : List ModelCall) :
    RunMeets step Right { profiles, defaultProfileId }
        (.activateSessionModel sessionKey lastResponseModel preserveCurrent :: calls) ↔
      RunMeets step Careful { profiles, defaultProfileId }
        (.activateSessionModel sessionKey lastResponseModel preserveCurrent :: calls) := by
  have hstart : Tidy { profiles, defaultProfileId } := ⟨nofun, fun _ => .inl rfl⟩
  have hfirst := right_activate hstart sessionKey lastResponseModel preserveCurrent
  have hmid := And.intro (hstart.activate sessionKey lastResponseModel preserveCurrent) hfirst.shown
  have hstep (s : ModelStore) (call : ModelCall) (s' : ModelStore) (h : s.Tidy ∧ s.Shown) (hright : s.Right call)
      (hs : s.step call = some s') : s'.Tidy ∧ s'.Shown := by
    cases hs
    exact ⟨h.1.exec h.2 call, hright.shown⟩
  rw [runMeets_cons rfl, runMeets_cons rfl]
  refine and_congr ⟨fun _ => trivial, fun _ => hfirst⟩ ⟨fun hm => ?_, fun hm => ?_⟩
  · exact runMeets_of_invariant hstep (fun s call h => (right_iff h.1 h.2 call).mp) hmid hm
  · exact runMeets_of_invariant (fun s call s' h hc => hstep s call s' h ((right_iff h.1 h.2 call).mpr hc))
      (fun s call h => (right_iff h.1 h.2 call).mpr) hmid hm

end Calls

/-- A draft gets the id of a conversation that is open with a choice of its own. -/
theorem rekey_not_right : ¬ RunMeets step Right { profiles := [], defaultProfileId := none }
    [.activateSessionModel (some "s".toList) none false, .setSelectedModel (some "a".toList),
      .activateSessionModel none none false, .setSelectedModel (some "b".toList),
      .activateSessionModel (some "s".toList) none false, .rekeySessionModel sessionModelDraftKey "s".toList] := by
  rintro ⟨-, -, -, -, -, ⟨⟨key, hkey, hshown, -⟩, -, -⟩, -⟩
  cases hkey
  revert hshown
  decide

end ModelStore

end PrivaCloud.Web
