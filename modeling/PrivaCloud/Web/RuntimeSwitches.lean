import Mathlib.Data.List.Perm.Basic
import PrivaCloud.Framework.Run

/-!
# The runtime switches

`settingsStore.js`: a call shows its switch at once, and what the server answers replaces what is shown.
-/

namespace PrivaCloud.Web

open Framework

inductive RuntimeSetting
  | env
  | extraEnvEnabled
  | promptSuggestionEnabled
  | agentTeamsEnabled
  | crossSessionInteractionEnabled
  | recapEnabled
  deriving DecidableEq

def RuntimeSetting.Value : RuntimeSetting → Type
  | env => List (String × String)
  | _ => Bool

/-- What the store shows, and what the server has -/
abbrev RuntimeSettings : Type := (setting : RuntimeSetting) → setting.Value

abbrev RuntimeUpdate : Type := (setting : RuntimeSetting) → Option setting.Value

namespace RuntimeUpdate

def apply (update : RuntimeUpdate) (s : RuntimeSettings) : RuntimeSettings :=
  fun setting => (update setting).getD (s setting)

def previous (update : RuntimeUpdate) (s : RuntimeSettings) : RuntimeUpdate :=
  fun setting => (update setting).map fun _ => s setting

def only (setting : RuntimeSetting) (value : setting.Value) : RuntimeUpdate :=
  Function.update (fun _ => none) setting (some value)

private theorem apply_of_some {update : RuntimeUpdate} {setting : RuntimeSetting} {value : setting.Value}
    (h : update setting = some value) (s : RuntimeSettings) : update.apply s setting = value := by
  rw [apply, h, Option.getD_some]

private theorem apply_of_none {update : RuntimeUpdate} {setting : RuntimeSetting} (h : update setting = none)
    (s : RuntimeSettings) : update.apply s setting = s setting := by
  rw [apply, h, Option.getD_none]

end RuntimeUpdate

open RuntimeUpdate

inductive RuntimeCall
  | saveRuntimeEnv (envData : List (String × String)) (enabled : Option Bool)
  | setRuntimeEnvEnabled (enabled : Bool)
  | setPromptSuggestionEnabled (enabled : Bool)
  | setAgentTeamsEnabled (enabled : Bool)
  | setCrossSessionInteractionEnabled (enabled : Bool)
  | saveRecapEnabled (enabled : Bool)

/-- What a call shows and sends; `saveRuntimeEnv` sends the switch that is shown if it gets none. -/
def RuntimeCall.update (s : RuntimeSettings) : RuntimeCall → RuntimeUpdate
  | saveRuntimeEnv envData enabled =>
    Function.update (only .extraEnvEnabled (enabled.getD (s .extraEnvEnabled))) .env (some envData)
  | setRuntimeEnvEnabled enabled => only .extraEnvEnabled enabled
  | setPromptSuggestionEnabled enabled => only .promptSuggestionEnabled enabled
  | setAgentTeamsEnabled enabled => only .agentTeamsEnabled enabled
  | setCrossSessionInteractionEnabled enabled => only .crossSessionInteractionEnabled enabled
  | saveRecapEnabled enabled => only .recapEnabled enabled

theorem RuntimeCall.update_own (call : RuntimeCall) (s : RuntimeSettings) (h : call.update s .recapEnabled ≠ none)
    {setting : RuntimeSetting} (hne : setting ≠ .recapEnabled) : call.update s setting = none := by
  cases call <;> first | exact absurd rfl h | (cases setting <;> first | rfl | exact absurd rfl hne)

inductive RequestState
  | sent
  | applied (time : Nat) (answer : RuntimeSettings)
  | failed

/-- A request whose answer has not arrived, and what its failure restores.

The code keeps no times and no `overlaps`, the settings that other calls changed while it was pending: what is
assumed of the orders reads them. -/
structure RuntimeRequest where
  update : RuntimeUpdate
  previous : RuntimeUpdate
  state : RequestState
  called : Nat
  overlaps : RuntimeSetting → Bool
  own : update .recapEnabled ≠ none → ∀ setting ≠ .recapEnabled, update setting = none
  restores : ∀ setting, previous setting = none ↔ update setting = none

namespace RuntimeRequest

/-- A request of `saveRecapEnabled` -/
def isRecap (r : RuntimeRequest) : Bool :=
  (r.update .recapEnabled).isSome

def isApplied (r : RuntimeRequest) : Bool :=
  match r.state with
  | .applied _ _ => true
  | _ => false

def meets (update : RuntimeUpdate) (r : RuntimeRequest) : RuntimeRequest :=
  { r with overlaps := fun setting => r.overlaps setting || (update setting).isSome }

end RuntimeRequest

/-- `runtimeFeatureState` -/
def runtimeFeatureState (answer : RuntimeSettings) : RuntimeUpdate
  | .recapEnabled => none
  | setting => some (answer setting)

theorem runtimeFeatureState_of_ne (answer : RuntimeSettings) {setting : RuntimeSetting} (h : setting ≠ .recapEnabled) :
    runtimeFeatureState answer setting = some (answer setting) := by
  cases setting <;> first | rfl | exact absurd rfl h

structure SettingsPage where
  store : RuntimeSettings
  server : RuntimeSettings
  clock : Nat := 0
  requests : List RuntimeRequest := []

inductive RuntimeEvent
  | calls (call : RuntimeCall)
  | applies (i : Nat)
  | fails (i : Nat)
  | answers (i : Nat)

namespace SettingsPage

def request (s : SettingsPage) (call : RuntimeCall) : RuntimeRequest where
  update := call.update s.store
  previous := (call.update s.store).previous s.store
  state := .sent
  called := s.clock
  overlaps := fun setting => s.requests.any fun r => (r.update setting).isSome
  own := fun h _ => call.update_own s.store h
  restores := fun _ => Option.map_eq_none_iff

/-- A call, the processing of a request, its failure before that, and the arrival of what it came to -/
def step (s : SettingsPage) : RuntimeEvent → Option SettingsPage
  | .calls call =>
    let update := call.update s.store
    some { s with
      store := update.apply s.store
      clock := s.clock + 1
      requests := s.requests.map (RuntimeRequest.meets update) ++ [s.request call] }
  | .applies i =>
    s.requests[i]?.bind fun r =>
      match r.state with
      | .sent =>
        let server := r.update.apply s.server
        some { s with
          server := server
          clock := s.clock + 1
          requests := s.requests.set i { r with state := .applied s.clock server } }
      | _ => none
  | .fails i =>
    s.requests[i]?.bind fun r =>
      match r.state with
      | .sent => some { s with requests := s.requests.set i { r with state := .failed } }
      | _ => none
  | .answers i =>
    s.requests[i]?.bind fun r =>
      match r.state with
      | .sent => none
      | .applied _ answer =>
        -- the answer to `saveRecapEnabled` is not read
        let store := if r.isRecap then s.store else (runtimeFeatureState answer).apply s.store
        some { s with store := store, requests := s.requests.eraseIdx i }
      | .failed => some { s with store := r.previous.apply s.store, requests := s.requests.eraseIdx i }

/-- The server gets the requests of `saveRecapEnabled` in the order of their calls, the other answers arrive in the
order in which it applied the requests, and a request that fails was at no time pending together with another one
that sets the same. -/
def Orderly (s : SettingsPage) : RuntimeEvent → Prop
  | .applies i => ∀ r ∈ s.requests[i]?, r.isRecap = true →
      ∀ other ∈ s.requests, other.isRecap = true → other.state = .sent → r.called ≤ other.called
  | .answers i => ∀ r ∈ s.requests[i]?,
      match r.state with
      | .applied time _ => r.isRecap = true ∨ ∀ other ∈ s.requests, other.isRecap = false →
          ∀ later answer, other.state = .applied later answer → time ≤ later
      | _ => ∀ setting, r.update setting ≠ none → r.overlaps setting = false
  | _ => True

end SettingsPage

namespace RuntimeRequest

variable {r other : RuntimeRequest} {setting : RuntimeSetting}

/-- What is shown for the setting is what the server is to have when it is done with the request. -/
structure Brings (r : RuntimeRequest) (setting : RuntimeSetting) : Prop where
  sets : r.update setting ≠ none
  reads : r.isRecap = true → r.isApplied = false

/-- The request changed the setting after the given time. -/
structure Overtakes (r : RuntimeRequest) (time : Nat) (setting : RuntimeSetting) : Prop where
  sets : r.update setting ≠ none
  later : ∃ later answer, r.state = .applied later answer ∧ time < later

/-- A later call of `saveRecapEnabled` that the server has not applied -/
structure Newer (r other : RuntimeRequest) : Prop where
  recap : other.isRecap = true
  open_ : other.isApplied = false
  called : r.called < other.called

structure Apart (r other : RuntimeRequest) : Prop where
  called : r.called ≠ other.called
  overlaps : ∀ setting, r.update setting ≠ none → other.update setting ≠ none →
    r.overlaps setting = true ∧ other.overlaps setting = true

end RuntimeRequest

namespace SettingsPage

/-- What is shown is what the server has, or a pending request brings it. -/
structure Inv (s : SettingsPage) : Prop where
  called : ∀ r ∈ s.requests, r.called < s.clock
  applied : ∀ r ∈ s.requests, ∀ time answer, r.state = .applied time answer → time < s.clock
  apart : s.requests.Pairwise RuntimeRequest.Apart
  shown : ∀ setting, s.store setting = s.server setting ∨ ∃ r ∈ s.requests, r.Brings setting
  answered : ∀ r ∈ s.requests, ∀ time answer, r.state = .applied time answer → r.isRecap = false →
    ∀ setting ≠ .recapEnabled, answer setting = s.server setting ∨ ∃ other ∈ s.requests, other.Overtakes time setting
  restored : ∀ r ∈ s.requests, r.isApplied = false → ∀ setting, r.overlaps setting = false →
    ∀ value ∈ r.previous setting, value = s.server setting
  newest : ∀ r ∈ s.requests, r.isRecap = true → r.state = .sent →
    r.update .recapEnabled = some (s.store .recapEnabled) ∨ ∃ other ∈ s.requests, r.Newer other

section Steps

variable {s s' : SettingsPage} {r other : RuntimeRequest} {requests rest : List RuntimeRequest}
  {setting : RuntimeSetting}

private theorem apart_symm (h : r.Apart other) : other.Apart r :=
  ⟨h.called.symm, fun setting hother hr => (h.overlaps setting hr hother).symm⟩

private theorem Inv.perm (h : s.Inv) (hp : s.requests.Perm requests) : Inv { s with requests := requests } where
  called r hr := h.called r (hp.mem_iff.mpr hr)
  applied r hr := h.applied r (hp.mem_iff.mpr hr)
  apart := (hp.pairwise_iff apart_symm).mp h.apart
  shown setting := by simpa only [hp.mem_iff] using h.shown setting
  answered r hr := by simpa only [hp.mem_iff] using h.answered r (hp.mem_iff.mpr hr)
  restored r hr := h.restored r (hp.mem_iff.mpr hr)
  newest r hr := by simpa only [hp.mem_iff] using h.newest r (hp.mem_iff.mpr hr)

private theorem isRecap_iff : r.isRecap = true ↔ r.update .recapEnabled ≠ none :=
  Option.isSome_iff_ne_none

private theorem not_recap_of_update (hne : setting ≠ .recapEnabled) (h : r.update setting ≠ none) : r.isRecap = false :=
  Bool.eq_false_iff.mpr fun hrecap => h (r.own (isRecap_iff.mp hrecap) setting hne)

private theorem mem_rest_of_ne {p : RuntimeRequest → Prop} (hr : ¬ p r) (h : ∃ other ∈ r :: rest, p other) :
    ∃ other ∈ rest, p other := by
  obtain ⟨other, hmem, hp⟩ := h
  rcases List.mem_cons.mp hmem with rfl | hmem
  · exact absurd hp hr
  · exact ⟨other, hmem, hp⟩

private theorem mem_cons_of_imp {p : RuntimeRequest → Prop} {r' : RuntimeRequest} (hr : p r → p r')
    (h : ∃ other ∈ r :: rest, p other) : ∃ other ∈ r' :: rest, p other := by
  obtain ⟨other, hmem, hp⟩ := h
  rcases List.mem_cons.mp hmem with rfl | hmem
  · exact ⟨r', List.mem_cons_self, hr hp⟩
  · exact ⟨other, List.mem_cons_of_mem _ hmem, hp⟩

private theorem not_overtakes (h : r.isApplied = false) (time : Nat) : ¬ r.Overtakes time setting := by
  rintro ⟨-, later, answer, hstate, -⟩
  simp [RuntimeRequest.isApplied, hstate] at h

/-- A request that ends takes nothing along that the others rely on. -/
theorem inv_ends (h : Inv { s with requests := r :: rest }) {store : RuntimeSettings}
    (hshown : ∀ setting, store setting = s.server setting ∨
      (store setting = s.store setting ∧ ¬ r.Brings setting) ∨ ∃ other ∈ rest, other.Brings setting)
    (hanswered : ∀ other ∈ rest, other.isRecap = false → ∀ time answer, other.state = .applied time answer →
      ∀ setting ≠ .recapEnabled, ¬ r.Overtakes time setting)
    (hnewest : ∀ other ∈ rest, other.isRecap = true →
      store .recapEnabled = s.store .recapEnabled ∧ ¬ other.Newer r) :
    Inv { s with store := store, requests := rest } where
  called other ho := h.called other (List.mem_cons_of_mem _ ho)
  applied other ho := h.applied other (List.mem_cons_of_mem _ ho)
  apart := (List.pairwise_cons.mp h.apart).2
  shown setting := by
    rcases hshown setting with hsame | ⟨hstore, hnot⟩ | hother
    · exact .inl hsame
    · exact (h.shown setting).imp hstore.trans (mem_rest_of_ne hnot)
    · exact .inr hother
  answered other ho time answer hstate hrecap setting hne :=
    (h.answered other (List.mem_cons_of_mem _ ho) time answer hstate hrecap setting hne).imp_right
      (mem_rest_of_ne (hanswered other ho hrecap time answer hstate setting hne))
  restored other ho := h.restored other (List.mem_cons_of_mem _ ho)
  newest other ho hrecap hsent := by
    obtain ⟨hstore, hnot⟩ := hnewest other ho hrecap
    have hshow := (h.newest other (List.mem_cons_of_mem _ ho) hrecap hsent).imp_right (mem_rest_of_ne hnot)
    rwa [← hstore] at hshow

private theorem inv_answer_recap (h : Inv { s with requests := r :: rest }) (happlied : r.isApplied = true)
    (hrecap : r.isRecap = true) : Inv { s with requests := rest } := by
  refine inv_ends h (fun setting => .inr (.inl ⟨rfl, fun hbrings => ?_⟩)) ?_ fun other _ _ => ⟨rfl, fun hnewer => ?_⟩
  · simp [hbrings.reads hrecap] at happlied
  · intro other _ _ time answer _ setting hne hover
    simp [not_recap_of_update hne hover.sets] at hrecap
  · simp [hnewer.open_] at happlied

private theorem inv_answer_applied {time : Nat} {answer : RuntimeSettings} (h : Inv { s with requests := r :: rest })
    (hstate : r.state = .applied time answer) (hrecap : r.isRecap = false)
    (horder : ∀ other ∈ rest, other.isRecap = false → ∀ later answer, other.state = .applied later answer → time ≤ later) :
    Inv { s with store := (runtimeFeatureState answer).apply s.store, requests := rest } := by
  have happlied : r.isApplied = true := by simp [RuntimeRequest.isApplied, hstate]
  refine inv_ends h (fun setting => ?_) ?_ fun other _ _ => ⟨rfl, fun hnewer => ?_⟩
  · by_cases hne : setting = .recapEnabled
    · subst hne
      exact .inr (.inl ⟨rfl, fun hbrings => by simp [isRecap_iff.mpr hbrings.sets] at hrecap⟩)
    · rw [apply_of_some (runtimeFeatureState_of_ne answer hne)]
      refine (h.answered r List.mem_cons_self time answer hstate hrecap setting hne).imp_right fun hover => .inr ?_
      have hself : ¬ r.Overtakes time setting := by
        rintro ⟨-, later, _, hlater, hlt⟩
        cases hstate.symm.trans hlater
        exact Nat.lt_irrefl _ hlt
      obtain ⟨other, hmem, hover⟩ := mem_rest_of_ne hself hover
      refine ⟨other, hmem, hover.sets, fun hother => ?_⟩
      simp [not_recap_of_update hne hover.sets] at hother
  · rintro other ho horecap earlier _ hearlier setting - ⟨-, later, _, hlater, hlt⟩
    cases hstate.symm.trans hlater
    exact Nat.not_le.mpr hlt (horder other ho horecap earlier _ hearlier)
  · simp [hnewer.open_] at happlied

private theorem inv_answer_failed (h : Inv { s with requests := r :: rest }) (hstate : r.isApplied = false)
    (halone : ∀ setting, r.update setting ≠ none → r.overlaps setting = false) :
    Inv { s with store := r.previous.apply s.store, requests := rest } := by
  refine inv_ends h (fun setting => ?_) (fun _ _ _ time _ _ setting _ => not_overtakes hstate time) ?_
  · cases hvalue : r.previous setting with
    | none =>
      exact .inr (.inl ⟨apply_of_none hvalue s.store, fun hbrings => hbrings.sets ((r.restores setting).mp hvalue)⟩)
    | some value =>
      have hset : r.update setting ≠ none := fun hnone => nomatch hvalue.symm.trans ((r.restores setting).mpr hnone)
      rw [apply_of_some hvalue]
      exact .inl (h.restored r List.mem_cons_self hstate setting (halone setting hset) value hvalue)
  · intro other ho hrecap
    -- another request of the recap switch was pending meanwhile
    have hnone : r.update .recapEnabled = none := by
      by_contra hset
      have hover := ((List.pairwise_cons.mp h.apart).1 other ho).overlaps _ hset (isRecap_iff.mp hrecap)
      simp [halone _ hset] at hover
    refine ⟨apply_of_none ((r.restores _).mpr hnone) s.store, fun hnewer => ?_⟩
    exact isRecap_iff.mp hnewer.recap hnone

private theorem inv_fails (h : Inv { s with requests := r :: rest }) (hsent : r.state = .sent) :
    Inv { s with requests := { r with state := .failed } :: rest } where
  called := List.forall_mem_cons.mpr (List.forall_mem_cons.mp h.called)
  applied := List.forall_mem_cons.mpr ⟨nofun, (List.forall_mem_cons.mp h.applied).2⟩
  apart := by
    obtain ⟨hhead, hrest⟩ := List.pairwise_cons.mp h.apart
    exact List.pairwise_cons.mpr ⟨fun other ho => ⟨(hhead other ho).called, (hhead other ho).overlaps⟩, hrest⟩
  shown setting := by
    refine (h.shown setting).imp_right fun hold => mem_cons_of_imp (fun hbrings => ?_) hold
    exact ⟨hbrings.sets, fun _ => rfl⟩
  answered := by
    refine List.forall_mem_cons.mpr ⟨nofun, fun other ho time answer hstate hrecap setting hne => ?_⟩
    refine (h.answered other (List.mem_cons_of_mem _ ho) time answer hstate hrecap setting hne).imp_right fun hover => ?_
    obtain ⟨later, hmem, hover⟩ := mem_rest_of_ne (not_overtakes (by simp [RuntimeRequest.isApplied, hsent]) time) hover
    exact ⟨later, List.mem_cons_of_mem _ hmem, hover⟩
  restored := by
    obtain ⟨hhead, hrest⟩ := List.forall_mem_cons.mp h.restored
    exact List.forall_mem_cons.mpr ⟨fun _ => hhead (by simp [RuntimeRequest.isApplied, hsent]), hrest⟩
  newest := by
    refine List.forall_mem_cons.mpr ⟨nofun, fun other ho hrecap hstate => ?_⟩
    refine (h.newest other (List.mem_cons_of_mem _ ho) hrecap hstate).imp_right (mem_cons_of_imp fun hnewer => ?_)
    exact ⟨hnewer.recap, rfl, hnewer.called⟩

private theorem inv_applies (h : Inv { s with requests := r :: rest }) (hsent : r.state = .sent)
    (horder : r.isRecap = true → ∀ other ∈ rest, other.isRecap = true → other.state = .sent → r.called ≤ other.called) :
    Inv { s with
      server := r.update.apply s.server
      clock := s.clock + 1
      requests := { r with state := .applied s.clock (r.update.apply s.server) } :: rest } where
  called := by
    obtain ⟨hhead, hrest⟩ := List.forall_mem_cons.mp h.called
    exact List.forall_mem_cons.mpr ⟨Nat.lt_succ_of_lt hhead, fun other ho => Nat.lt_succ_of_lt (hrest other ho)⟩
  applied := by
    refine List.forall_mem_cons.mpr ⟨?_, fun other ho time answer hstate => ?_⟩
    · rintro _ _ ⟨⟩
      exact Nat.lt_succ_self _
    · exact Nat.lt_succ_of_lt (h.applied other (List.mem_cons_of_mem _ ho) time answer hstate)
  apart := by
    obtain ⟨hhead, hrest⟩ := List.pairwise_cons.mp h.apart
    exact List.pairwise_cons.mpr ⟨fun other ho => ⟨(hhead other ho).called, (hhead other ho).overlaps⟩, hrest⟩
  shown setting := by
    by_cases hset : r.update setting = none
    · have hserver := apply_of_none hset s.server
      refine (h.shown setting).imp (·.trans hserver.symm) fun hold => ?_
      obtain ⟨other, hmem, hbrings⟩ := mem_rest_of_ne (fun hbrings => hbrings.sets hset) hold
      exact ⟨other, List.mem_cons_of_mem _ hmem, hbrings⟩
    by_cases hrecap : r.isRecap = true
    · obtain rfl : setting = .recapEnabled := by
        by_contra hne
        exact hset (r.own (isRecap_iff.mp hrecap) setting hne)
      rcases h.newest r List.mem_cons_self hrecap hsent with hvalue | hnewer
      · exact .inl (apply_of_some hvalue s.server).symm
      · obtain ⟨other, hmem, hnewer⟩ := mem_rest_of_ne (fun hnewer => Nat.lt_irrefl _ hnewer.called) hnewer
        exact .inr ⟨other, List.mem_cons_of_mem _ hmem, isRecap_iff.mp hnewer.recap, fun _ => hnewer.open_⟩
    · exact .inr ⟨_, List.mem_cons_self, hset, fun h => absurd h hrecap⟩
  answered := by
    refine List.forall_mem_cons.mpr ⟨?_, fun other ho time answer hstate hrecap setting hne => ?_⟩
    · rintro _ _ ⟨⟩ - setting -
      exact .inl rfl
    by_cases hset : r.update setting = none
    · have hold := h.answered other (List.mem_cons_of_mem _ ho) time answer hstate hrecap setting hne
      refine hold.imp (·.trans (apply_of_none hset s.server).symm) fun hover => ?_
      have hopen : r.isApplied = false := by simp [RuntimeRequest.isApplied, hsent]
      obtain ⟨later, hmem, hover⟩ := mem_rest_of_ne (not_overtakes hopen time) hover
      exact ⟨later, List.mem_cons_of_mem _ hmem, hover⟩
    · refine .inr ⟨_, List.mem_cons_self, hset, _, _, rfl, ?_⟩
      exact h.applied other (List.mem_cons_of_mem _ ho) time answer hstate
  restored := by
    refine List.forall_mem_cons.mpr ⟨nofun, fun other ho hopen setting halone value hvalue => ?_⟩
    have hnone : r.update setting = none := by
      by_contra hset
      have hother : other.update setting ≠ none := fun hnone => nomatch hvalue.symm.trans ((other.restores setting).mpr hnone)
      have hover := ((List.pairwise_cons.mp h.apart).1 other ho).overlaps setting hset hother
      simp [halone] at hover
    rw [h.restored other (List.mem_cons_of_mem _ ho) hopen setting halone value hvalue]
    exact (apply_of_none hnone s.server).symm
  newest := by
    refine List.forall_mem_cons.mpr ⟨nofun, fun other ho hrecap hstate => ?_⟩
    refine (h.newest other (List.mem_cons_of_mem _ ho) hrecap hstate).imp_right fun hnewer => ?_
    obtain ⟨later, hmem, hnewer⟩ := mem_rest_of_ne
      (fun hnewer => Nat.not_le.mpr hnewer.called (horder hnewer.recap other ho hrecap hstate)) hnewer
    exact ⟨later, List.mem_cons_of_mem _ hmem, hnewer⟩

private theorem inv_calls (h : s.Inv) (call : RuntimeCall) : Inv { s with
      store := (call.update s.store).apply s.store
      clock := s.clock + 1
      requests := s.requests.map (RuntimeRequest.meets (call.update s.store)) ++ [s.request call] } := by
  have hmet {p : RuntimeRequest → Prop} (hold : ∃ r ∈ s.requests, p (r.meets (call.update s.store))) :
      ∃ r ∈ s.requests.map (RuntimeRequest.meets (call.update s.store)) ++ [s.request call], p r := by
    obtain ⟨r, hmem, hp⟩ := hold
    exact ⟨_, List.mem_append_left _ (List.mem_map_of_mem hmem), hp⟩
  have hnew : s.request call ∈ s.requests.map (RuntimeRequest.meets (call.update s.store)) ++ [s.request call] :=
    List.mem_append_right _ (List.mem_singleton_self _)
  have hall {p : RuntimeRequest → Prop} (hold : ∀ r ∈ s.requests, p (r.meets (call.update s.store)))
      (hone : p (s.request call)) :
      ∀ r ∈ s.requests.map (RuntimeRequest.meets (call.update s.store)) ++ [s.request call], p r :=
    List.forall_mem_append.mpr ⟨List.forall_mem_map.mpr hold, List.forall_mem_singleton.mpr hone⟩
  constructor
  · exact hall (fun r hr => Nat.lt_succ_of_lt (h.called r hr)) (Nat.lt_succ_self _)
  · exact hall (fun r hr time answer hstate => Nat.lt_succ_of_lt (h.applied r hr time answer hstate)) nofun
  · refine List.pairwise_append.mpr ⟨?_, List.pairwise_singleton _ _, ?_⟩
    · refine List.pairwise_map.mpr (h.apart.imp fun hapart => ⟨hapart.called, fun setting hr hother => ?_⟩)
      obtain ⟨hleft, hright⟩ := hapart.overlaps setting hr hother
      simp [RuntimeRequest.meets, hleft, hright]
    · refine List.forall_mem_map.mpr fun r hr => List.forall_mem_singleton.mpr ⟨Nat.ne_of_lt (h.called r hr), ?_⟩
      intro setting hold hone
      refine ⟨Bool.or_eq_true_iff.mpr (.inr (Option.isSome_iff_ne_none.mpr hone)), ?_⟩
      exact List.any_eq_true.mpr ⟨r, hr, Option.isSome_iff_ne_none.mpr hold⟩
  · intro setting
    by_cases hset : call.update s.store setting = none
    · refine (h.shown setting).imp (apply_of_none hset s.store).trans fun hold => hmet ?_
      exact hold.imp fun r hr => ⟨hr.1, hr.2.sets, hr.2.reads⟩
    · exact .inr ⟨_, hnew, hset, fun _ => rfl⟩
  · refine hall (fun r hr time answer hstate hrecap setting hne => ?_) nofun
    refine (h.answered r hr time answer hstate hrecap setting hne).imp_right fun hover => hmet ?_
    exact hover.imp fun other ho => ⟨ho.1, ho.2.sets, ho.2.later⟩
  · refine hall (fun r hr hopen setting halone => ?_) fun _ setting halone value hvalue => ?_
    · exact h.restored r hr hopen setting (Bool.or_eq_false_iff.mp halone).1
    · obtain ⟨-, -, rfl⟩ := Option.map_eq_some_iff.mp hvalue
      refine (h.shown setting).resolve_right ?_
      rintro ⟨r, hr, hbrings⟩
      exact List.any_eq_false.mp halone r hr (Option.isSome_iff_ne_none.mpr hbrings.sets)
  · refine hall (fun r hr hrecap hstate => ?_) fun hrecap _ => ?_
    · by_cases hset : call.update s.store .recapEnabled = none
      · have hstore := congrArg some (apply_of_none hset s.store)
        refine (h.newest r hr hrecap hstate).imp (·.trans hstore.symm) fun hnewer => hmet ?_
        exact hnewer.imp fun other ho => ⟨ho.1, ho.2.recap, ho.2.open_, ho.2.called⟩
      · exact .inr ⟨_, hnew, isRecap_iff.mpr hset, rfl, h.called r hr⟩
    · obtain ⟨value, hvalue⟩ := Option.isSome_iff_exists.mp hrecap
      exact .inl (hvalue.trans (congrArg some (apply_of_some hvalue s.store).symm))

theorem perm_cons_eraseIdx {i : Nat} (hr : s.requests[i]? = some r) : s.requests.Perm (r :: s.requests.eraseIdx i) := by
  obtain ⟨hi, rfl⟩ := List.getElem?_eq_some_iff.mp hr
  exact (List.getElem_cons_eraseIdx_perm hi).symm

private theorem perm_set {i : Nat} (hr : s.requests[i]? = some r) (r' : RuntimeRequest) :
    (r' :: s.requests.eraseIdx i).Perm (s.requests.set i r') :=
  (List.set_perm_cons_eraseIdx (List.getElem?_eq_some_iff.mp hr).1 r').symm

theorem inv_step {event : RuntimeEvent} (h : s.Inv) (horder : s.Orderly event) (hstep : s.step event = some s') :
    s'.Inv := by
  cases event with
  | calls call =>
    cases hstep
    exact inv_calls h call
  | applies i =>
    obtain ⟨r, hr, hstep⟩ := Option.bind_eq_some_iff.mp hstep
    cases hstate : r.state <;> simp only [hstate, reduceCtorEq] at hstep
    cases hstep
    refine (inv_applies (h.perm (perm_cons_eraseIdx hr)) hstate fun hrecap other ho => ?_).perm (perm_set hr _)
    exact horder r hr hrecap other (List.mem_of_mem_eraseIdx ho)
  | fails i =>
    obtain ⟨r, hr, hstep⟩ := Option.bind_eq_some_iff.mp hstep
    cases hstate : r.state <;> simp only [hstate, reduceCtorEq] at hstep
    cases hstep
    exact (inv_fails (h.perm (perm_cons_eraseIdx hr)) hstate).perm (perm_set hr _)
  | answers i =>
    obtain ⟨r, hr, hstep⟩ := Option.bind_eq_some_iff.mp hstep
    have hcons := h.perm (perm_cons_eraseIdx hr)
    have horder := horder r hr
    cases hstate : r.state with
    | sent => simp [hstate] at hstep
    | applied time answer =>
      simp only [hstate] at hstep horder
      cases hstep
      cases hrecap : r.isRecap with
      | true => exact inv_answer_recap hcons (by simp [RuntimeRequest.isApplied, hstate]) hrecap
      | false =>
        refine inv_answer_applied hcons hstate hrecap fun other ho => ?_
        exact horder.resolve_left (by simp [hrecap]) other (List.mem_of_mem_eraseIdx ho)
    | failed =>
      simp only [hstate] at hstep horder
      cases hstep
      exact inv_answer_failed hcons (by simp [RuntimeRequest.isApplied, hstate]) horder

end Steps

/-- When the orders are kept, the page shows what the server has once no request is left. -/
theorem settled_of_orderly {initial : RuntimeSettings} {events : List RuntimeEvent} {s : SettingsPage}
    (hm : RunMeets step Orderly { store := initial, server := initial } events)
    (hr : run step { store := initial, server := initial } events = some s) (hnone : s.requests = []) :
    s.store = s.server := by
  have hstart : Inv { store := initial, server := initial } :=
    ⟨nofun, nofun, .nil, fun _ => .inl rfl, nofun, nofun, nofun⟩
  have hinv : s.Inv := run_invariant (fun _ _ _ h horder hstep => inv_step h horder hstep) hstart hm hr
  funext setting
  refine (hinv.shown setting).resolve_right ?_
  rw [hnone]
  exact fun ⟨_, hmem, _⟩ => nomatch hmem

def switchesOff : RuntimeSettings
  | .env => []
  | .extraEnvEnabled | .promptSuggestionEnabled | .agentTeamsEnabled | .crossSessionInteractionEnabled
  | .recapEnabled => false

/-- Two switches are set, and the server gets the requests in this order. -/
def twoSwitches : List RuntimeEvent :=
  [.calls (.setAgentTeamsEnabled true), .calls (.setPromptSuggestionEnabled true), .applies 0, .applies 1]

theorem settled_twoSwitches : ∃ s,
    run step { store := switchesOff, server := switchesOff } (twoSwitches ++ [.answers 0, .answers 0]) = some s ∧
      s.store = s.server := by
  have hm : RunMeets step Orderly { store := switchesOff, server := switchesOff }
      (twoSwitches ++ [.answers 0, .answers 0]) := by
    refine ⟨trivial, trivial, ?_, ?_, ?_, ?_, trivial⟩
    · rintro _ ⟨⟩ hrecap
      cases hrecap
    · rintro _ ⟨⟩ hrecap
      cases hrecap
    · rintro _ ⟨⟩
      refine .inr (List.forall_mem_cons.mpr ⟨?_, List.forall_mem_singleton.mpr ?_⟩) <;> rintro - _ _ ⟨⟩ <;> decide
    · rintro _ ⟨⟩
      refine .inr (List.forall_mem_singleton.mpr ?_)
      rintro - _ _ ⟨⟩
      exact Nat.le_refl _
  exact ⟨_, rfl, settled_of_orderly hm rfl rfl⟩

/-- The first answer comes last, and with it the second switch as it was before. -/
theorem crossed_not_settled : ∃ s,
    run step { store := switchesOff, server := switchesOff } (twoSwitches ++ [.answers 1, .answers 0]) = some s ∧
      s.requests = [] ∧ s.store ≠ s.server := by
  refine ⟨_, rfl, rfl, fun heq => ?_⟩
  exact Bool.false_ne_true (congrFun heq .promptSuggestionEnabled)

end SettingsPage

end PrivaCloud.Web
