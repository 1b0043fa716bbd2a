import PrivaCloud.AgentRunner.ProfileStore
import PrivaCloud.Framework.Run

/-!
# Concurrent profile requests

The requests to the profile store, cut at the reads and writes of `llm-profiles.json`, from any
number of tasks and processes. Only `update_model_capability` holds the file lock from its read to
its write, so that it is one section.
-/

namespace PrivaCloud.AgentRunner

open Framework AskUser

inductive ProfileStage
  /-- `store.get` of a route -/
  | get (r : ProfileRequest)
  /-- a method of the store, with what the route has read before -/
  | operate (r : ProfileRequest) (op : StoreOp) (first : Option ProfileList)
  /-- `ensure_migrated` of `update_model_capability` -/
  | ensure (r : ProfileRequest)

inductive ProfileCall
  | new
  | reading (stage : ProfileStage)
  /-- there was no file, and the older settings are about to be written -/
  | migrating (stage : ProfileStage)
  /-- `save`, with what the method has read -/
  | writing (r : ProfileRequest) (seen next : ProfileList)
  | locking (r : ProfileRequest)
  | returned (ok : Bool)

/-- The file, the calls, and the changes in the order in which they were written. -/
structure ProfileSystem where
  file : ProfileFile
  calls : Nat → ProfileCall := fun _ => .new
  done : List ProfileChange := []

inductive ProfileEvent
  | start (c : Nat) (r : ProfileRequest)
  | read (c : Nat)
  | migrate (c : Nat) (legacy : Option LlmProfile)
  | write (c : Nat)
  | locked (c : Nat)

namespace ProfileSystem

def init (file : ProfileFile) : ProfileSystem := { file := file }

/-- The profiles of the older settings, as `ensure_migrated` stores them. -/
def migrated (legacy : Option LlmProfile) : ProfileList :=
  { profiles := legacy.toList, defaultId := legacy.map (·.id) }

def setCall (s : ProfileSystem) (c : Nat) (call : ProfileCall) : ProfileSystem :=
  { s with calls := Function.update s.calls c call }

def store (s : ProfileSystem) (file : ProfileFile) (change : ProfileChange) : ProfileSystem :=
  { s with file := file, done := s.done ++ [change] }

end ProfileSystem

def ProfileRequest.stage (r : ProfileRequest) : ProfileStage :=
  match r with
  | .list => .operate r .read none
  | .create profile => .operate r (.upsert profile none) none
  | .update .. => .get r
  | .delete id => .operate r (.delete id) none
  | .setDefault _ => .get r
  | .capability .. => .ensure r

def ProfileRequest.accepted : ProfileRequest → Bool
  | .capability _ modelId _ => strip pySpace modelId ≠ [] && (strip pySpace modelId).length ≤ 512
  | _ => true

/-- `set_default_profile` asks for a profile that can run. -/
def LlmProfile.ready (p : LlmProfile) : Bool :=
  p.baseUrl ≠ [] && p.authToken ≠ [] && (present p.defaultModel).isSome

section Step

variable (validateEndpoint : Text → Option Text)

def proceed (v : ProfileList) : ProfileStage → ProfileCall
  | .get r =>
    match r with
    | .update id fields =>
      match (v.find id).bind (fields.patch validateEndpoint) with
      | none => .returned false
      | some profile => .reading (.operate r (.upsert profile (some id)) (some v))
    | .setDefault id =>
      if (v.find id).any LlmProfile.ready then
        .reading (.operate r (.setDefault id) (some v))
      else .returned false
    | _ => .returned false
  | .operate _ .read _ => .returned true
  | .operate r op _ =>
    match op.run v with
    | .error _ => .returned false
    | .ok next => .writing r v next
  | .ensure r => .locking r

namespace ProfileSystem

def step (s : ProfileSystem) : ProfileEvent → Option ProfileSystem
  | .start c r =>
    match s.calls c with
    | .new => some (s.setCall c (if r.accepted then .reading r.stage else .returned false))
    | _ => none
  | .read c =>
    match s.calls c with
    | .reading stage =>
      if s.file = .missing then some (s.setCall c (.migrating stage))
      else some (s.setCall c (proceed validateEndpoint s.file.load stage))
    | _ => none
  | .migrate c legacy =>
    match s.calls c with
    | .migrating stage =>
      let file := ProfileFile.written (migrated legacy)
      some ((s.store file (.migration legacy)).setCall c
        (proceed validateEndpoint file.load stage))
    | _ => none
  | .write c =>
    match s.calls c with
    | .writing r _ next => some ((s.store (.written next) (.request r)).setCall c (.returned true))
    | _ => none
  | .locked c =>
    match s.calls c with
    | .locking (.capability id modelId u) =>
      match updateModelCapability s.file id (strip pySpace modelId) u with
      | none => some (s.setCall c (.returned false))
      | some next =>
        some ((s.store (.written next)
          (.request (.capability id (strip pySpace modelId) u))).setCall c (.returned true))
    | _ => none

end ProfileSystem

end Step

/-- A method of the store finds what its route has read. -/
def ProfileStage.Agrees (v : ProfileList) : ProfileStage → Prop
  | .operate _ _ (some first) => v = first
  | _ => True

instance (v : ProfileList) : (stage : ProfileStage) → Decidable (stage.Agrees v)
  | .operate _ _ (some first) => inferInstanceAs (Decidable (v = first))
  | .operate _ _ none | .get _ | .ensure _ => .isTrue trivial

/-- The profiles are read back as they are written. -/
def ProfileList.Stable (v : ProfileList) : Prop := ∀ p ∈ v.profiles, p.validated = some p

instance (v : ProfileList) : Decidable v.Stable := inferInstanceAs (Decidable (∀ _ ∈ _, _))

namespace ProfileSystem

/-- A write meets the store as its call has read it, without entries of another version, and writes
profiles that the loader leaves alone. -/
def Careful (s : ProfileSystem) (e : ProfileEvent) : Prop :=
  (match e with
  | .start .. => true
  | .read c =>
    match s.calls c with
    | .reading stage => decide (stage.Agrees s.file.load)
    | _ => true
  | .migrate c legacy =>
    match s.calls c with
    | .migrating stage => decide
        (s.file = .missing ∧ (migrated legacy).Stable ∧ stage.Agrees (migrated legacy))
    | _ => true
  | .write c =>
    match s.calls c with
    | .writing _ seen next => decide (s.file.load = seen ∧ s.file.Valid ∧ next.Stable)
    | _ => true
  | .locked c =>
    match s.calls c with
    | .locking (.capability id _ _) => decide
        (id ∈ s.file.load.ids → s.file.Valid ∧ s.file.load.Stable)
    | _ => true : Bool) = true

instance (s : ProfileSystem) (e : ProfileEvent) : Decidable (s.Careful e) :=
  inferInstanceAs (Decidable (_ = true))

end ProfileSystem

section Invariant

variable (validateEndpoint : Text → Option Text)

/-- The method is the one that the request asks for. -/
def ProfileStage.Intends : ProfileStage → Prop
  | .operate r op first =>
    match r with
    | .list => op = .read
    | .create profile => op = .upsert profile none
    | .update id fields => ∃ v current profile, first = some v ∧ v.find id = some current ∧
        fields.patch validateEndpoint current = some profile ∧ op = .upsert profile (some id)
    | .delete id => op = .delete id
    | .setDefault id => op = .setDefault id
    | .capability .. => False
  | _ => True

/-- What a call is about to write is the effect of its request on what it has read. -/
def ProfileCall.Proper : ProfileCall → Prop
  | .reading stage | .migrating stage => stage.Intends validateEndpoint
  | .writing r seen next =>
    next = (ProfileChange.request r).effect validateEndpoint seen ∧ next.Sound
  | _ => True

theorem proper_stage (r : ProfileRequest) : r.stage.Intends validateEndpoint := by
  cases r <;> first | rfl | trivial

theorem proper_run {v next : ProfileList} (hv : v.Sound) {r : ProfileRequest} {op : StoreOp}
    {first : Option ProfileList}
    (hi : (ProfileStage.operate r op first).Intends validateEndpoint)
    (ha : (ProfileStage.operate r op first).Agrees v) (hok : op.run v = .ok next) :
    (ProfileCall.writing r v next).Proper validateEndpoint := by
  cases r with
  | list =>
    cases hi
    cases hok
    exact ⟨rfl, hv⟩
  | create profile =>
    cases hi
    exact run_create hv hok
  | update id fields =>
    obtain ⟨v', current, profile, rfl, hfind, hpatch, rfl⟩ := hi
    obtain rfl : v = v' := ha
    exact run_update hv (fun _ _ => patch_id) hfind hpatch hok
  | delete id =>
    cases hi
    exact run_delete hv hok
  | setDefault id =>
    cases hi
    exact run_setDefault hv hok
  | capability id modelId u => exact hi.elim

theorem proper_proceed {v : ProfileList} (hv : v.Sound) {stage : ProfileStage}
    (hi : stage.Intends validateEndpoint) (ha : stage.Agrees v) :
    (proceed validateEndpoint v stage).Proper validateEndpoint := by
  cases stage with
  | get r =>
    simp only [proceed]
    split
    · rename_i id fields
      split
      · trivial
      · rename_i profile hprofile
        obtain ⟨current, hfind, hpatch⟩ := Option.bind_eq_some_iff.mp hprofile
        exact ⟨v, current, profile, rfl, hfind, hpatch, rfl⟩
    · split
      · rfl
      · trivial
    · trivial
  | operate r op first =>
    unfold proceed
    split
    · rename_i heq
      cases heq
    · trivial
    · rename_i heq
      cases heq
      split
      · trivial
      · rename_i next hok
        exact proper_run validateEndpoint hv hi ha hok
    · trivial
  | ensure r => trivial

end Invariant

namespace ProfileSystem

variable (validateEndpoint : Text → Option Text)

structure ProfileInv (file₀ : ProfileFile) (s : ProfileSystem) : Prop where
  sound : s.file.load.Sound
  calls : ∀ c, (s.calls c).Proper validateEndpoint
  unvalidated : ∀ raw ∈ file₀.entries, raw.validated = none → raw ∈ s.file.entries
  effects : s.file.load = s.done.foldl (fun v change => change.effect validateEndpoint v) file₀.load

variable {validateEndpoint} {file₀ : ProfileFile} {s : ProfileSystem}

theorem ProfileInv.setCall (h : s.ProfileInv validateEndpoint file₀) {c : Nat} {call : ProfileCall}
    (hcall : call.Proper validateEndpoint) : (s.setCall c call).ProfileInv validateEndpoint file₀ where
  sound := h.sound
  unvalidated := h.unvalidated
  effects := h.effects
  calls c' := by
    change (Function.update s.calls c call c').Proper validateEndpoint
    by_cases hc : c' = c
    · rw [hc, Function.update_self]
      exact hcall
    · rw [Function.update_of_ne hc]
      exact h.calls c'

theorem ProfileInv.store (h : s.ProfileInv validateEndpoint file₀) {next : ProfileList}
    {change : ProfileChange} (hnext : next = change.effect validateEndpoint s.file.load)
    (hsound : next.Sound) (hstable : next.Stable) (hvalid : s.file.Valid) :
    (s.store (.written next) change).ProfileInv validateEndpoint file₀ where
  sound := by
    change (ProfileFile.written next).load.Sound
    rw [load_written hsound hstable]
    exact hsound
  calls := h.calls
  unvalidated raw hraw hnone := absurd hnone (hvalid raw (h.unvalidated raw hraw hnone))
  effects := by
    change (ProfileFile.written next).load = (s.done ++ [change]).foldl _ _
    rw [load_written hsound hstable, List.foldl_append, ← h.effects]
    exact hnext

theorem sound_migrated (legacy : Option LlmProfile) : (migrated legacy).Sound := by
  cases legacy with
  | none =>
    refine ⟨List.nodup_nil, ?_, fun h => absurd rfl h⟩
    intro id hid
    cases hid
  | some p =>
    refine ⟨List.nodup_singleton _, ?_, fun _ h => by cases h⟩
    intro id hid
    cases hid
    exact List.mem_singleton.mpr rfl

theorem ProfileInv.step (h : s.ProfileInv validateEndpoint file₀) {e : ProfileEvent}
    {s' : ProfileSystem} (hc : s.Careful e) (hs : s.step validateEndpoint e = some s') :
    s'.ProfileInv validateEndpoint file₀ := by
  cases e with
  | start c r =>
    simp only [ProfileSystem.step] at hs
    split at hs <;> cases hs
    apply h.setCall
    split
    · exact proper_stage validateEndpoint r
    · trivial
  | read c =>
    simp only [ProfileSystem.step] at hs
    split at hs
    · rename_i stage hstage
      have hproper := h.calls c
      rw [hstage] at hproper
      simp only [Careful, hstage] at hc
      split at hs <;> cases hs
      · exact h.setCall hproper
      · exact h.setCall (proper_proceed validateEndpoint h.sound hproper (of_decide_eq_true hc))
    · cases hs
  | migrate c legacy =>
    simp only [ProfileSystem.step] at hs
    split at hs <;> cases hs
    rename_i stage hstage
    have hproper := h.calls c
    rw [hstage] at hproper
    simp only [Careful, hstage] at hc
    obtain ⟨hmissing, hstable, hagrees⟩ := of_decide_eq_true hc
    have hsound := sound_migrated legacy
    have hload := load_written hsound hstable
    apply ProfileInv.setCall
    · refine h.store ?_ hsound hstable ?_
      · rw [hmissing]
        rfl
      · rw [hmissing]
        intro raw hraw
        cases hraw
    · rw [hload]
      exact proper_proceed validateEndpoint hsound hproper hagrees
  | write c =>
    simp only [ProfileSystem.step] at hs
    split at hs <;> cases hs
    rename_i r seen next hwriting
    have hproper := h.calls c
    rw [hwriting] at hproper
    simp only [Careful, hwriting] at hc
    obtain ⟨rfl, hvalid, hstable⟩ := of_decide_eq_true hc
    apply ProfileInv.setCall
    · exact h.store hproper.1 hproper.2 hstable hvalid
    · trivial
  | locked c =>
    simp only [ProfileSystem.step] at hs
    split at hs
    · rename_i id modelId u hlocking
      simp only [Careful, hlocking] at hc
      split at hs <;> cases hs
      · exact h.setCall trivial
      · rename_i next hok
        have hnext := updateModelCapability_eq hok
        have hmem : id ∈ s.file.load.ids := by
          rw [← any_id_iff]
          by_contra hno
          simp only [updateModelCapability, if_neg hno] at hok
          cases hok
        obtain ⟨hvalid, hstable⟩ := of_decide_eq_true hc hmem
        apply ProfileInv.setCall
        · refine h.store hnext ?_ ?_ hvalid
          · rw [hnext]
            exact h.sound.modify fun _ => rfl
          · rw [hnext]
            intro p hp
            obtain ⟨q, hq, rfl⟩ := List.mem_map.mp hp
            split
            · exact validated_withCapability (hstable q hq) _ u
            · exact hstable q hq
        · trivial
    · cases hs

def sampleProfile (id : String) : LlmProfile :=
  { id := id.toList, label := id.toList, baseUrl := "https://llm".toList, authToken := "k".toList,
    defaultModel := some "m".toList }

/-- A profile is created, patched and made the default while a probe reports on another one. -/
def orderlyRequests : List ProfileEvent :=
  [.start 0 (.create (sampleProfile "b")), .start 1 (.capability "a".toList "m".toList ⟨some true, none⟩),
    .read 1, .locked 1, .read 0, .write 0,
    .start 2 (.update "b".toList { label := some "B".toList }), .read 2, .read 2, .write 2,
    .start 3 (.setDefault "b".toList), .read 3, .read 3, .write 3]

end ProfileSystem

end PrivaCloud.AgentRunner
