import PrivaCloud.Framework.Processes
import PrivaCloud.Operator.ManagedPolicy

/-!
# Handlers that keep the managed policy

`ensure_managed_policy_configmap` in several handlers at once, beside the edits of the administrators. The API
server counts its writes and rejects a replacement of a version that is not the current one.
-/

namespace PrivaCloud.Operator

open Framework ManagedPolicyRender

structure PolicyConfigMap where
  data : ConfigData
  /-- the annotation `priva.io/policy-digest` -/
  digest : Option String
  resourceVersion : Nat
  /-- which of the policy sets the data was rendered from -/
  source : Nat

/-- The policy sets of all times, the current one last, and the ConfigMap. -/
structure PolicyCluster where
  wrapperSource : List Char := []
  history : List (List HookPolicy)
  configMap : Option PolicyConfigMap := none
  /-- the versions that the API server has given so far -/
  revision : Nat := 0

namespace PolicyCluster

def enforced (policies : List HookPolicy) : List HookPolicy :=
  policies.filter fun p => p.enabled && p.enforced && p.hookType = "command"

def rendering (s : PolicyCluster) (source : Nat) : ConfigData :=
  renderConfigMapData s.wrapperSource (enforced (s.history.getD source []))

def put (s : PolicyCluster) (data : ConfigData) (digest : String) (source : Nat) : PolicyCluster :=
  { s with
    configMap := some
      { data := data, digest := some digest, resourceVersion := s.revision + 1, source := source }
    revision := s.revision + 1 }

end PolicyCluster

/-- Where a handler is: before its next remote call. -/
inductive PolicyCall
  | listing (strict : Bool)
  | looking (data : ConfigData) (source : Nat)
  | creating (data : ConfigData) (digest : String) (source : Nat)
  | replacing (data : ConfigData) (digest : String) (source resourceVersion : Nat)
  | ended (result : Option Bool)

/-- Whether a remote call is answered. -/
inductive Answer
  | ok
  | failed

namespace PolicyCall

def act (s : PolicyCluster) (call : PolicyCall) (answer : Answer) : Option (PolicyCluster × PolicyCall) :=
  match call, answer with
  | .listing strict, .failed => some (s, .ended (if strict then none else some false))
  | .listing _, .ok =>
    let source := s.history.length - 1
    some (s, .looking (s.rendering source) source)
  | .looking data source, .ok =>
    let digest := contentDigest data
    match s.configMap with
    | none => some (s, .creating data digest source)
    | some existing =>
      if existing.digest = some digest then some (s, .ended (some false))
      else
        some (s, .replacing (mergeGenerations data existing.data) digest source
          existing.resourceVersion)
  | .creating data digest source, .ok =>
    match s.configMap with
    | none => some (s.put data digest source, .ended (some true))
    | some _ => some (s, .ended (some true))
  | .replacing data digest source resourceVersion, .ok =>
    match s.configMap with
    | none => some (s, .ended none)
    | some existing =>
      if existing.resourceVersion = resourceVersion then
        some (s.put data digest source, .ended (some true))
      else some (s, .ended (some false))
  | .looking .., .failed | .creating .., .failed | .replacing .., .failed => some (s, .ended none)
  | .ended _, _ => none

end PolicyCall

/-- A request is the flag `strict`; an administrator puts a new policy set. -/
def policyProgram : Program PolicyCluster PolicyCall Bool Answer (List HookPolicy) where
  enter := .listing
  act := PolicyCall.act
  outside := fun s policies => some { s with history := s.history ++ [policies] }

variable {call : PolicyCall}

namespace PolicyCluster

/-- The ConfigMap holds the rendering of the policy set that it names. -/
structure Installed (s : PolicyCluster) (cm : PolicyConfigMap) : Prop where
  known : cm.source < s.history.length
  digest : cm.digest = some (contentDigest (s.rendering cm.source))
  settings : getValue cm.data settingsKey = some (settingsText (enforced (s.history.getD cm.source [])))

structure Sound (s : PolicyCluster) : Prop where
  nonempty : s.history ≠ []
  installed : ∀ cm ∈ s.configMap, s.Installed cm
  numbered : ∀ cm ∈ s.configMap, cm.resourceVersion ≤ s.revision

/-- What a handler is about to write is the rendering of a policy set. -/
structure Prepared (s : PolicyCluster) (data : ConfigData) (digest : String) (source : Nat) : Prop where
  known : source < s.history.length
  digest : digest = contentDigest (s.rendering source)
  settings : getValue data settingsKey = some (settingsText (enforced (s.history.getD source [])))

/-- A version that a handler has read is of this ConfigMap only while nothing has been written. -/
def Guarded (s : PolicyCluster) (source resourceVersion : Nat) : Prop :=
  resourceVersion ≤ s.revision ∧ ∀ cm ∈ s.configMap, cm.resourceVersion = resourceVersion → cm.source ≤ source

def Knows (s : PolicyCluster) : PolicyCall → Prop
  | .looking data source => source < s.history.length ∧ data = s.rendering source
  | .creating data digest source => s.Prepared data digest source
  | .replacing data digest source resourceVersion =>
    s.Prepared data digest source ∧ s.Guarded source resourceVersion
  | .listing _ | .ended _ => True

variable {s : PolicyCluster}

variable {source : Nat}

theorem Prepared.of_rendering (h : source < s.history.length) :
    s.Prepared (s.rendering source) (contentDigest (s.rendering source)) source :=
  ⟨h, rfl, getValue_settings _ _⟩

theorem Sound.put (h : s.Sound) {data : ConfigData} {digest : String}
    (hp : s.Prepared data digest source) : (s.put data digest source).Sound := by
  refine ⟨h.nonempty, ?_, ?_⟩
  · rintro cm ⟨⟩
    exact ⟨hp.known, congrArg some hp.digest, hp.settings⟩
  · rintro cm ⟨⟩
    exact Nat.le_refl _

theorem Knows.put (data : ConfigData) (digest : String) (source : Nat)
    (h : s.Knows call) : (s.put data digest source).Knows call := by
  cases call with
  | listing strict => trivial
  | looking data' source' => exact h
  | creating data' digest' source' => exact ⟨h.known, h.digest, h.settings⟩
  | ended result => trivial
  | replacing data' digest' source' resourceVersion =>
    obtain ⟨hp, hread, -⟩ := h
    refine ⟨⟨hp.known, hp.digest, hp.settings⟩, Nat.le_succ_of_le hread, ?_⟩
    rintro cm ⟨⟩ hsame
    have hnew : s.revision + 1 = resourceVersion := hsame
    omega

def edit (s : PolicyCluster) (policies : List HookPolicy) : PolicyCluster :=
  { s with history := s.history ++ [policies] }

theorem history_edit (policies : List HookPolicy) (h : source < s.history.length) :
    (s.edit policies).history.getD source [] = s.history.getD source [] := by
  simp only [edit, List.getD_eq_getElem?_getD, List.getElem?_append_left h]

theorem known_edit (policies : List HookPolicy) (h : source < s.history.length) :
    source < (s.edit policies).history.length := by
  simp only [edit, List.length_append, List.length_singleton]
  omega

theorem rendering_edit (policies : List HookPolicy) (h : source < s.history.length) :
    (s.edit policies).rendering source = s.rendering source := by
  unfold rendering
  rw [history_edit policies h]
  rfl

theorem Sound.edit (h : s.Sound) (policies : List HookPolicy) : (s.edit policies).Sound := by
  refine ⟨by simp [PolicyCluster.edit], ?_, h.numbered⟩
  intro cm hcm
  obtain ⟨hknown, hdigest, hsettings⟩ := h.installed cm hcm
  refine ⟨known_edit policies hknown, ?_, ?_⟩
  · rw [rendering_edit policies hknown]
    exact hdigest
  · rw [history_edit policies hknown]
    exact hsettings

theorem Prepared.edit {data : ConfigData} {digest : String}
    (h : s.Prepared data digest source) (policies : List HookPolicy) :
    (s.edit policies).Prepared data digest source := by
  refine ⟨known_edit policies h.known, ?_, ?_⟩
  · rw [rendering_edit policies h.known]
    exact h.digest
  · rw [history_edit policies h.known]
    exact h.settings

theorem Knows.edit (h : s.Knows call) (policies : List HookPolicy) :
    (s.edit policies).Knows call := by
  cases call with
  | listing strict => trivial
  | looking data source =>
    refine ⟨known_edit policies h.1, ?_⟩
    rw [rendering_edit policies h.1]
    exact h.2
  | creating data digest source => exact Prepared.edit h policies
  | replacing data digest source resourceVersion => exact ⟨h.1.edit policies, h.2⟩
  | ended result => trivial

end PolicyCluster

abbrev PolicySystem : Type := Processes PolicyCluster PolicyCall
abbrev PolicyEvent : Type := ProcessEvent Bool Answer (List HookPolicy)

/-- A handler that is about to read a ConfigMap which it will replace has read policies that are not
older than those that the ConfigMap was rendered from. -/
def NotOlder (s : PolicyCluster) : PolicyCall → Prop
  | .looking data source => ∀ cm ∈ s.configMap,
      cm.source ≤ source ∨ cm.digest = some (contentDigest data)
  | _ => True

def UpToDate (s : PolicySystem) : PolicyEvent → Prop
  | .advance i _ => ∀ call ∈ s.procs[i]?, NotOlder s.shared call
  | .spawn _ | .outside _ => True

/-- A section that changes the ConfigMap replaces the rendering of a policy set by that of one which
is not older. -/
def Forward (s : PolicySystem) (event : PolicyEvent) : Prop :=
  ∀ s', policyProgram.step s event = some s' → ∀ cm' ∈ s'.shared.configMap, s'.shared.Installed cm' ∧
    ∀ cm ∈ s.shared.configMap, s.shared.Installed cm ∧ cm.source ≤ cm'.source

open PolicyCluster

theorem act_sound {s : PolicySystem} {i : Nat} {answer : Answer}
    {next : PolicyCluster × PolicyCall} (hi : Program.Holds Sound Knows s)
    (hc : UpToDate s (.advance i answer)) (hcall : s.procs[i]? = some call)
    (hact : PolicyCall.act s.shared call answer = some next) :
    next.1.Sound ∧ next.1.Knows next.2 ∧ (∀ q, s.shared.Knows q → next.1.Knows q) ∧
      ∀ cm' ∈ next.1.configMap, ∀ cm ∈ s.shared.configMap, cm.source ≤ cm'.source := by
  obtain ⟨hsound, hknows⟩ := hi
  have hown := hknows call (List.mem_of_getElem? hcall)
  -- a section that leaves the cluster alone
  have hstay (call' : PolicyCall) (h : s.shared.Knows call') :
      s.shared.Sound ∧ s.shared.Knows call' ∧ (∀ q, s.shared.Knows q → s.shared.Knows q) ∧
        ∀ cm' ∈ s.shared.configMap, ∀ cm ∈ s.shared.configMap, cm.source ≤ cm'.source := by
    refine ⟨hsound, h, fun _ hq => hq, ?_⟩
    intro cm' hcm' cm hcm
    rw [Option.mem_unique hcm hcm']
  cases call with
  | listing strict =>
    have hlast : s.shared.history.length - 1 < s.shared.history.length := by
      have := List.length_pos_iff.mpr hsound.nonempty
      omega
    cases answer with
    | failed => cases hact; exact hstay _ trivial
    | ok => cases hact; exact hstay _ ⟨hlast, rfl⟩
  | looking data source =>
    obtain ⟨hsource, rfl⟩ := hown
    cases answer with
    | failed => cases hact; exact hstay _ trivial
    | ok =>
      simp only [PolicyCall.act] at hact
      have hnewer : NotOlder s.shared (.looking (s.shared.rendering source) source) := hc _ hcall
      cases hcm : s.shared.configMap with
      | none =>
        rw [hcm] at hact
        cases hact
        rw [← hcm]
        exact hstay _ (Prepared.of_rendering hsource)
      | some existing =>
        rw [hcm] at hact
        simp only at hact
        split at hact
        · cases hact
          rw [← hcm]
          exact hstay _ trivial
        · rename_i hdiffers
          cases hact
          rw [← hcm]
          have hprepared := Prepared.of_rendering hsource
          refine hstay _ ⟨⟨hsource, rfl, ?_⟩, hsound.numbered existing hcm, ?_⟩
          · exact getValue_mergeGenerations _ _ hprepared.settings
          · intro cm hcm' _
            rw [Option.mem_unique hcm' hcm]
            exact (hnewer existing hcm).resolve_right hdiffers
  | creating data digest source =>
    cases answer with
    | failed => cases hact; exact hstay _ trivial
    | ok =>
      simp only [PolicyCall.act] at hact
      cases hcm : s.shared.configMap with
      | none =>
        rw [hcm] at hact
        cases hact
        refine ⟨hsound.put hown, trivial, fun q hq => hq.put _ _ _, ?_⟩
        intro _ _ cm h
        cases h
      | some existing =>
        rw [hcm] at hact
        cases hact
        rw [← hcm]
        exact hstay _ trivial
  | replacing data digest source resourceVersion =>
    obtain ⟨hprepared, -, hguard⟩ := hown
    cases answer with
    | failed => cases hact; exact hstay _ trivial
    | ok =>
      simp only [PolicyCall.act] at hact
      cases hcm : s.shared.configMap with
      | none =>
        rw [hcm] at hact
        cases hact
        rw [← hcm]
        exact hstay _ trivial
      | some existing =>
        rw [hcm] at hact
        simp only at hact
        split at hact
        · rename_i hsame
          cases hact
          refine ⟨hsound.put hprepared, trivial, fun q hq => hq.put _ _ _, ?_⟩
          rintro cm' ⟨⟩ cm ⟨⟩
          exact hguard existing hcm hsame
        · cases hact
          rw [← hcm]
          exact hstay _ trivial
  | ended result => cases answer <;> cases hact

theorem policyProgram_step {s s' : PolicySystem} {event : PolicyEvent} (hi : Program.Holds Sound Knows s)
    (hc : UpToDate s event) (hs : policyProgram.step s event = some s') :
    Program.Holds Sound Knows s' := by
  have henter (shared : PolicyCluster) (strict : Bool) : shared.Knows (policyProgram.enter strict) := trivial
  refine hi.step UpToDate event hc (fun s strict _ _ => henter s.shared strict) ?_ ?_ hs
  · intro s i answer call next hi hc hcall hact
    obtain ⟨hsound, hown, hothers, -⟩ := act_sound hi hc hcall hact
    exact ⟨hsound, hown, fun _ q _ _ hq => hothers q hq⟩
  · intro s policies shared hi _ ho
    cases ho
    exact ⟨hi.1.edit policies, fun q _ hq => hq.edit policies⟩

theorem forward_of_holds {s : PolicySystem} {event : PolicyEvent} (hi : Program.Holds Sound Knows s)
    (hc : UpToDate s event) : Forward s event := by
  intro s' hs cm' hcm'
  have hi' := policyProgram_step hi hc hs
  refine ⟨hi'.1.installed cm' hcm', ?_⟩
  intro cm hcm
  refine ⟨hi.1.installed cm hcm, ?_⟩
  cases event with
  | spawn request =>
    cases hs
    rw [Option.mem_unique hcm hcm']
  | advance i answer =>
    obtain ⟨call, next, hcall, hact, rfl⟩ := Program.advance_eq_some hs
    obtain ⟨-, -, -, hforward⟩ := act_sound hi hc hcall hact
    exact hforward cm' hcm' cm hcm
  | outside policies =>
    cases hs
    rw [Option.mem_unique hcm hcm']

/-- The enforced policy does not go backwards along a run in which no handler reads a ConfigMap of
policies that are newer than its own. -/
theorem forward_of_upToDate {s : PolicySystem} {events : List PolicyEvent} (hsound : s.shared.Sound)
    (hidle : s.procs = []) (hm : RunMeets policyProgram.step UpToDate s events) :
    RunMeets policyProgram.step Forward s events := by
  have hinit : Program.Holds Sound Knows s := by
    refine ⟨hsound, ?_⟩
    rw [hidle]
    simp
  exact runMeets_of_invariant (fun _ _ _ hi hc hs => policyProgram_step hi hc hs)
    (fun _ _ hi hc => forward_of_holds hi hc) hinit hm

def auditHook : HookPolicy where
  id := "audit"
  events := ["Stop"]
  interpreter := "bash"
  scriptBody := "exit 2"
  contentHash := "ab"
  enabled := true
  enforced := true
  enforcedEvents := ["Stop"]

def emptyRendering : ConfigData := renderConfigMapData [] []

def auditRendering : ConfigData := renderConfigMapData [] [auditHook]

theorem emptyRendering_digest : contentDigest auditRendering ≠ contentDigest emptyRendering := by
  decide +kernel

/-- The policy has been edited since the ConfigMap was made. -/
def editedPolicy : PolicySystem :=
  ⟨{ history := [[], [auditHook]]
     configMap := some
      { data := emptyRendering, digest := some (contentDigest emptyRendering), resourceVersion := 1
        source := 0 }
     revision := 1 }, []⟩

theorem forward_editedPolicy : RunMeets policyProgram.step UpToDate editedPolicy
        [.spawn false, .advance 0 .ok, .advance 0 .ok, .advance 0 .ok] ∧
      RunMeets policyProgram.step Forward editedPolicy
        [.spawn false, .advance 0 .ok, .advance 0 .ok, .advance 0 .ok] := by
  have hm : RunMeets policyProgram.step UpToDate editedPolicy
      [.spawn false, .advance 0 .ok, .advance 0 .ok, .advance 0 .ok] := by
    have hlook : policyProgram.step ⟨editedPolicy.shared, [.looking auditRendering 1]⟩ (.advance 0 .ok) =
        some ⟨editedPolicy.shared, [.replacing (mergeGenerations auditRendering emptyRendering)
          (contentDigest auditRendering) 1 1]⟩ := by
      simp [Program.step, policyProgram, PolicyCall.act, editedPolicy, emptyRendering_digest.symm]
    refine ⟨trivial, ?_, (runMeets_cons hlook).mpr ⟨?_, ?_, trivial⟩⟩
    · rintro _ ⟨⟩
      trivial
    · rintro _ ⟨⟩ cm ⟨⟩
      exact .inl (Nat.zero_le 1)
    · rintro _ ⟨⟩
      trivial
  have hsound : editedPolicy.shared.Sound := by
    refine ⟨by simp [editedPolicy], ?_, ?_⟩
    · rintro cm ⟨⟩
      exact ⟨by simp [editedPolicy], rfl, getValue_settings _ _⟩
    · rintro cm ⟨⟩
      exact Nat.le_refl _
  exact ⟨hm, forward_of_upToDate hsound rfl hm⟩

def noPolicy : PolicySystem := ⟨{ history := [[]] }, []⟩

/-- A handler has read no policy; the administrator adds one, and another handler installs it. -/
def overtakenRun : List PolicyEvent := [
  .spawn false, .advance 0 .ok, .outside [auditHook],
  .spawn false, .advance 1 .ok, .advance 1 .ok, .advance 1 .ok]

def overtaken : PolicySystem :=
  ⟨{ history := [[], [auditHook]]
     configMap := some
      { data := auditRendering, digest := some (contentDigest auditRendering), resourceVersion := 1
        source := 1 }
     revision := 1 }, [.looking emptyRendering 0, .ended (some true)]⟩

theorem overtakenRun_eq : run policyProgram.step noPolicy overtakenRun = some overtaken := rfl

theorem overtakenRun_not_forward : ¬ RunMeets policyProgram.step Forward noPolicy
    (overtakenRun ++ [.advance 0 .ok, .advance 0 .ok]) := by
  intro hm
  obtain ⟨-, hlast⟩ := hm.split overtakenRun_eq
  have hlook : policyProgram.step overtaken (.advance 0 .ok) = some ⟨overtaken.shared,
      [.replacing (mergeGenerations emptyRendering auditRendering) (contentDigest emptyRendering) 0 1,
        .ended (some true)]⟩ := by
    simp [Program.step, policyProgram, PolicyCall.act, overtaken, emptyRendering_digest]
  obtain ⟨-, hreplace, -⟩ := (runMeets_cons hlook).mp hlast
  -- the replacement names the version that holds the new policy
  have hback := ((hreplace _ rfl _ rfl).2 _ rfl).2
  revert hback
  simp

end PrivaCloud.Operator
