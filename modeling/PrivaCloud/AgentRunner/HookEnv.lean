import Mathlib.Data.List.Infix
import PrivaCloud.Framework.Dict
import PrivaCloud.Framework.Lines

/-!
# The environments of hooks

The wrapper of the managed hooks and the agent-runner build the environment of a hook anew, each with its
own lists. A variable is passed on from the environment of the process under a condition on its name;
`str.upper` is a parameter.
-/

namespace PrivaCloud.AgentRunner

open Framework

/-- Names and values -/
abbrev HookEnv := Dict Text Text

/-- `if key in src and ...: env[key] = src[key]`, for each of the names -/
def passOn (environ : HookEnv) (keep : Text → Bool) (env : HookEnv) (names : List Text) : HookEnv :=
  names.foldl (fun env key =>
    match environ.lookup key with
    | some value => if keep key then env.set key value else env
    | none => env) env

/-- `env.setdefault(key, value)` -/
def setDefault (env : HookEnv) (key value : Text) : HookEnv := if key ∈ env then env else env.set key value

theorem lookup_setDefault (env : HookEnv) (key value name : Text) : (setDefault env key value).lookup name =
      if name = key then some ((env.lookup key).getD value) else env.lookup name := by
  unfold setDefault
  split
  · rename_i hkey
    obtain ⟨value', hvalue⟩ := Option.isSome_iff_exists.mp (AList.lookup_isSome.mpr hkey)
    split
    · rename_i hname
      rw [hname, hvalue, Option.getD_some]
    · rfl
  · rename_i hkey
    rw [Dict.lookup_set, AList.lookup_eq_none.mpr hkey, Option.getD_none]

theorem lookup_passOn (environ : HookEnv) (keep : Text → Bool) (env : HookEnv) (names : List Text) (name : Text) :
    (passOn environ keep env names).lookup name =
      if name ∈ names ∧ keep name = true then (environ.lookup name).or (env.lookup name) else env.lookup name := by
  induction names generalizing env with
  | nil => simp [passOn]
  | cons key names ih =>
    have hfold := ih (match environ.lookup key with
      | some value => if keep key then env.set key value else env
      | none => env)
    rw [passOn, List.foldl_cons, ← passOn, hfold]
    by_cases hname : name = key
    · subst hname
      cases hvalue : environ.lookup name <;> cases hkeep : keep name <;> simp [Dict.lookup_set]
    · have hsame : (match environ.lookup key with
          | some value => if keep key then env.set key value else env
          | none => env).lookup name = env.lookup name := by
        split
        · split
          · rw [Dict.lookup_set, if_neg hname]
          · rfl
        · rfl
      rw [hsame]
      simp [hname]

def baseAllowed : List Text := ["PATH".toList, "HOME".toList, "LANG".toList, "TMPDIR".toList, "TZ".toList, "TERM".toList]

def basePrefixes : List Text := ["LC_".toList]

def denyPrefixes : List Text := ["ANTHROPIC_".toList]

def hasBasePrefix (name : Text) : Bool := basePrefixes.any (·.isPrefixOf name)

section Builders

variable (upper : Text → Text)

/-- `is_denied_env`, with the substrings of its module -/
def isDeniedEnv (denySubstrings : List Text) (name : Text) : Bool :=
  denyPrefixes.any (·.isPrefixOf (upper name)) || denySubstrings.any fun s => decide (s <:+: upper name)

namespace ManagedHookWrapper

def denySubstrings : List Text :=
  ["JWT".toList, "HMAC".toList, "DSN".toList, "SECRET".toList, "PASSWORD".toList, "TOKEN".toList]

def contextPassthrough : List Text :=
  ["CLAUDE_PROJECT_DIR".toList, "CLAUDE_HOOK_EVENT_NAME".toList, "PRIVA_HOOK_DIR".toList, "PRIVA_AUDIT_DIR".toList,
    "PRIVA_LOG_DIR".toList]

def defaultPath : Text := "/usr/local/bin:/usr/bin:/bin".toList

def isDenied (name : Text) : Bool := isDeniedEnv upper denySubstrings name

def buildScrubbedEnv (src : HookEnv) (allowedEnvVars : List Text) : HookEnv :=
  let env := passOn src (fun _ => true) ∅ baseAllowed
  let env := passOn src (fun key => hasBasePrefix key && !isDenied upper key) env src.keys
  let env := passOn src (fun key => !isDenied upper key) env contextPassthrough
  let env := passOn src (fun key => !isDenied upper key) env allowedEnvVars
  setDefault env "PATH".toList defaultPath

end ManagedHookWrapper

namespace HooksEnv

def denySubstrings : List Text := ["JWT".toList, "HMAC".toList, "DSN".toList, "SECRET".toList, "PASSWORD".toList]

def isDenied (name : Text) : Bool := isDeniedEnv upper denySubstrings name

def buildHookEnv (environ : HookEnv) (allowedEnvVars : List Text) (extra : HookEnv) : HookEnv :=
  let env := passOn environ (fun _ => true) ∅ baseAllowed
  let env := passOn environ hasBasePrefix env environ.keys
  let env := passOn environ (fun name => !isDenied upper name) env allowedEnvVars
  extra ∪ env

end HooksEnv

variable {upper : Text → Text} {environ extra : HookEnv} {allowed : List Text} {name : Text}

theorem isDenied_of_hooksEnv (h : HooksEnv.isDenied upper name = true) :
    ManagedHookWrapper.isDenied upper name = true := by
  unfold HooksEnv.isDenied ManagedHookWrapper.isDenied isDeniedEnv at *
  rw [Bool.or_eq_true] at h ⊢
  refine h.imp_right fun hsub => ?_
  obtain ⟨s, hs, hin⟩ := List.any_eq_true.mp hsub
  exact List.any_eq_true.mpr ⟨s, List.mem_append_left ["TOKEN".toList] hs, hin⟩

/-- The names that the wrapper lets through, but for the default -/
def ManagedHookWrapper.Passes (upper : Text → Text) (allowed : List Text) (name : Text) : Prop :=
  name ∈ baseAllowed ∨
    (hasBasePrefix name = true ∨ name ∈ contextPassthrough ∨ name ∈ allowed) ∧ isDenied upper name = false

def HooksEnv.Passes (upper : Text → Text) (allowed : List Text) (name : Text) : Prop :=
  name ∈ baseAllowed ∨ hasBasePrefix name = true ∨ name ∈ allowed ∧ isDenied upper name = false

theorem lookup_passOn_or (keep : Text → Bool) (names : List Text) {passed : Prop} [Decidable passed] {env : HookEnv}
    (h : env.lookup name = if passed then environ.lookup name else none) :
    (passOn environ keep env names).lookup name =
      if passed ∨ name ∈ names ∧ keep name = true then environ.lookup name else none := by
  rw [lookup_passOn, h]
  by_cases hpassed : passed <;> by_cases hnew : name ∈ names ∧ keep name = true <;> simp [hpassed, hnew]

theorem lookup_baseAllowed (environ : HookEnv) (name : Text) :
    (passOn environ (fun _ => true) ∅ baseAllowed).lookup name =
      if name ∈ baseAllowed then environ.lookup name else none := by
  rw [lookup_passOn]
  simp

theorem ite_passes {passed passes : Prop} [Decidable passed] [Decidable passes]
    (h : name ∈ environ → (passed ↔ passes)) :
    (if passed then environ.lookup name else none) = if passes then environ.lookup name else none := by
  by_cases hname : name ∈ environ
  · exact if_congr (h hname) rfl rfl
  · rw [AList.lookup_eq_none.mpr hname, ite_self, ite_self]

open Classical in
theorem lookup_buildScrubbedEnv : (ManagedHookWrapper.buildScrubbedEnv upper environ allowed).lookup name =
      if name = "PATH".toList then some ((environ.lookup name).getD ManagedHookWrapper.defaultPath)
      else if ManagedHookWrapper.Passes upper allowed name then environ.lookup name else none := by
  have hpassed := fun name => lookup_passOn_or (fun key => !ManagedHookWrapper.isDenied upper key) allowed
    (lookup_passOn_or (fun key => !ManagedHookWrapper.isDenied upper key) ManagedHookWrapper.contextPassthrough
      (lookup_passOn_or (fun key => hasBasePrefix key && !ManagedHookWrapper.isDenied upper key) environ.keys
        (lookup_baseAllowed environ name)))
  rw [ManagedHookWrapper.buildScrubbedEnv, lookup_setDefault, hpassed, hpassed]
  split
  · rename_i hname
    rw [hname, if_pos (by simp [baseAllowed])]
  · refine ite_passes fun hname => ?_
    simp only [ManagedHookWrapper.Passes, AList.mem_keys.mp hname, Bool.and_eq_true, Bool.not_eq_true']
    tauto

open Classical in
theorem lookup_buildHookEnv (hextra : name ∉ extra) :
    (HooksEnv.buildHookEnv upper environ allowed extra).lookup name =
      if HooksEnv.Passes upper allowed name then environ.lookup name else none := by
  rw [HooksEnv.buildHookEnv, AList.lookup_union_right hextra]
  have hpassed := lookup_passOn_or (fun key => !HooksEnv.isDenied upper key) allowed
    (lookup_passOn_or hasBasePrefix environ.keys (lookup_baseAllowed environ name))
  refine hpassed.trans (ite_passes fun hname => ?_)
  simp only [HooksEnv.Passes, AList.mem_keys.mp hname, Bool.not_eq_true']
  tauto

theorem isDenied_baseAllowed (hupper : ∀ base ∈ baseAllowed, upper base = base) (h : name ∈ baseAllowed) :
    ManagedHookWrapper.isDenied upper name = false := by
  rw [ManagedHookWrapper.isDenied, isDeniedEnv, hupper name h]
  revert name
  decide +kernel

/-- No builder passes on what its own list denies, but for the context and what begins like a locale, and they
agree wherever their lists do. -/
theorem scrubbed_and_agree (hupper : ∀ base ∈ baseAllowed, upper base = base) (environ : HookEnv)
    (allowed : List Text) (extra : HookEnv) :
    (∀ name ∈ ManagedHookWrapper.buildScrubbedEnv upper environ allowed,
      ManagedHookWrapper.isDenied upper name = false ∧ HooksEnv.isDenied upper name = false) ∧
    (∀ name ∈ HooksEnv.buildHookEnv upper environ allowed extra,
      name ∉ extra → hasBasePrefix name = false → HooksEnv.isDenied upper name = false) ∧
    ∀ name, name ∉ ManagedHookWrapper.contextPassthrough → name ∉ extra →
      (name = "PATH".toList → name ∈ environ) →
      (ManagedHookWrapper.isDenied upper name = true →
        HooksEnv.isDenied upper name = true ∧ hasBasePrefix name = false) →
      (ManagedHookWrapper.buildScrubbedEnv upper environ allowed).lookup name =
        (HooksEnv.buildHookEnv upper environ allowed extra).lookup name := by
  classical
  have hbase {name : Text} (h : name ∈ baseAllowed) := isDenied_baseAllowed hupper h
  have hweaker {name : Text} (h : ManagedHookWrapper.isDenied upper name = false) :
      HooksEnv.isDenied upper name = false := by
    by_contra hdenied
    rw [isDenied_of_hooksEnv (Bool.not_eq_false _ ▸ hdenied)] at h
    cases h
  refine ⟨fun name hname => ?_, fun name hname hextra hbegins => ?_, fun name hcontext hextra hpath hlists => ?_⟩
  · rw [← AList.lookup_isSome, lookup_buildScrubbedEnv] at hname
    suffices h : ManagedHookWrapper.isDenied upper name = false from ⟨h, hweaker h⟩
    split at hname
    · rename_i heq
      exact hbase (by rw [heq]; simp [baseAllowed])
    · split at hname
      · rename_i hpasses
        exact hpasses.elim hbase fun h => h.2
      · cases hname
  · rw [← AList.lookup_isSome, lookup_buildHookEnv hextra] at hname
    split at hname
    · rename_i hpasses
      rcases hpasses with h | h | h
      · exact hweaker (hbase h)
      · rw [hbegins] at h
        cases h
      · exact h.2
    · cases hname
  · rw [lookup_buildScrubbedEnv, lookup_buildHookEnv hextra]
    split
    · rename_i heq
      obtain ⟨value, hvalue⟩ := Option.isSome_iff_exists.mp (AList.lookup_isSome.mpr (hpath heq))
      rw [hvalue, if_pos (.inl (by rw [heq]; simp [baseAllowed]))]
      rfl
    · refine if_congr ?_ rfl rfl
      unfold ManagedHookWrapper.Passes HooksEnv.Passes
      cases hdenied : ManagedHookWrapper.isDenied upper name with
      | false => simp [hcontext, hweaker hdenied]
      | true => simp [hlists hdenied, hcontext]

/-- `str.upper` of an ASCII text -/
def asciiUpper (text : Text) : Text := text.map Char.toUpper

def locale : HookEnv := AList.singleton "LC_ALL".toList "C".toList

theorem scrubbed_and_agree_locale :
    (ManagedHookWrapper.buildScrubbedEnv asciiUpper locale []).lookup "LC_ALL".toList =
      (HooksEnv.buildHookEnv asciiUpper locale [] ∅).lookup "LC_ALL".toList :=
  (scrubbed_and_agree (by decide +kernel) locale [] ∅).2.2 _ (by decide +kernel) (by decide +kernel)
    (by decide +kernel) (by decide +kernel)

def webhook : HookEnv := AList.singleton "WEBHOOK_TOKEN".toList "tok".toList

/-- A variable that only the list of the wrapper denies -/
theorem not_scrubbed_webhook :
    (HooksEnv.buildHookEnv asciiUpper webhook ["WEBHOOK_TOKEN".toList] ∅).lookup "WEBHOOK_TOKEN".toList =
      some "tok".toList ∧
    (ManagedHookWrapper.buildScrubbedEnv asciiUpper webhook ["WEBHOOK_TOKEN".toList]).lookup "WEBHOOK_TOKEN".toList =
      none ∧
    ManagedHookWrapper.isDenied asciiUpper "WEBHOOK_TOKEN".toList = true ∧
    "WEBHOOK_TOKEN".toList ∉ ManagedHookWrapper.contextPassthrough ∧ "WEBHOOK_TOKEN".toList ≠ "PATH".toList := by
  decide +kernel

end Builders

end PrivaCloud.AgentRunner
