import PrivaCloud.Operator.PolicyHandlers

/-!
# The scripts of running sessions

The enforced policies are rendered into the ConfigMap one set after another. A session runs on with the
settings that it has loaded, so the scripts that the settings before name are kept with those that they name
now.
-/

namespace PrivaCloud.Operator

open Framework ManagedPolicyRender

section Keys

variable {policy : HookPolicy}

private theorem beforeLast_append {sep : Char} (front : List Char) {rest : List Char} (h : sep ∉ rest) :
    beforeLast sep (front ++ sep :: rest) = front := by
  have hmem : sep ∈ front ++ sep :: rest := List.mem_append_right _ List.mem_cons_self
  have hkeep : ∀ c ∈ rest.reverse, decide (c ≠ sep) = true := by
    intro c hc
    refine decide_eq_true ?_
    rintro rfl
    exact h (List.mem_reverse.mp hc)
  rw [beforeLast, if_pos hmem, List.reverse_append, List.reverse_cons, List.append_assoc,
    List.dropWhile_append_of_pos hkeep, List.singleton_append, List.dropWhile_cons_of_neg (by simp), List.tail_cons,
    List.reverse_reverse]

private theorem notMem_hexdigest (text : List Char) : '-' ∉ Sha256.hexdigest text := by
  have hdigit : ∀ n < 16, Nat.digitChar n ≠ '-' := by decide
  intro hmem
  obtain ⟨word, -, hword⟩ := List.mem_flatMap.mp hmem
  obtain ⟨i, -, hchar⟩ := List.mem_map.mp hword
  exact hdigit _ (Nat.mod_lt _ (by decide)) hchar

/-- A row as the service keeps it: a command whose hash is that of its script -/
structure HookPolicy.Hashed (policy : HookPolicy) : Prop where
  command : policy.hookType = "command"
  hash : policy.contentHash = String.ofList (Sha256.hexdigest policy.scriptBody.toList)

/-- What `_id_of` makes of the keys of a policy -/
def commandId (id : String) : List Char := "command-".toList ++ id.toList

private theorem commandId_inj {id id' : String} (h : commandId id = commandId id') : id = id' :=
  String.toList_inj.mp (List.append_cancel_left h)

private theorem toList_scriptKey (h : policy.hookType = "command") : (scriptKey policy).toList = scriptPrefix ++
    ((commandId policy.id ++ '-' :: policy.contentHash.toList.take 8) ++ '.' :: (ext policy.interpreter).toList) := by
  have hdash : "-".toList = ['-'] := by decide
  have hdot : ".".toList = ['.'] := by decide
  have hprefix : scriptPrefix = ['m', 'h', '-'] := by decide
  have hcommand : "command-".toList = "command".toList ++ ['-'] := by decide
  have hkey : (scriptKey policy).toList = scriptPrefix ++ policy.hookType.toList ++ ['-'] ++ policy.id.toList ++ ['-'] ++
      policy.contentHash.toList.take 8 ++ ['.'] ++ (ext policy.interpreter).toList := by
    unfold scriptKey
    simp only []
    rw [String.toList_append, String.toList_append, String.toList_append, String.toList_append, String.toList_append,
      String.toList_append, String.toList_append, String.toList_ofList, hdash, hdot, String.toList_ofList, hprefix]
  rw [hkey, h]
  unfold commandId
  generalize scriptPrefix = front
  -- the literal is not to be evaluated
  generalize hc : "command-".toList = command
  rw [hcommand] at hc
  rw [← hc]
  simp only [List.append_assoc, List.cons_append, List.nil_append]

private theorem idOf_scriptKey (h : policy.Hashed) : idOf (scriptKey policy) = some (commandId policy.id) := by
  have hdot : '.' ∉ (ext policy.interpreter).toList := by
    unfold ext
    simp only
    split <;> decide
  have hdash : '-' ∉ policy.contentHash.toList.take 8 := by
    intro hmem
    rw [h.hash, String.toList_ofList] at hmem
    exact notMem_hexdigest _ (List.mem_of_mem_take hmem)
  have hpre : scriptPrefix.isPrefixOf (scriptKey policy).toList = true := by
    rw [toList_scriptKey h.command, List.isPrefixOf_iff_prefix]
    exact List.prefix_append _ _
  rw [idOf, if_pos hpre, toList_scriptKey h.command, List.drop_left, beforeLast_append _ hdot,
    beforeLast_append _ hdash]

private theorem idOf_wrapperKey : idOf wrapperKey = none := by decide

private theorem idOf_settingsKey : idOf settingsKey = none := by decide

end Keys

section Rendering

variable {wrapperSource : List Char} {policies : List HookPolicy} {policy : HookPolicy}

/-- The rows of a table -/
structure WellFormed (policies : List HookPolicy) : Prop where
  ids : (policies.map (·.id)).Nodup
  hashed : ∀ policy ∈ policies, policy.Hashed

private theorem mem_rendered : policy ∈ rendered policies ↔
    policy ∈ policies ∧ policy.hookType = "command" ∧ policy.scriptBody ≠ "" := by
  simp [rendered]

private theorem WellFormed.eq_of_id (h : WellFormed policies) {policy' : HookPolicy} (hmem : policy ∈ policies)
    (hmem' : policy' ∈ policies) (hid : policy.id = policy'.id) : policy = policy' :=
  List.inj_on_of_nodup_map h.ids hmem hmem' hid

private theorem mem_keys_assignAll {d es : List (String × List Char)} {key : String} :
    key ∈ (assignAll d es).map Prod.fst ↔ key ∈ d.map Prod.fst ∨ key ∈ es.map Prod.fst := by
  induction es generalizing d with
  | nil => simp [assignAll]
  | cons e es ih =>
    have hstep := ih (d := assign d e.1 e.2)
    simp only [assignAll, List.foldl_cons] at hstep ⊢
    rw [hstep, mem_keys_assign, List.map_cons, List.mem_cons]
    rw [or_comm (a := key = e.1), or_assoc]

private theorem nodup_keys_assignAll {d es : List (String × List Char)} (h : (d.map Prod.fst).Nodup) :
    ((assignAll d es).map Prod.fst).Nodup := by
  induction es generalizing d with
  | nil => exact h
  | cons e es ih => exact ih (nodup_keys_assign h e.1 e.2)

private theorem nodup_rendering : ((renderConfigMapData wrapperSource policies).map Prod.fst).Nodup := by
  have hwrapper : ([(wrapperKey, wrapperSource)].map Prod.fst).Nodup := List.nodup_singleton _
  exact nodup_keys_assign (nodup_keys_assignAll hwrapper) _ _

private theorem mem_keys_rendering {key : String} {id : List Char} (hid : idOf key = some id) :
    key ∈ (renderConfigMapData wrapperSource policies).map Prod.fst ↔ ∃ policy ∈ rendered policies, key = scriptKey policy := by
  have hwrapper : key ≠ wrapperKey := by
    rintro rfl
    rw [idOf_wrapperKey] at hid
    cases hid
  have hsettings : key ≠ settingsKey := by
    rintro rfl
    rw [idOf_settingsKey] at hid
    cases hid
  rw [renderConfigMapData, mem_keys_assign, mem_keys_assignAll, List.map_map]
  simp only [hsettings, false_or, List.map_cons, List.map_nil, List.mem_singleton, hwrapper, List.mem_map,
    Function.comp_apply, eq_comm]

variable (wrapperSource) in
theorem WellFormed.key_unique (h : WellFormed policies) (hmem : policy ∈ rendered policies) {key : String}
    (hid : idOf key = some (commandId policy.id)) :
    key ∈ (renderConfigMapData wrapperSource policies).map Prod.fst ↔ key = scriptKey policy := by
  rw [mem_keys_rendering hid]
  constructor
  · rintro ⟨other, hother, rfl⟩
    rw [idOf_scriptKey (h.hashed other (mem_rendered.mp hother).1), Option.some.injEq] at hid
    rw [h.eq_of_id (mem_rendered.mp hother).1 (mem_rendered.mp hmem).1 (commandId_inj hid)]
  · exact fun heq => ⟨policy, hmem, heq⟩

variable (wrapperSource) in
theorem scriptKey_mem_rendering (hmem : policy ∈ rendered policies) :
    scriptKey policy ∈ (renderConfigMapData wrapperSource policies).map Prod.fst := by
  rw [renderConfigMapData, mem_keys_assign, mem_keys_assignAll, List.map_map]
  exact Or.inr (Or.inr (List.mem_map.mpr ⟨policy, hmem, rfl⟩))

private theorem WellFormed.getValue_scriptKey (h : WellFormed policies) (hmem : policy ∈ rendered policies) :
    getValue (renderConfigMapData wrapperSource policies) (scriptKey policy) = some policy.scriptBody.toList := by
  have hid := idOf_scriptKey (h.hashed policy (mem_rendered.mp hmem).1)
  have hsettings : scriptKey policy ≠ settingsKey := by
    intro heq
    rw [heq, idOf_settingsKey] at hid
    cases hid
  rw [renderConfigMapData, getValue_assign, if_neg hsettings, getValue_assignAll]
  have hlast : lastUnder ((rendered policies).map fun policy => (scriptKey policy, policy.scriptBody.toList))
      (scriptKey policy) = some policy.scriptBody.toList := by
    have hkey : scriptKey policy ∈ (((rendered policies).map fun policy =>
      (scriptKey policy, policy.scriptBody.toList)).reverse).map Prod.fst :=
      List.mem_map.mpr ⟨_, List.mem_reverse.mpr (List.mem_map_of_mem hmem), rfl⟩
    obtain ⟨body, hbody⟩ := getValue_isSome hkey
    obtain ⟨other, hother, heq⟩ := List.mem_map.mp (lastUnder_mem hbody)
    obtain ⟨hkeys, hbodies⟩ := Prod.mk.inj heq
    rw [← hkeys, idOf_scriptKey (h.hashed other (mem_rendered.mp hother).1), Option.some.injEq] at hid
    rw [h.eq_of_id (mem_rendered.mp hother).1 (mem_rendered.mp hmem).1 (commandId_inj hid)] at hbodies
    rw [hbodies]
    exact hbody
  rw [hlast]
  rfl

end Rendering

section Merge

variable {newData oldData : ConfigData} {key : String} {id : List Char}

private theorem getValue_isNone : (getValue newData key).isNone = true ↔ key ∉ newData.map Prod.fst := by
  constructor
  · intro hnone hmem
    obtain ⟨v, hv⟩ := getValue_isSome hmem
    rw [hv] at hnone
    cases hnone
  · intro hmem
    rw [getValue_eq_none hmem]
    rfl

/-- The older scripts of a policy, in the order in which the map is returned -/
def staleOf (newData oldData : ConfigData) (id : List Char) : ConfigData :=
  oldData.filter fun e => idOf e.1 = some id && (getValue newData e.1).isNone

private theorem mem_keys_mergeGenerations (hid : idOf key = some id) :
    key ∈ (mergeGenerations newData oldData).map Prod.fst ↔ key ∈ newData.map Prod.fst ∨
        (∃ e ∈ newData, idOf e.1 = some id) ∧ ((staleOf newData oldData id).head?.map Prod.fst) = some key := by
  have hstale : (oldData.filter fun e => (idOf e.1).isSome && (getValue newData e.1).isNone).filter
      (fun e => idOf e.1 = some id) = staleOf newData oldData id := by
    rw [List.filter_filter, staleOf]
    refine List.filter_congr fun e _ => ?_
    cases hidOf : idOf e.1 with
    | none => simp
    | some other => simp
  have htake : ∀ (l : ConfigData), key ∈ (l.take 1).map Prod.fst ↔ l.head?.map Prod.fst = some key := by
    intro l
    cases l with
    | nil => simp
    | cons e l => simp [eq_comm]
  rw [mergeGenerations, mem_keys_assignAll]
  refine or_congr_right ⟨?_, ?_⟩
  · intro hmem
    obtain ⟨e, he, rfl⟩ := List.mem_map.mp hmem
    obtain ⟨other, hother, hkept⟩ := List.mem_flatMap.mp he
    have hsame : idOf e.1 = some other := by
      simpa using (List.mem_filter.mp (List.mem_of_mem_take hkept)).2
    rw [hid, Option.some.injEq] at hsame
    subst hsame
    rw [hstale] at hkept
    refine ⟨?_, (htake _).mp (List.mem_map_of_mem hkept)⟩
    obtain ⟨e', he', hlive⟩ := List.mem_filterMap.mp (of_decide_eq_true (List.mem_filter.mp hother).2)
    exact ⟨e', he', hlive⟩
  · rintro ⟨⟨e', he', hlive⟩, hhead⟩
    obtain ⟨e, he, heq⟩ := List.mem_map.mp ((htake _).mpr hhead)
    refine List.mem_map.mpr ⟨e, List.mem_flatMap.mpr ⟨id, ?_, by rw [hstale]; exact he⟩, heq⟩
    refine List.mem_filter.mpr ⟨?_, decide_eq_true (List.mem_filterMap.mpr ⟨e', he', hlive⟩)⟩
    rw [List.mem_eraseDups, List.mem_filterMap]
    rw [← hstale] at he
    exact ⟨e, List.mem_of_mem_filter (List.mem_of_mem_take he), heq ▸ hid⟩

private theorem nodup_mergeGenerations (h : (newData.map Prod.fst).Nodup) :
    ((mergeGenerations newData oldData).map Prod.fst).Nodup := nodup_keys_assignAll h

end Merge

/-- The rows of the table of policies: each has its own id and the hash of its script. -/
structure PolicySet where
  rows : List HookPolicy
  ids : (rows.map (·.id)).Nodup
  hashed : ∀ policy ∈ rows, policy.contentHash = String.ofList (Sha256.hexdigest policy.scriptBody.toList)

def PolicySet.enforced (set : PolicySet) : List HookPolicy := PolicyCluster.enforced set.rows

private theorem PolicySet.wellFormed (set : PolicySet) : WellFormed set.enforced where
  ids := set.ids.sublist (List.filter_sublist.map _)
  hashed := by
    intro policy hpolicy
    obtain ⟨hmem, henforced⟩ := List.mem_filter.mp hpolicy
    simp only [Bool.and_eq_true, decide_eq_true_eq] at henforced
    exact ⟨henforced.2, set.hashed policy hmem⟩

/-- What is stored, the policies that it was rendered from and those of the map before it -/
structure PolicyScripts where
  data : ConfigData
  digest : String
  policies : List HookPolicy
  before : List HookPolicy

def scriptsOf (data : ConfigData) (id : String) : List String :=
  (data.map Prod.fst).filter fun key => idOf key = some (commandId id)

/-- The settings of the policies name the script of the policy: it is rendered and fires on an event. -/
def NamedBy (policies : List HookPolicy) (policy : HookPolicy) : Prop :=
  policy ∈ rendered policies ∧ active policy ≠ []

instance (policies : List HookPolicy) (policy : HookPolicy) : Decidable (NamedBy policies policy) :=
  inferInstanceAs (Decidable (_ ∧ _))

namespace PolicyScripts

/-- `ensure_managed_policy_configmap` with the policies that the data plane lists and the data of the ConfigMap,
its keys in any order -/
def ensure (wrapperSource : List Char) (s : Option PolicyScripts) (event : PolicySet × ConfigData) :
    Option (Option PolicyScripts) :=
  let data := renderConfigMapData wrapperSource event.1.enforced
  match s with
  | none => some (some ⟨data, contentDigest data, event.1.enforced, []⟩)
  | some stored =>
    if event.2.Perm stored.data then
      if stored.digest = contentDigest data then some s
      else some (some ⟨mergeGenerations data event.2, contentDigest data, event.1.enforced, stored.policies⟩)
    else none

/-- A policy that is still enforced has a script; it is the one before, or the one before comes first among its
older scripts. -/
def KeptFirst (s : Option PolicyScripts) (event : PolicySet × ConfigData) : Prop :=
  ∀ stored ∈ s, ∀ policy ∈ rendered stored.policies, NamedBy stored.policies policy →
    ∀ next ∈ event.1.enforced, next.id = policy.id → next.scriptBody ≠ "" ∧ (scriptKey next = scriptKey policy ∨
      ((event.2.filter fun e => idOf e.1 = some (commandId policy.id) && decide (e.1 ≠ scriptKey next)).head?.map
        Prod.fst) = some (scriptKey policy))

/-- The scripts are there that the map's own settings name, with their bodies, and those that the settings before
name, for the policies that are still enforced; a policy has two scripts at most. -/
structure Bridges (s : PolicyScripts) : Prop where
  own : ∀ policy, NamedBy s.policies policy → getValue s.data (scriptKey policy) = some policy.scriptBody.toList
  before : ∀ policy, NamedBy s.before policy → (∃ next ∈ s.policies, next.id = policy.id) →
    scriptKey policy ∈ s.data.map Prod.fst
  two : ∀ id, (scriptsOf s.data id).length ≤ 2

/-- What is stored bridges the edit, and it is a map made from the rows of a table. -/
structure Kept (s : PolicyScripts) : Prop where
  bridges : s.Bridges
  wellFormed : WellFormed s.policies

section Steps

variable {wrapperSource : List Char} {set : PolicySet} {returned : ConfigData}

variable (wrapperSource) in
theorem staleOf_rendering {next : HookPolicy} (hnext : next ∈ rendered set.enforced) :
    staleOf (renderConfigMapData wrapperSource set.enforced) returned (commandId next.id) =
      returned.filter fun e => idOf e.1 = some (commandId next.id) && decide (e.1 ≠ scriptKey next) := by
  rw [staleOf]
  refine List.filter_congr fun e _ => ?_
  by_cases hid : idOf e.1 = some (commandId next.id)
  · have hunique := set.wellFormed.key_unique wrapperSource hnext hid
    rw [hid, Bool.eq_iff_iff, Bool.and_eq_true, Bool.and_eq_true, getValue_isNone, hunique, decide_eq_true_iff,
      decide_eq_true_iff]
  · simp [hid]

/-- A policy has one script in a rendering, so two with the older one that is kept. -/
theorem scriptsOf_le {data : ConfigData} (older : List String) (hnodup : (data.map Prod.fst).Nodup) (id : String)
    (hkeys : ∀ key, idOf key = some (commandId id) → key ∈ data.map Prod.fst →
      (∃ policy ∈ rendered set.enforced, key = scriptKey policy) ∨ key ∈ older) :
    (scriptsOf data id).length ≤ 1 + older.length := by
  have hsub : scriptsOf data id ⊆ ((rendered set.enforced).find? (·.id = id)).toList.map scriptKey ++ older := by
    intro key hkey
    obtain ⟨hmem, hid⟩ := List.mem_filter.mp hkey
    rcases hkeys key (of_decide_eq_true hid) hmem with ⟨policy, hpolicy, rfl⟩ | holder
    · have hpolicyId : policy.id = id := by
        have hown := idOf_scriptKey (set.wellFormed.hashed policy (mem_rendered.mp hpolicy).1)
        rw [of_decide_eq_true hid, Option.some.injEq] at hown
        exact (commandId_inj hown).symm
      cases hfind : (rendered set.enforced).find? (·.id = id) with
      | none => exact absurd hpolicyId (by simpa using List.find?_eq_none.mp hfind policy hpolicy)
      | some found =>
        have hfoundId : found.id = id := by simpa using List.find?_some hfind
        have hsame := set.wellFormed.eq_of_id (mem_rendered.mp hpolicy).1
          (mem_rendered.mp (List.mem_of_find?_eq_some hfind)).1 (hpolicyId.trans hfoundId.symm)
        rw [hsame]
        exact List.mem_append_left _ List.mem_cons_self
    · exact List.mem_append_right _ holder
  have hone : ((rendered set.enforced).find? (·.id = id)).toList.length ≤ 1 := by
    cases (rendered set.enforced).find? (·.id = id) <;> simp
  calc (scriptsOf data id).length
      ≤ (((rendered set.enforced).find? (·.id = id)).toList.map scriptKey ++ older).length :=
        ((hnodup.filter _).subperm hsub).length_le
    _ = ((rendered set.enforced).find? (·.id = id)).toList.length + older.length := by
        rw [List.length_append, List.length_map]
    _ ≤ 1 + older.length := Nat.add_le_add_right hone _

private theorem kept_rendering (digest : String) :
    Kept ⟨renderConfigMapData wrapperSource set.enforced, digest, set.enforced, []⟩ where
  bridges := {
    own := fun policy hpolicy => set.wellFormed.getValue_scriptKey hpolicy.1
    before := fun policy hpolicy => by cases hpolicy.1
    two := by
      intro id
      exact scriptsOf_le [] nodup_rendering id (fun key hid hmem => Or.inl ((mem_keys_rendering hid).mp hmem))
        |>.trans (by decide) }
  wellFormed := set.wellFormed

theorem kept_merge {s : PolicyScripts} (h : Kept s) (digest : String) (hkept : KeptFirst (some s) (set, returned)) :
    Kept ⟨mergeGenerations (renderConfigMapData wrapperSource set.enforced) returned, digest, set.enforced,
      s.policies⟩ where
  bridges := {
    own := fun policy hpolicy =>
      getValue_mergeGenerations returned 2 (set.wellFormed.getValue_scriptKey hpolicy.1)
    before := by
      rintro policy hpolicy ⟨next, hnext, hid⟩
      obtain ⟨hbody, hscript⟩ := hkept s rfl policy hpolicy.1 hpolicy next hnext hid
      have hrendered : next ∈ rendered set.enforced :=
        mem_rendered.mpr ⟨hnext, (set.wellFormed.hashed next hnext).command, hbody⟩
      have hown := scriptKey_mem_rendering wrapperSource hrendered
      have hidOf := idOf_scriptKey (h.wellFormed.hashed policy (mem_rendered.mp hpolicy.1).1)
      rw [mem_keys_mergeGenerations hidOf]
      rcases hscript with hsame | hfirst
      · rw [← hsame]
        exact Or.inl hown
      · rw [← hid, ← staleOf_rendering wrapperSource hrendered] at hfirst
        refine Or.inr ⟨?_, by rw [← hid]; exact hfirst⟩
        obtain ⟨e, he, heq⟩ := List.mem_map.mp hown
        refine ⟨e, he, ?_⟩
        rw [heq, ← hid]
        exact idOf_scriptKey (set.wellFormed.hashed next hnext)
    two := by
      intro id
      have hkeys : ∀ key, idOf key = some (commandId id) →
          key ∈ (mergeGenerations (renderConfigMapData wrapperSource set.enforced) returned).map Prod.fst →
          (∃ policy ∈ rendered set.enforced, key = scriptKey policy) ∨
            key ∈ ((staleOf (renderConfigMapData wrapperSource set.enforced) returned
              (commandId id)).head?.map Prod.fst).toList := by
        intro key hid hmem
        rcases (mem_keys_mergeGenerations hid).mp hmem with hnew | ⟨-, hold⟩
        · exact Or.inl ((mem_keys_rendering hid).mp hnew)
        · exact Or.inr (Option.mem_toList.mpr hold)
      have hone : ∀ (older : Option String), older.toList.length ≤ 1 := by
        intro older
        cases older <;> simp
      calc (scriptsOf (mergeGenerations (renderConfigMapData wrapperSource set.enforced) returned) id).length
          ≤ 1 + _ := scriptsOf_le _ (nodup_mergeGenerations nodup_rendering) id hkeys
        _ ≤ 1 + 1 := Nat.add_le_add_left (hone _) 1 }
  wellFormed := set.wellFormed

end Steps

variable {wrapperSource : List Char}

theorem kept_ensure {s s' : Option PolicyScripts} {event : PolicySet × ConfigData} (h : ∀ stored ∈ s, Kept stored)
    (hkept : KeptFirst s event) (hstep : ensure wrapperSource s event = some s') : ∀ stored ∈ s', Kept stored := by
  cases s with
  | none =>
    cases hstep
    rintro _ ⟨⟩
    exact kept_rendering _
  | some stored =>
    obtain ⟨-, hwritten⟩ := Option.ite_none_right_eq_some.mp hstep
    by_cases hdigest : stored.digest = contentDigest (renderConfigMapData wrapperSource event.1.enforced)
    · rw [if_pos hdigest, Option.some.injEq] at hwritten
      rw [← hwritten]
      exact h
    · rw [if_neg hdigest, Option.some.injEq] at hwritten
      rw [← hwritten]
      rintro _ ⟨⟩
      exact kept_merge (h stored rfl) _ hkept

private theorem kept_run {events : List (PolicySet × ConfigData)} {s : Option PolicyScripts}
    (hkept : RunMeets (ensure wrapperSource) KeptFirst none events)
    (hrun : run (ensure wrapperSource) none events = some s) : ∀ stored ∈ s, Kept stored := by
  have hstart : ∀ stored ∈ (none : Option PolicyScripts), Kept stored := by
    rintro _ ⟨⟩
  exact run_invariant (fun _ _ _ h hc hs => kept_ensure h hc hs) hstart hkept hrun

/-- While each edit keeps the scripts of the settings before it first, every map that is stored bridges its edit. -/
theorem bridges_of_keptFirst {events : List (PolicySet × ConfigData)} {s : PolicyScripts}
    (hrun : run (ensure wrapperSource) none events = some (some s))
    (hkept : RunMeets (ensure wrapperSource) KeptFirst none events) : s.Bridges :=
  (kept_run hkept hrun s rfl).bridges

def guardHook (body : String) : HookPolicy where
  id := "no-rm"
  events := ["PreToolUse"]
  interpreter := "bash"
  scriptBody := body
  contentHash := String.ofList (Sha256.hexdigest body.toList)
  enabled := true
  enforced := true
  enforcedEvents := ["PreToolUse"]

def guardSet (body : String) : PolicySet where
  rows := [guardHook body]
  ids := List.nodup_singleton _
  hashed := by
    intro policy hpolicy
    rw [List.mem_singleton.mp hpolicy]
    rfl

def guardRendering (body : String) : ConfigData := renderConfigMapData [] (guardSet body).enforced

private theorem enforced_guardSet (body : String) : (guardSet body).enforced = [guardHook body] := rfl

private theorem guardHook_eq {body hash : String} (h : String.ofList (Sha256.hexdigest body.toList) = hash) :
    guardHook body =
      ⟨"no-rm", "command", ["PreToolUse"], "", 30, "bash", body, hash, [], true, true, ["PreToolUse"]⟩ := by
  rw [← h]
  rfl

private theorem guardHash : String.ofList (Sha256.hexdigest "exit 0".toList) =
      "c22995adc29757a99bc9242926a5d5b5a8007ecc78f30943161cf072af42d9d2" ∧
    String.ofList (Sha256.hexdigest "exit 1".toList) =
      "1a21be8bb1dc4721d30cc1850ead617faa55ae9aebf416da4369668bdeaf0824" ∧
    String.ofList (Sha256.hexdigest "exit 2".toList) =
      "caf36839a4dea5e14d2ca7318df3e5419a72d683a222a36cbe55d3cdf9b56b53" := by decide +kernel

private theorem contentDigest_guardRendering :
    contentDigest (guardRendering "exit 0") ≠ contentDigest (guardRendering "exit 1") ∧
      contentDigest (guardRendering "exit 1") ≠ contentDigest (guardRendering "exit 2") := by
  have hone : contentDigest (guardRendering "exit 1") =
      "8796bc306c4b0c712a6faab011459dfa5f4857a69f65dff0b95926583bbe8ee0" := by
    rw [guardRendering, enforced_guardSet, guardHook_eq guardHash.2.1]
    decide +kernel
  rw [hone, guardRendering, guardRendering, enforced_guardSet, enforced_guardSet, guardHook_eq guardHash.1,
    guardHook_eq guardHash.2.2]
  constructor <;> decide +kernel

def secondMap (returned : ConfigData) : ConfigData := mergeGenerations (guardRendering "exit 1") returned

section Edits

variable {second third : ConfigData}

def afterSecond (second : ConfigData) : PolicyScripts :=
  ⟨secondMap second, contentDigest (guardRendering "exit 1"), (guardSet "exit 1").enforced, (guardSet "exit 0").enforced⟩

def afterThird (third : ConfigData) : PolicyScripts :=
  ⟨mergeGenerations (guardRendering "exit 2") third, contentDigest (guardRendering "exit 2"),
    (guardSet "exit 2").enforced, (guardSet "exit 1").enforced⟩

private theorem ensure_second (h : second.Perm (guardRendering "exit 0")) :
    ensure [] (some ⟨guardRendering "exit 0", contentDigest (guardRendering "exit 0"), (guardSet "exit 0").enforced, []⟩)
      (guardSet "exit 1", second) = some (some (afterSecond second)) :=
  (if_pos h).trans (if_neg contentDigest_guardRendering.1)

private theorem ensure_third (h : third.Perm (secondMap second)) :
    ensure [] (some (afterSecond second)) (guardSet "exit 2", third) = some (some (afterThird third)) :=
  (if_pos h).trans (if_neg contentDigest_guardRendering.2)

private theorem run_edits (hsecond : second.Perm (guardRendering "exit 0")) (hthird : third.Perm (secondMap second)) :
    run (ensure []) none [(guardSet "exit 0", []), (guardSet "exit 1", second), (guardSet "exit 2", third)] =
      some (some (afterThird third)) := by
  refine run_cons_eq_some.mpr ⟨_, rfl, run_cons_eq_some.mpr ⟨_, ensure_second hsecond, ?_⟩⟩
  exact run_cons_eq_some.mpr ⟨_, ensure_third hthird, rfl⟩

end Edits

theorem bridges_edits : run (ensure []) none [(guardSet "exit 0", []), (guardSet "exit 1", guardRendering "exit 0"),
      (guardSet "exit 2", secondMap (guardRendering "exit 0"))] =
        some (some (afterThird (secondMap (guardRendering "exit 0")))) ∧
    (afterThird (secondMap (guardRendering "exit 0"))).Bridges := by
  have hrun := run_edits (.refl (guardRendering "exit 0")) (.refl (secondMap (guardRendering "exit 0")))
  refine ⟨hrun, bridges_of_keptFirst hrun ((runMeets_cons rfl).mpr ⟨by rintro _ ⟨⟩, ?_⟩)⟩
  refine (runMeets_cons (ensure_second (.refl _))).mpr ⟨?_, (runMeets_cons (ensure_third (.refl _))).mpr ⟨?_, trivial⟩⟩
  · simp only [KeptFirst, guardRendering, enforced_guardSet, guardHook_eq guardHash.1, guardHook_eq guardHash.2.1]
    decide +kernel
  · simp only [KeptFirst, afterSecond, secondMap, guardRendering, enforced_guardSet, guardHook_eq guardHash.1,
      guardHook_eq guardHash.2.1, guardHook_eq guardHash.2.2]
    decide +kernel

/-- Where the oldest script comes first in the map, the third edit drops the second script. -/
theorem not_bridges : run (ensure []) none [(guardSet "exit 0", []), (guardSet "exit 1", guardRendering "exit 0"),
      (guardSet "exit 2", (secondMap (guardRendering "exit 0")).reverse)] =
        some (some (afterThird (secondMap (guardRendering "exit 0")).reverse)) ∧
    ¬ (afterThird (secondMap (guardRendering "exit 0")).reverse).Bridges := by
  refine ⟨run_edits (.refl _) (List.reverse_perm _), fun h => ?_⟩
  have hnamed : NamedBy [guardHook "exit 1"] (guardHook "exit 1") := by
    rw [guardHook_eq guardHash.2.1]
    decide +kernel
  have hbefore := h.before (guardHook "exit 1") hnamed ⟨guardHook "exit 2", List.mem_singleton_self _, rfl⟩
  revert hbefore
  simp only [afterThird, secondMap, guardRendering, enforced_guardSet, guardHook_eq guardHash.1, guardHook_eq guardHash.2.1,
    guardHook_eq guardHash.2.2]
  decide +kernel

end PolicyScripts

end PrivaCloud.Operator
