import PrivaCloud.DataSpine.HookPolicies

/-!
# Where hooks are active

Every row that the calls of `HookPolicyService` leave is normal: its columns of the activation agree, and its
hash is that of its script.
-/

namespace PrivaCloud.DataSpine

open Framework

namespace HookPolicy

/-- The events enforced are events, in their order; `enforced` and `enabled` follow from them. -/
structure Normal (policy : HookPolicy) : Prop where
  ordered : policy.enforcedEvents.Sublist policy.events
  derived : policy.enforced = true ↔ policy.enforcedEvents ≠ []
  armed : policy.enforced = true → policy.enabled = true
  hashed : policy.contentHash = contentHashOf policy.scriptBody

section Columns

variable {policy row other merged : HookPolicy} {c c' : HookColumn} {mask : List HookColumn}

private theorem columns_set_self (value : c.type) : (policy.set c value).columns c = value := Function.update_self ..

private theorem columns_set_of_ne (value : c.type) (h : c' ≠ c) : (policy.set c value).columns c' = policy.columns c' :=
  Function.update_of_ne h ..

theorem columns_withColumns_of_mem (h : c ∈ mask) : (row.withColumns mask other).columns c = other.columns c := if_pos h

theorem columns_withColumns_of_notMem (h : c ∉ mask) : (row.withColumns mask other).columns c = row.columns c := if_neg h

private theorem mem_addTo {extra : HookColumn} : c ∈ addTo mask extra ↔ c ∈ mask ∨ c = extra := by
  unfold addTo
  split
  · rename_i hmem
    exact ⟨Or.inl, fun h => h.elim (fun hold => hold) fun heq => heq ▸ hmem⟩
  · rw [List.mem_append, List.mem_singleton]

theorem columns_clamped (h : c ∉ HookColumn.activation) : (merged.clamped mask).columns c = merged.columns c := by
  have hne : c ≠ .enforced ∧ c ≠ .enforcedEvents := by
    refine ⟨?_, ?_⟩
    · rintro rfl
      exact h (by decide)
    · rintro rfl
      exact h (by decide)
  rw [clamped, columns_set_of_ne _ hne.1, columns_set_of_ne _ hne.2]

private theorem events_clamped : (merged.clamped mask).events = merged.events := columns_clamped (by decide)

private theorem enforcedEvents_clamped :
    (merged.clamped mask).enforcedEvents = merged.events.filter fun event => event ∈ merged.wantedEvents mask := by
  rw [enforcedEvents, clamped, columns_set_of_ne _ (by decide), columns_set_self]

theorem enforced_clamped : (merged.clamped mask).enforced = true ↔ (merged.clamped mask).enforcedEvents ≠ [] := by
  rw [enforcedEvents_clamped, enforced, clamped, columns_set_self]
  simp

private theorem columns_normalizeActivation (h : c ∉ HookColumn.activation) :
    (merged.normalizeActivation mask).1.columns c = merged.columns c := by
  have hne : c ≠ .enabled := by
    rintro rfl
    exact h (by decide)
  unfold normalizeActivation
  simp only
  split
  · exact (columns_set_of_ne _ hne).trans (columns_clamped h)
  · exact columns_clamped h

private theorem normalizeActivation_agree (merged : HookPolicy) (mask : List HookColumn) :
    let normalized := (merged.normalizeActivation mask).1
    normalized.enforcedEvents.Sublist normalized.events ∧ (normalized.enforced = true ↔ normalized.enforcedEvents ≠ []) ∧
      (normalized.enforced = true → normalized.enabled = true) := by
  have hsub : (merged.clamped mask).enforcedEvents.Sublist (merged.clamped mask).events := by
    rw [enforcedEvents_clamped, events_clamped]
    exact List.filter_sublist
  unfold normalizeActivation
  simp only
  split
  · have hevents : ((merged.clamped mask).set .enabled true).events = (merged.clamped mask).events :=
      columns_set_of_ne _ (by decide)
    have henforcedEvents : ((merged.clamped mask).set .enabled true).enforcedEvents =
        (merged.clamped mask).enforcedEvents := columns_set_of_ne _ (by decide)
    have henforced : ((merged.clamped mask).set .enabled true).enforced = (merged.clamped mask).enforced :=
      columns_set_of_ne _ (by decide)
    rw [hevents, henforcedEvents, henforced]
    exact ⟨hsub, enforced_clamped, fun _ => columns_set_self _⟩
  · rename_i harmed
    refine ⟨hsub, enforced_clamped, fun henforced => ?_⟩
    by_contra hdisabled
    exact harmed ⟨henforced, by simpa using hdisabled⟩

private theorem mem_mask_normalizeActivation (h : c ∉ (merged.normalizeActivation mask).2) :
    c ∉ mask ∧ (merged.normalizeActivation mask).1.columns c = merged.columns c := by
  unfold normalizeActivation at h ⊢
  simp only at h ⊢
  have hout : ∀ c, c ∉ addTo (addTo mask .enforcedEvents) .enforced → c ∉ mask ∧ c ≠ .enforcedEvents ∧ c ≠ .enforced := by
    intro c hc
    rw [mem_addTo, mem_addTo, not_or, not_or] at hc
    exact ⟨hc.1.1, hc.1.2, hc.2⟩
  split at h
  · rename_i hset
    rw [mem_addTo, not_or] at h
    obtain ⟨hmask, hevents, henforced⟩ := hout c h.1
    rw [if_pos hset]
    refine ⟨hmask, ?_⟩
    rw [columns_set_of_ne _ h.2, clamped, columns_set_of_ne _ henforced, columns_set_of_ne _ hevents]
  · rename_i hset
    obtain ⟨hmask, hevents, henforced⟩ := hout c h
    rw [if_neg hset]
    refine ⟨hmask, ?_⟩
    rw [clamped, columns_set_of_ne _ henforced, columns_set_of_ne _ hevents]

end Columns

end HookPolicy

namespace HookPolicies

open HookPolicy

variable {s : HookPolicies} {row policy : HookPolicy} {updateMask : List String} {now : String}

def updatedRow (row policy : HookPolicy) (updateMask : List String) (now : String) : HookPolicy :=
  { row.withColumns (merged row policy updateMask).2 (merged row policy updateMask).1 with
    contentHash := if .scriptBody ∈ (merged row policy updateMask).2 then
        contentHashOf (merged row policy updateMask).1.scriptBody else row.contentHash
    updatedAt := now }

private theorem columns_updatedRow (c : HookColumn) :
    (updatedRow row policy updateMask now).columns c = (merged row policy updateMask).1.columns c := by
  have hwritten : (updatedRow row policy updateMask now).columns c =
      (row.withColumns (merged row policy updateMask).2 (merged row policy updateMask).1).columns c := rfl
  rw [hwritten]
  by_cases hc : c ∈ (merged row policy updateMask).2
  · exact columns_withColumns_of_mem hc
  · obtain ⟨hmask, hcolumns⟩ := mem_mask_normalizeActivation hc
    rw [columns_withColumns_of_notMem hc, merged, hcolumns, columns_withColumns_of_notMem hmask]

private theorem normal_updatedRow (h : row.Normal) : (updatedRow row policy updateMask now).Normal := by
  obtain ⟨hordered, hderived, harmed⟩ :=
    normalizeActivation_agree (row.withColumns (maskOf updateMask) policy) (maskOf updateMask)
  refine ⟨?_, ?_, ?_, ?_⟩
  · rw [enforcedEvents, events, columns_updatedRow, columns_updatedRow]
    exact hordered
  · rw [enforced, enforcedEvents, columns_updatedRow, columns_updatedRow]
    exact hderived
  · rw [enforced, enabled, columns_updatedRow, columns_updatedRow]
    exact harmed
  · have hhash : (updatedRow row policy updateMask now).contentHash =
        if HookColumn.scriptBody ∈ (merged row policy updateMask).2 then
          contentHashOf (merged row policy updateMask).1.scriptBody else row.contentHash := rfl
    rw [hhash]
    split
    · rw [scriptBody, scriptBody, columns_updatedRow]
    · rename_i hscript
      have hkept : (updatedRow row policy updateMask now).scriptBody = row.scriptBody :=
        columns_withColumns_of_notMem hscript
      rw [hkept, h.hashed]

private theorem normal_created : (created policy now).Normal := by
  obtain ⟨hordered, hderived, harmed⟩ := normalizeActivation_agree
    (if policy.enforcedEvents = [] ∧ (policy.enforced || policy.enabled) then
      policy.set .enforcedEvents policy.events else policy) (HookColumn.writable.map Prod.snd)
  exact ⟨hordered, hderived, harmed, rfl⟩

theorem normal_seed {seed : HookSeed} (h : seed.enforced = true → seed.events ≠ []) (now : String) : (seed.row now).Normal where
  ordered := by
    change seed.enforcedEvents.Sublist seed.events
    unfold HookSeed.enforcedEvents
    split
    · exact List.Sublist.refl _
    · exact List.nil_sublist _
  derived := by
    change seed.enforced = true ↔ seed.enforcedEvents ≠ []
    unfold HookSeed.enforcedEvents
    split
    · rename_i henforced
      exact iff_of_true henforced (h henforced)
    · rename_i henforced
      exact iff_of_false henforced fun hne => hne rfl
  armed := fun _ => rfl
  hashed := rfl

def upgradedRow (row : HookPolicy) (seed : HookSeed) (now : String) : HookPolicy :=
  { row.withColumns HookSeed.upgraded ((seed.row now).set .updatedBy "seed-upgrade") with
    contentHash := seed.hash
    seedVersion := seed.seedVersion
    updatedAt := now }

private theorem normal_upgradedRow {seed : HookSeed} (h : seed.enforced = true → seed.events ≠ []) :
    (upgradedRow row seed now).Normal := by
  have hcolumns : ∀ c ∈ HookSeed.upgraded, c ≠ .updatedBy →
      (upgradedRow row seed now).columns c = (seed.row now).columns c := by
    intro c hc hne
    exact (columns_withColumns_of_mem hc).trans (columns_set_of_ne _ hne)
  obtain ⟨hordered, hderived, harmed, hhashed⟩ := normal_seed h now
  refine ⟨?_, ?_, ?_, ?_⟩
  · rw [enforcedEvents, events, hcolumns _ (by decide) (by decide), hcolumns _ (by decide) (by decide)]
    exact hordered
  · rw [enforced, enforcedEvents, hcolumns _ (by decide) (by decide), hcolumns _ (by decide) (by decide)]
    exact hderived
  · rw [enforced, enabled, hcolumns _ (by decide) (by decide), hcolumns _ (by decide) (by decide)]
    exact harmed
  · rw [scriptBody, hcolumns _ (by decide) (by decide)]
    exact hhashed

/-- Rows stay normal, and what is predefined stays. -/
structure Leaves (s s' : HookPolicies) : Prop where
  normal : (∀ row ∈ s.rows, row.Normal) → ∀ row ∈ s'.rows, row.Normal
  predefined : ∀ policyId row, s.find? policyId = some row → row.predefined = true →
    ∃ row', s'.find? policyId = some row' ∧ row'.predefined = true

variable {s' s'' : HookPolicies} {seed : HookSeed}

private theorem Leaves.refl (s : HookPolicies) : Leaves s s where
  normal := fun h => h
  predefined := fun _ row hrow hpredefined => ⟨row, hrow, hpredefined⟩

private theorem Leaves.trans (h : Leaves s s') (h' : Leaves s' s'') : Leaves s s'' where
  normal := fun hnormal => h'.normal (h.normal hnormal)
  predefined := by
    intro policyId row hrow hpredefined
    obtain ⟨row', hrow', hpredefined'⟩ := h.predefined policyId row hrow hpredefined
    exact h'.predefined policyId row' hrow' hpredefined'

private theorem Leaves.write (hnormal : (∀ row ∈ s.rows, row.Normal) → row.Normal)
    (hpredefined : ∀ old, s.find? row.id = some old → old.predefined = true → row.predefined = true) :
    Leaves s (Table.upsert s row) where
  normal := by
    intro hall other hother
    rcases Table.mem_upsert.mp hother with rfl | ⟨hold, -⟩
    · exact hnormal hall
    · exact hall other hold
  predefined := by
    intro policyId old hold hpredefined'
    rw [Table.find?_upsert]
    split
    · rename_i heq
      exact ⟨row, rfl, hpredefined old (heq ▸ hold) hpredefined'⟩
    · exact ⟨old, hold, hpredefined'⟩

private theorem Leaves.insert (hnormal : row.Normal) (hinsert : s.hookPolicyInsert row = some s') : Leaves s s' := by
  unfold hookPolicyInsert at hinsert
  split at hinsert
  · refine ⟨?_, ?_⟩
    · intro hall other hother
      rw [Table.insert_rows hinsert, List.mem_append, List.mem_singleton] at hother
      rcases hother with hold | rfl
      · exact hall other hold
      · exact hnormal
    · intro policyId old hold hpredefined
      rw [Table.find?_insert hinsert]
      split
      · rename_i heq
        have hfree := (Table.insert_isNone (t := s) (r := row)).mpr ⟨old, heq ▸ hold⟩
        rw [hinsert] at hfree
        cases hfree
      · exact ⟨old, hold, hpredefined⟩
  · cases hinsert

theorem hookPolicyUpdate_merged : s.hookPolicyUpdate row (merged row policy updateMask).1 (merged row policy updateMask).2 now =
    if admissible (updatedRow row policy updateMask now) then some (Table.upsert s (updatedRow row policy updateMask now))
    else none := rfl

private theorem leaves_upsert (policy : HookPolicy) (updateMask : List String) (expect now : String) :
    Leaves s (s.upsert policy updateMask expect now).2 := by
  unfold upsert
  split
  · split
    · exact Leaves.refl s
    · cases hinsert : s.hookPolicyInsert (created policy now) with
      | none => exact Leaves.refl s
      | some s' => exact Leaves.insert normal_created hinsert
  · rename_i row hrow
    split
    · exact Leaves.refl s
    · rw [hookPolicyUpdate_merged]
      split
      · have hid : (updatedRow row policy updateMask now).id = policy.id := (Table.key_of_find? hrow : row.id = _)
        refine Leaves.write (fun hall => normal_updatedRow (hall row (Table.mem_of_find? hrow))) ?_
        intro old hold hpredefined
        rw [hid, hrow] at hold
        cases hold
        exact hpredefined
      · exact Leaves.refl s

private theorem leaves_delete (policyId : String) : Leaves s (s.delete policyId).2 := by
  unfold delete
  split
  · exact Leaves.refl s
  · rename_i row hrow
    split
    · exact Leaves.refl s
    · rename_i hfree
      refine ⟨fun hall other hother => hall other (List.mem_of_mem_filter hother), ?_⟩
      intro other old hold hpredefined
      have hne : other ≠ policyId := by
        rintro rfl
        rw [hrow] at hold
        cases hold
        exact hfree hpredefined
      have hfind := Table.find?_filter s (fun policyId' => decide (policyId' ≠ policyId)) other
      rw [if_pos (decide_eq_true hne)] at hfind
      exact ⟨old, hfind.trans hold, hpredefined⟩

private theorem leaves_seedOne (now : String) (hevents : seed.enforced = true → seed.events ≠ []) :
    Leaves s (seedOne now s seed) := by
  unfold seedOne
  split
  · cases hinsert : s.hookPolicyInsert (seed.row now) with
    | none => exact Leaves.refl s
    | some s' => exact Leaves.insert (normal_seed hevents now) hinsert
  · rename_i row hrow
    split
    · simp only
      split
      · have hid : (upgradedRow row seed now).id = seed.id := (Table.key_of_find? hrow : row.id = _)
        have hwrite : Leaves s (Table.upsert s (upgradedRow row seed now)) := by
          refine Leaves.write (fun _ => normal_upgradedRow hevents) ?_
          intro old hold hpredefined
          rw [hid, hrow] at hold
          cases hold
          exact hpredefined
        exact hwrite
      · exact Leaves.refl s
    · exact Leaves.refl s

private theorem leaves_seeds (now : String) {seeds : List HookSeed}
    (hevents : ∀ seed ∈ seeds, seed.enforced = true → seed.events ≠ []) : Leaves s (seeds.foldl (seedOne now) s) := by
  induction seeds generalizing s with
  | nil => exact Leaves.refl s
  | cons seed seeds ih =>
    obtain ⟨hseed, hseeds⟩ := List.forall_mem_cons.mp hevents
    exact (leaves_seedOne now hseed).trans (ih hseeds)

end HookPolicies

open HookPolicies

theorem hookSeeds_events (body : String → String) : ∀ seed ∈ hookSeeds body, seed.enforced = true → seed.events ≠ [] := by
  simp [hookSeeds]

variable {body : String → String} {s : HookPolicies}

private theorem leaves_hookCall (op : HookOp) : Leaves s (hookCall body s op).2 := by
  cases op with
  | upsert policy updateMask expect now => exact leaves_upsert policy updateMask expect now
  | delete policyId => exact leaves_delete policyId
  | seed now => exact leaves_seeds now (hookSeeds_events body)

private theorem leaves_hookRun (ops : List HookOp) : Leaves s (hookRun body s ops) := by
  induction ops generalizing s with
  | nil => exact Leaves.refl s
  | cons op ops ih => exact (leaves_hookCall op).trans ih

private theorem hookCall_raises {op : HookOp} {e : HookError} (h : (hookCall body s op).1 = .error e) :
    (hookCall body s op).2 = s := by
  have hfinish : ∀ policyId result, (s.finish policyId result).1 = .error e → (s.finish policyId result).2 = s := by
    intro policyId result hraises
    cases result with
    | none => rfl
    | some s' => cases hraises
  cases op with
  | upsert policy updateMask expect now =>
    simp only [hookCall, HookPolicies.upsert] at h ⊢
    split at h
    · split at h
      · rename_i hupdate
        rw [if_pos hupdate]
      · rename_i hupdate
        rw [if_neg hupdate]
        exact hfinish _ _ h
    · split at h
      · rename_i hcreate
        rw [if_pos hcreate]
      · rename_i hcreate
        rw [if_neg hcreate]
        exact hfinish _ _ h
  | delete policyId =>
    simp only [hookCall, HookPolicies.delete] at h ⊢
    split at h
    · rfl
    · split at h
      · rename_i hpredefined
        rw [if_pos hpredefined]
      · cases h
  | seed now => cases h

/-- Nothing but the columns that a mask names and those of the activation has changed, the hash and the time
stamp apart. -/
structure Within (updateMask : List String) (row row' : HookPolicy) : Prop where
  columns : ∀ c, c ∉ named updateMask → c ∉ HookColumn.activation → row'.columns c = row.columns c
  id : row'.id = row.id
  predefined : row'.predefined = row.predefined
  seedVersion : row'.seedVersion = row.seedVersion

private theorem within_updatedRow {row policy : HookPolicy} {updateMask : List String} {now : String}
    (hnamed : named updateMask ≠ []) : Within updateMask row (updatedRow row policy updateMask now) where
  columns := by
    intro c hmask hactivation
    rw [columns_updatedRow, merged, HookPolicy.columns_normalizeActivation hactivation]
    exact HookPolicy.columns_withColumns_of_notMem (by rwa [maskOf, if_neg hnamed])
  id := rfl
  predefined := rfl
  seedVersion := rfl

private theorem upsert_within {row policy : HookPolicy} {updateMask : List String} {expect now : String}
    (hrow : s.find? policy.id = some row) (hnamed : named updateMask ≠ []) (policyId : String) :
    (s.upsert policy updateMask expect now).2.find? policyId = s.find? policyId ∨
      policyId = policy.id ∧ ∃ row', (s.upsert policy updateMask expect now).2.find? policyId = some row' ∧
        Within updateMask row row' := by
  have hid : (updatedRow row policy updateMask now).id = policy.id := (Table.key_of_find? hrow : row.id = _)
  simp only [HookPolicies.upsert, hrow]
  split
  · exact Or.inl rfl
  · rw [hookPolicyUpdate_merged]
    split
    · simp only [finish]
      rw [Table.find?_upsert, hid]
      split
      · rename_i heq
        exact Or.inr ⟨heq.symm, _, rfl, within_updatedRow hnamed⟩
      · exact Or.inl rfl
    · exact Or.inl rfl

/-- From normal rows, whatever is called: the rows are normal, what was predefined is there, a call that raises
changes nothing, and an update whose mask names a column keeps to its mask. -/
theorem hookPolicies_kept (body : String → String) {start : HookPolicies} (hstart : ∀ row ∈ start.rows, row.Normal)
    (ops : List HookOp) :
    (∀ row ∈ (hookRun body start ops).rows, row.Normal) ∧
    (∀ policyId row, start.find? policyId = some row → row.predefined = true →
      ∃ row', (hookRun body start ops).find? policyId = some row' ∧ row'.predefined = true) ∧
    (∀ op e, (hookCall body (hookRun body start ops) op).1 = .error e →
      (hookCall body (hookRun body start ops) op).2 = hookRun body start ops) ∧
    ∀ policy updateMask expect now row, (hookRun body start ops).find? policy.id = some row → named updateMask ≠ [] →
      ∀ policyId, ((hookRun body start ops).upsert policy updateMask expect now).2.find? policyId =
          (hookRun body start ops).find? policyId ∨
        policyId = policy.id ∧ ∃ row', ((hookRun body start ops).upsert policy updateMask expect now).2.find? policyId =
          some row' ∧ Within updateMask row row' := by
  have hleaves : Leaves start (hookRun body start ops) := leaves_hookRun ops
  refine ⟨hleaves.normal hstart, hleaves.predefined, fun op e hraises => hookCall_raises hraises, ?_⟩
  intro policy updateMask expect now row hrow hnamed policyId
  exact upsert_within hrow hnamed policyId

/-- A policy of a client that fills in what it is asked for -/
def notifyPolicy (name matcher : String) : HookPolicy where
  id := "notify"
  columns
    | .hookType => "http"
    | .name => name
    | .description => "notify"
    | .events => ["Stop"]
    | .matcher => matcher
    | .timeoutSeconds => (5 : Int)
    | .url => "https://hooks.internal/notify"
    | .allowedEnvVars | .enforcedEvents => ([] : List String)
    | .enabled | .enforced | .defaultOn => false
    | .interpreter | .scriptBody | .headersJson | .mcpServer | .mcpTool | .target | .updatedBy => ""
  contentHash := ""
  predefined := false
  seedVersion := 0
  updatedAt := ""

/-- The row of an earlier release, whose script nobody has edited -/
def oldSeedRow : HookPolicy := { (hookSeeds fun _ => "")[0].row "t0" with seedVersion := 1 }

def oldTable : HookPolicies := { rows := [oldSeedRow] }

theorem hookPolicies_kept_oldTable : (∀ row ∈ (hookRun (fun _ => "") oldTable [.seed "t1"]).rows, row.Normal) ∧
      ∃ row', (hookRun (fun _ => "") oldTable [.seed "t1"]).find? "block-dangerous-bash" = some row' ∧
        row'.predefined = true := by
  have hnormal : ∀ row ∈ oldTable.rows, row.Normal := by
    intro row hrow
    rw [List.mem_singleton.mp hrow]
    obtain ⟨hordered, hderived, harmed, hhashed⟩ :=
      normal_seed (hookSeeds_events (fun _ => "") _ (List.getElem_mem (by decide : 0 < 4))) "t0"
    exact ⟨hordered, hderived, harmed, hhashed⟩
  obtain ⟨hrows, hpredefined, -⟩ := hookPolicies_kept (fun _ => "") hnormal [.seed "t1"]
  exact ⟨hrows, hpredefined _ oldSeedRow rfl rfl⟩

/-- An update stamps the row; a mask that names no column writes all of them. -/
theorem notifyPolicy_not_within :
    let s := hookRun (fun _ => "") {} [.upsert (notifyPolicy "Notify" "Bash") [] "create" "t0"]
    ((s.find? "notify").map (·.updatedAt) = some "t0" ∧
      ((s.upsert (notifyPolicy "Tell" "Bash") ["name"] "update" "t1").2.find? "notify").map (·.updatedAt) = some "t1") ∧
    ((s.find? "notify").map (·.columns .matcher) = some "Bash" ∧
      ((s.upsert (notifyPolicy "Tell" "") ["tool_matcher"] "update" "t1").2.find? "notify").map (·.columns .matcher) =
        some "") := by
  decide

end PrivaCloud.DataSpine
