import PrivaCloud.DataSpine.HookActivation

/-!
# The built-in policies over restarts

`HookPolicyService._seed` runs whenever data-spine starts. A second run finds nothing to do, and none touches
a row that somebody has edited.
-/

namespace PrivaCloud.DataSpine

open Framework

namespace HookPolicies

variable {s : HookPolicies} {seed : HookSeed} {seeds : List HookSeed} {now now' id : String}

def Outdated (seed : HookSeed) (row : HookPolicy) : Prop :=
  (row.seedVersion < seed.seedVersion ∧ row.contentHash ∈ seed.knownHashes) ∧ admissible row = true

instance (seed : HookSeed) (row : HookPolicy) : Decidable (Outdated seed row) := inferInstanceAs (Decidable (_ ∧ _))

def refreshed (now : String) (seed : HookSeed) : Option HookPolicy → HookPolicy
  | none => seed.row now
  | some row => if Outdated seed row then upgradedRow row seed now else row

theorem admissible_upgradedRow (row : HookPolicy) (seed : HookSeed) (now : String) :
    admissible (upgradedRow row seed now) = admissible row := rfl

theorem not_outdated_refreshed (now : String) (seed : HookSeed) (old : Option HookPolicy) :
    ¬ Outdated seed (refreshed now seed old) := by
  intro h
  cases old with
  | none => exact Int.lt_irrefl _ h.1.1
  | some row =>
    by_cases hold : Outdated seed row
    · simp only [refreshed, if_pos hold] at h
      exact Int.lt_irrefl _ h.1.1
    · simp only [refreshed, if_neg hold] at h
      exact hold h

theorem seedOne_of_some {row : HookPolicy} (hrow : s.find? seed.id = some row) :
    seedOne now s seed = if Outdated seed row then Table.upsert s (upgradedRow row seed now) else s := by
  unfold seedOne
  rw [hrow]
  change (if _ then if admissible (upgradedRow row seed now) then Table.upsert s (upgradedRow row seed now) else s
    else s) = _
  by_cases hold : row.seedVersion < seed.seedVersion ∧ row.contentHash ∈ seed.knownHashes
  · rw [if_pos hold, admissible_upgradedRow]
    simp only [Outdated, hold, true_and]
  · rw [if_neg hold, if_neg fun h => hold h.1]

theorem find?_seedOne (now : String) (s : HookPolicies) (seed : HookSeed) (id : String) :
    (seedOne now s seed).find? id =
      if seed.id = id then some (refreshed now seed (s.find? seed.id)) else s.find? id := by
  cases hrow : s.find? seed.id with
  | none =>
    have hinsert : ∃ s', s.hookPolicyInsert (seed.row now) = some s' := by
      rw [hookPolicyInsert, if_pos (by rfl), ← Option.isSome_iff_exists, Option.isSome_iff_ne_none]
      intro hnone
      obtain ⟨row, hfound⟩ := Table.insert_isNone.mp hnone
      exact absurd (hfound.symm.trans hrow) (by simp)
    obtain ⟨s', hs'⟩ := hinsert
    have hseed : seedOne now s seed = s' := by
      unfold seedOne
      rw [hrow]
      exact congrArg (·.getD s) hs'
    rw [hookPolicyInsert, if_pos (by rfl)] at hs'
    rw [hseed, Table.find?_insert hs']
    rfl
  | some row =>
    have hid : (upgradedRow row seed now).id = seed.id := (Table.key_of_find? hrow : row.id = _)
    rw [seedOne_of_some hrow]
    unfold refreshed
    by_cases hold : Outdated seed row
    · simp only [if_pos hold, Table.find?_upsert, hid]
    · simp only [if_neg hold]
      split
      · rename_i heq
        exact heq ▸ hrow
      · rfl

theorem find?_seeds (hids : (seeds.map HookSeed.id).Nodup) (now : String) (s : HookPolicies) :
    (∀ seed ∈ seeds, (seeds.foldl (seedOne now) s).find? seed.id = some (refreshed now seed (s.find? seed.id))) ∧
      ∀ id, (∀ seed ∈ seeds, seed.id ≠ id) → (seeds.foldl (seedOne now) s).find? id = s.find? id := by
  induction seeds generalizing s with
  | nil => exact ⟨fun _ h => absurd h List.not_mem_nil, fun _ _ => rfl⟩
  | cons first seeds ih =>
    obtain ⟨hfirst, hids⟩ := List.nodup_cons.mp hids
    obtain ⟨hseeded, hother⟩ := ih hids (seedOne now s first)
    have hne : ∀ seed ∈ seeds, seed.id ≠ first.id := fun seed hseed heq =>
      hfirst (heq ▸ List.mem_map_of_mem hseed)
    rw [List.foldl_cons]
    refine ⟨List.forall_mem_cons.mpr ⟨?_, ?_⟩, ?_⟩
    · rw [hother _ hne, find?_seedOne, if_pos rfl]
    · intro seed hseed
      rw [hseeded seed hseed, find?_seedOne, if_neg (hne seed hseed).symm]
    · intro id hid
      obtain ⟨hfirst, hrest⟩ := List.forall_mem_cons.mp hid
      rw [hother id hrest, find?_seedOne, if_neg hfirst]

theorem seeds_again (hids : (seeds.map HookSeed.id).Nodup) (now now' : String) (s : HookPolicies) :
    seeds.foldl (seedOne now') (seeds.foldl (seedOne now) s) = seeds.foldl (seedOne now) s := by
  obtain ⟨hseeded, -⟩ := find?_seeds hids now s
  refine List.foldlRecOn (motive := fun t => t = seeds.foldl (seedOne now) s) seeds _ rfl ?_
  rintro t rfl seed hseed
  rw [seedOne_of_some (hseeded seed hseed), if_neg (not_outdated_refreshed now seed _)]

end HookPolicies

open HookPolicies

theorem nodup_hookSeeds (body : String → String) : ((hookSeeds body).map HookSeed.id).Nodup := by
  change List.Nodup ["block-dangerous-bash", "audit-tool-use", "lint-on-write", "require-permission-risky-tools"]
  decide

variable {body : String → String} {s : HookPolicies} {now : String}

/-- However often data-spine starts again, the table is as the first start has left it. -/
theorem hookRun_restarts (body : String → String) (s : HookPolicies) (now : String) (restarts : List String) :
    hookRun body s (.seed now :: restarts.map .seed) = hookRun body s [.seed now] := by
  induction restarts with
  | nil => rfl
  | cons next restarts ih =>
    have hseed (t : HookPolicies) (next : String) (ops : List HookOp) :
        hookRun body t (.seed next :: ops) = hookRun body ((hookSeeds body).foldl (seedOne next) t) ops := rfl
    rw [List.map_cons, hseed, hseed, seeds_again (nodup_hookSeeds body), ← hseed, ih]

/-- A start leaves the rows that are not its own, and those with a script of nobody's release. -/
theorem hookRun_seed_keeps {id : String} {row : HookPolicy} (hrow : s.find? id = some row)
    (hedited : ∀ seed ∈ hookSeeds body, seed.id = id → row.contentHash ∉ seed.knownHashes) :
    (hookRun body s [.seed now]).find? id = some row := by
  obtain ⟨hseeded, hother⟩ := find?_seeds (nodup_hookSeeds body) now s
  change ((hookSeeds body).foldl (seedOne now) s).find? id = _
  by_cases hown : ∃ seed ∈ hookSeeds body, seed.id = id
  · obtain ⟨seed, hseed, rfl⟩ := hown
    rw [hseeded seed hseed, hrow]
    have hkept : ¬ Outdated seed row := fun h => hedited seed hseed rfl h.1.2
    exact congrArg some (if_neg hkept)
  · rw [hother id fun seed hseed heq => hown ⟨seed, hseed, heq⟩, hrow]

/-- Somebody has replaced the script of a seed of an older release. -/
def editedRow : HookPolicy := { oldSeedRow with contentHash := "edited" }

theorem hookRun_seed_keeps_editedRow :
    (hookRun (fun _ => "") { rows := [editedRow] } [.seed "t1"]).find? "block-dangerous-bash" = some editedRow := by
  refine hookRun_seed_keeps rfl ?_
  intro seed hseed hid hknown
  have hhash : contentHashOf "" ≠ "edited" := by
    intro h
    have hlength := congrArg (fun text => text.toList.length) h
    simp [contentHashOf, Sha256.hexdigest, Sha256.hex] at hlength
  simp only [hookSeeds, List.mem_cons, List.not_mem_nil, or_false] at hseed
  rcases hseed with rfl | rfl | rfl | rfl
  · rcases List.mem_cons.mp hknown with h | h
    · exact hhash h.symm
    · cases h
  all_goals exact absurd hid (by decide)

end PrivaCloud.DataSpine
