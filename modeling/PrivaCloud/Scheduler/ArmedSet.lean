import PrivaCloud.DataPlane.SchedulerService
import PrivaCloud.Framework.Run

/-!
# The armed set

`SchedulerEngine.sync_jobs`: a pass lists the active jobs and arms, re-arms and disarms the local
scheduler by the times of their last changes.
-/

namespace PrivaCloud.Scheduler.Relist

open Framework DataPlane

/-- The constructors of APScheduler's triggers, which may raise. -/
structure TriggerLibrary (τ : Type) where
  fromCrontab : (expr timezone : String) → Option τ
  interval : IntervalTriggerConfig → (startDate : Option IsoTime) → Option τ

/-- A job of the local scheduler: the arguments of `_on_aps_fire` and the trigger. -/
structure ApsJob (τ : Type) where
  accountId : String
  jobId : String
  trigger : τ
  deriving DecidableEq

/-- `updated_at` of the job as a key was taken, with its account. -/
abbrev ArmKey := String × String

structure SchedulerEngine (τ : Type) where
  armed : Dict String ArmKey := ∅
  scheduler : Dict String (ApsJob τ) := ∅

/-- `{"armed", "removed", "total"}` -/
structure SyncResult where
  armed : Nat
  removed : Nat
  total : Nat

variable {τ : Type}

/-- `build_trigger`; a configuration is one of the two kinds. -/
def buildTrigger (lib : TriggerLibrary τ) (config : TriggerConfig) (tz : String) (anchor : Option IsoTime) :
    Option τ :=
  match config with
  | .cron expr => lib.fromCrontab expr tz
  | .interval config => lib.interval config anchor

def armKey (accountId : String) (job : ScheduledJobDefinition) : ArmKey := (accountId, job.updatedAt.text)

namespace SchedulerEngine

/-- `_arm`, none for `False` -/
def arm (lib : TriggerLibrary τ) (engine : SchedulerEngine τ) (accountId : String)
    (job : ScheduledJobDefinition) : Option (SchedulerEngine τ) :=
  (buildTrigger lib job.trigger job.timezone (some job.createdAt)).map fun trigger =>
    { engine with scheduler := engine.scheduler.insert job.id ⟨accountId, job.id, trigger⟩ }

def disarm (engine : SchedulerEngine τ) (jobId : String) : SchedulerEngine τ where
  armed := engine.armed.erase jobId
  scheduler := engine.scheduler.erase jobId

/-- The body of the loop over the active jobs, with the number of jobs armed so far. -/
def syncJob (lib : TriggerLibrary τ) (acc : SchedulerEngine τ × Nat) (active : String × ScheduledJobDefinition) :
    SchedulerEngine τ × Nat :=
  let key := armKey active.1 active.2
  if acc.1.armed.lookup active.2.id = some key then acc
  else
    match acc.1.arm lib active.1 active.2 with
    | some engine => ({ engine with armed := engine.armed.insert active.2.id key }, acc.2 + 1)
    | none => acc

def syncJobs (lib : TriggerLibrary τ) (engine : SchedulerEngine τ)
    (active : List (String × ScheduledJobDefinition)) : SchedulerEngine τ × SyncResult :=
  let seen := active.map (·.2.id)
  let (engine, armed) := active.foldl (syncJob lib) (engine, 0)
  let gone := engine.armed.keys.filter (· ∉ seen)
  let engine := gone.foldl disarm engine
  (engine, ⟨armed, gone.length, engine.armed.keys.length⟩)

end SchedulerEngine

/-- `ORDER BY account_id, created_at ASC` -/
def jobListActive (store : Store) : List JobRow :=
  (store.jobs.rows.filter fun row => row.status = .active).insertionSort fun a b =>
    a.accountId < b.accountId ∨ a.accountId = b.accountId ∧ a.createdAt.text ≤ b.createdAt.text

def listActiveJobs (store : Store) : List (String × ScheduledJobDefinition) :=
  (jobListActive store).map fun row => (row.accountId, SchedulerService.toJob row)

/-- A write to the job table. -/
inductive JobWrite
  | create (accountId : String) (job : ScheduledJobDefinition) (now : IsoTime)
  | update (jobId : String) (job : ScheduledJobDefinition) (now : IsoTime)
  | setStatus (jobId : String) (status : JobStatus) (now : IsoTime)
  | delete (jobId : String)

def setJobStatus (store : Store) (jobId : String) (status : JobStatus) (now : IsoTime) : Store :=
  store.jobUpdate jobId (fun row => { row with status := status, updatedAt := now }) fun _ => rfl

def JobWrite.apply (store : Store) : JobWrite → Store
  | .create accountId job now => (SchedulerService.createJob store accountId job now).2
  | .update jobId job now => (SchedulerService.updateJob store jobId job now).2
  | .setStatus jobId status now => setJobStatus store jobId status now
  | .delete jobId => store.jobDelete jobId

def JobWrite.stamp? : JobWrite → Option (String × IsoTime)
  | .create _ job now => some (job.id, now)
  | .update jobId _ now | .setStatus jobId _ now => some (jobId, now)
  | .delete _ => none

structure RelistSystem (τ : Type) where
  store : Store
  engine : SchedulerEngine τ := {}

inductive RelistEvent
  | writes (write : JobWrite)
  | syncs

namespace RelistSystem

variable (lib : TriggerLibrary τ)

def step (s : RelistSystem τ) : RelistEvent → Option (RelistSystem τ)
  | .writes write => some { s with store := write.apply s.store }
  | .syncs => some { s with engine := (s.engine.syncJobs lib (listActiveJobs s.store)).1 }

/-- The scheduler's job for a row: of an active job whose trigger can be built. -/
def wanted (row : JobRow) : Option (ApsJob τ) :=
  if row.status = .active then
    (buildTrigger lib row.trigger row.timezone (some row.createdAt)).map (⟨row.accountId, row.jobId, ·⟩)
  else none

def ArmedRight (s : RelistSystem τ) : Prop :=
  ∀ jobId, s.engine.scheduler.lookup jobId = (s.store.jobGet jobId).bind (wanted lib)

def Follows (s : RelistSystem τ) : RelistEvent → Prop
  | .syncs => ∀ s', s.step lib .syncs = some s' → s'.ArmedRight lib
  | .writes _ => True

def Restamps (s : RelistSystem τ) (jobId : String) (now : IsoTime) : Prop :=
  ∀ key ∈ s.engine.armed.lookup jobId, key.2 ≠ now.text

instance (s : RelistSystem τ) (jobId : String) (now : IsoTime) : Decidable (s.Restamps jobId now) :=
  inferInstanceAs (Decidable (∀ key ∈ s.engine.armed.lookup jobId, _))

/-- A pass finds no armed job with a trigger that can not be built, and changes have times of their own. -/
def Careful (s : RelistSystem τ) : RelistEvent → Bool
  | .syncs => decide (∀ row ∈ s.store.jobs.rows, row.status = .active →
      (s.engine.armed.lookup row.jobId).isSome →
        (buildTrigger lib row.trigger row.timezone (some row.createdAt)).isSome)
  | .writes write => decide (∀ stamp ∈ write.stamp?, s.Restamps stamp.1 stamp.2)

end RelistSystem

namespace SchedulerEngine

def view (engine : SchedulerEngine τ) (jobId : String) : Option ArmKey × Option (ApsJob τ) :=
  (engine.armed.lookup jobId, engine.scheduler.lookup jobId)

def syncView (lib : TriggerLibrary τ) (active : String × ScheduledJobDefinition)
    (held : Option ArmKey × Option (ApsJob τ)) : Option ArmKey × Option (ApsJob τ) :=
  if held.1 = some (armKey active.1 active.2) then held
  else
    match buildTrigger lib active.2.trigger active.2.timezone (some active.2.createdAt) with
    | some trigger => (some (armKey active.1 active.2), some ⟨active.1, active.2.id, trigger⟩)
    | none => held

variable (lib : TriggerLibrary τ)

theorem view_syncJob (acc : SchedulerEngine τ × Nat) (active : String × ScheduledJobDefinition) (jobId : String) :
    (syncJob lib acc active).1.view jobId =
      if jobId = active.2.id then syncView lib active (acc.1.view jobId) else acc.1.view jobId := by
  unfold syncJob arm
  dsimp only
  by_cases hkey : acc.1.armed.lookup active.2.id = some (armKey active.1 active.2)
  · rw [if_pos hkey]
    split
    · rename_i hid
      subst hid
      simp [syncView, view, hkey]
    · rfl
  · rw [if_neg hkey]
    cases hbuild : buildTrigger lib active.2.trigger active.2.timezone (some active.2.createdAt) with
    | none =>
      simp only [Option.map_none]
      split
      · simp [syncView, hbuild]
      · rfl
    | some trigger =>
      simp only [Option.map_some]
      split
      · rename_i hid
        subst hid
        simp [syncView, view, hkey, hbuild]
      · rename_i hid
        simp [view, AList.lookup_insert_ne hid]

theorem view_foldl_syncJob (actives : List (String × ScheduledJobDefinition))
    (acc : SchedulerEngine τ × Nat) (jobId : String) (hnodup : (actives.map (·.2.id)).Nodup) :
    (jobId ∉ actives.map (·.2.id) → (actives.foldl (syncJob lib) acc).1.view jobId = acc.1.view jobId) ∧
      ∀ active ∈ actives, active.2.id = jobId →
        (actives.foldl (syncJob lib) acc).1.view jobId = syncView lib active (acc.1.view jobId) := by
  induction actives generalizing acc with
  | nil => exact ⟨fun _ => rfl, fun active h => absurd h List.not_mem_nil⟩
  | cons a actives ih =>
    rw [List.map_cons, List.nodup_cons] at hnodup
    obtain ⟨hother, hlisted⟩ := ih (syncJob lib acc a) hnodup.2
    rw [List.foldl_cons]
    constructor
    · intro hnot
      rw [List.map_cons, List.mem_cons, not_or] at hnot
      rw [hother hnot.2, view_syncJob, if_neg hnot.1]
    · intro active hmem hid
      rcases List.mem_cons.mp hmem with rfl | hmem
      · rw [hother (hid ▸ hnodup.1), view_syncJob, if_pos hid.symm]
      · have hne : jobId ≠ a.2.id := by
          rintro rfl
          exact hnodup.1 (hid ▸ List.mem_map_of_mem hmem)
        rw [hlisted active hmem hid, view_syncJob, if_neg hne]

theorem view_disarm (engine : SchedulerEngine τ) (gone jobId : String) :
    (engine.disarm gone).view jobId = if jobId = gone then (none, none) else engine.view jobId := by
  unfold disarm view
  split
  · rename_i hid
    subst hid
    simp
  · rename_i hid
    simp [AList.lookup_erase_ne hid]

theorem view_foldl_disarm (gone : List String) (engine : SchedulerEngine τ) (jobId : String) :
    (gone.foldl disarm engine).view jobId = if jobId ∈ gone then (none, none) else engine.view jobId := by
  induction gone generalizing engine with
  | nil => rfl
  | cons g gone ih =>
    rw [List.foldl_cons, ih, view_disarm]
    by_cases hg : jobId = g
    · simp [hg]
    · simp [hg]

/-- The pass, for one job: a job that is not listed is disarmed. -/
theorem view_syncJobs (engine : SchedulerEngine τ) (actives : List (String × ScheduledJobDefinition))
    (hnodup : (actives.map (·.2.id)).Nodup) (jobId : String)
    (hboth : engine.armed.lookup jobId = none → engine.scheduler.lookup jobId = none) :
    (jobId ∉ actives.map (·.2.id) → (engine.syncJobs lib actives).1.view jobId = (none, none)) ∧
      ∀ active ∈ actives, active.2.id = jobId →
        (engine.syncJobs lib actives).1.view jobId = syncView lib active (engine.view jobId) := by
  obtain ⟨hother, hlisted⟩ := view_foldl_syncJob lib actives (engine, 0) jobId hnodup
  unfold syncJobs
  dsimp only
  rw [view_foldl_disarm]
  constructor
  · intro hnot
    split
    · rfl
    · rename_i hgone
      rw [hother hnot]
      have hnone : engine.armed.lookup jobId = none := by
        cases harmed : engine.armed.lookup jobId with
        | none => rfl
        | some key =>
          refine absurd ?_ hgone
          have hview := congrArg Prod.fst (hother hnot)
          simp only [view, harmed] at hview
          rw [List.mem_filter]
          refine ⟨AList.lookup_isSome.mp (by rw [hview]; rfl), by simpa using hnot⟩
      simp [view, hnone, hboth hnone]
  · intro active hmem hid
    have hseen : jobId ∈ actives.map (·.2.id) := hid ▸ List.mem_map_of_mem hmem
    rw [if_neg (fun hgone => by simp [hseen] at hgone), hlisted active hmem hid]

end SchedulerEngine

section Table

variable {store : Store}

theorem mem_listActiveJobs {active : String × ScheduledJobDefinition} : active ∈ listActiveJobs store ↔
      ∃ row ∈ store.jobs.rows, row.status = .active ∧ (row.accountId, SchedulerService.toJob row) = active := by
  simp [listActiveJobs, jobListActive, and_assoc]

theorem nodup_listActiveJobs (store : Store) : ((listActiveJobs store).map (·.2.id)).Nodup := by
  have hids : (listActiveJobs store).map (·.2.id) = (jobListActive store).map (·.jobId) := by
    rw [listActiveJobs, List.map_map]
    rfl
  have hperm : (jobListActive store).Perm (store.jobs.rows.filter fun row => row.status = .active) :=
    List.perm_insertionSort _ _
  rw [hids, (hperm.map _).nodup_iff]
  exact store.jobs.nodup.sublist (List.filter_sublist.map _)

theorem jobGet_apply {write : JobWrite} {jobId : String} {row : JobRow}
    (h : (write.apply store).jobGet jobId = some row) :
    store.jobGet jobId = some row ∨ write.stamp? = some (jobId, row.updatedAt) := by
  cases write with
  | create accountId job now =>
    simp only [JobWrite.apply, SchedulerService.createJob, Store.jobInsert] at h
    split at h
    · exact .inl h
    · rename_i store' hstore
      split at hstore
      · obtain ⟨jobs, hjobs, rfl⟩ := Option.map_eq_some_iff.mp hstore
        have hfind := Table.find?_insert hjobs jobId
        simp only [Store.jobGet] at h
        rw [hfind] at h
        split at h
        · rename_i hid
          cases h
          exact .inr (congrArg some (Prod.ext hid rfl))
        · exact .inl h
      · cases hstore
  | update jobId' job now =>
    simp only [JobWrite.apply, SchedulerService.updateJob] at h
    split at h
    · exact .inl h
    · simp only [Store.jobGet, Store.jobUpdate, Table.find?_modify] at h
      split at h
      · rename_i hid
        obtain ⟨old, -, rfl⟩ := Option.map_eq_some_iff.mp h
        exact .inr (congrArg some (Prod.ext hid.symm rfl))
      · exact .inl h
  | setStatus jobId' status now =>
    simp only [JobWrite.apply, setJobStatus, Store.jobGet, Store.jobUpdate, Table.find?_modify] at h
    split at h
    · rename_i hid
      obtain ⟨old, -, rfl⟩ := Option.map_eq_some_iff.mp h
      exact .inr (congrArg some (Prod.ext hid.symm rfl))
    · exact .inl h
  | delete jobId' =>
    have hfilter := Table.find?_filter store.jobs (fun id => decide (id ≠ jobId')) jobId
    simp only [JobWrite.apply, Store.jobGet, Store.jobDelete] at h
    rw [hfilter] at h
    split at h
    · exact .inl h
    · cases h

end Table

namespace RelistSystem

variable (lib : TriggerLibrary τ) {s s' : RelistSystem τ}

/-- A job that is armed under the key of its active row is armed as the row asks. -/
structure Armed (s : RelistSystem τ) : Prop where
  both : ∀ jobId, s.engine.armed.lookup jobId = none → s.engine.scheduler.lookup jobId = none
  current : ∀ row ∈ s.store.jobs.rows, row.status = .active →
    s.engine.armed.lookup row.jobId = some (row.accountId, row.updatedAt.text) →
      s.engine.scheduler.lookup row.jobId = wanted lib row

variable {lib}

theorem Armed.writes (h : s.Armed lib) {write : JobWrite} (hcareful : s.Careful lib (.writes write) = true) :
    { s with store := write.apply s.store }.Armed lib := by
  refine ⟨h.both, ?_⟩
  intro row hrow hactive harmed
  rcases jobGet_apply (Table.find?_of_mem hrow) with hold | hstamp
  · exact h.current row (Table.mem_of_find? hold) hactive harmed
  · have hrestamps := of_decide_eq_true hcareful _ hstamp
    exact absurd rfl (hrestamps _ harmed)

theorem view_syncs (h : s.Armed lib) {row : JobRow} (hrow : row ∈ s.store.jobs.rows)
    (hactive : row.status = .active) (hcareful : s.Careful lib .syncs = true) :
    ((s.engine.syncJobs lib (listActiveJobs s.store)).1.view row.jobId).2 = wanted lib row := by
  obtain ⟨-, hlisted⟩ := s.engine.view_syncJobs lib (listActiveJobs s.store) (nodup_listActiveJobs s.store)
    row.jobId (h.both row.jobId)
  have hbuildable := of_decide_eq_true hcareful row hrow hactive
  rw [hlisted _ (mem_listActiveJobs.mpr ⟨row, hrow, hactive, rfl⟩) rfl]
  unfold SchedulerEngine.syncView
  split
  · exact h.current row hrow hactive ‹_›
  · unfold wanted
    rw [if_pos hactive]
    change Prod.snd (match buildTrigger lib row.trigger row.timezone (some row.createdAt) with
      | some trigger => _
      | none => _) = _
    cases hbuild : buildTrigger lib row.trigger row.timezone (some row.createdAt) with
    | some trigger => rfl
    | none =>
      rw [hbuild] at hbuildable
      have hnone : s.engine.armed.lookup row.jobId = none := by
        cases harmed : s.engine.armed.lookup row.jobId with
        | none => rfl
        | some key =>
          rw [harmed] at hbuildable
          cases hbuildable rfl
      exact h.both row.jobId hnone

theorem view_syncs_gone (h : s.Armed lib) {jobId : String}
    (hgone : ∀ row ∈ s.store.jobs.rows, row.status = .active → row.jobId ≠ jobId) :
    (s.engine.syncJobs lib (listActiveJobs s.store)).1.view jobId = (none, none) := by
  obtain ⟨hother, -⟩ := s.engine.view_syncJobs lib (listActiveJobs s.store) (nodup_listActiveJobs s.store)
    jobId (h.both jobId)
  refine hother ?_
  intro hmem
  obtain ⟨active, hactive, hid⟩ := List.mem_map.mp hmem
  obtain ⟨row, hrow, hstatus, rfl⟩ := mem_listActiveJobs.mp hactive
  exact hgone row hrow hstatus hid

theorem Armed.armedRight (h : s.Armed lib) (hcareful : s.Careful lib .syncs = true) :
    { s with engine := (s.engine.syncJobs lib (listActiveJobs s.store)).1 }.ArmedRight lib := by
  intro jobId
  by_cases hactive : ∃ row ∈ s.store.jobs.rows, row.status = .active ∧ row.jobId = jobId
  · obtain ⟨row, hrow, hstatus, rfl⟩ := hactive
    have hget : s.store.jobGet row.jobId = some row := Table.find?_of_mem hrow
    have hview := view_syncs h hrow hstatus hcareful
    change _ = (s.store.jobGet row.jobId).bind (wanted lib)
    rw [hget]
    exact hview
  · have hview : (s.engine.syncJobs lib (listActiveJobs s.store)).1.view jobId = (none, none) :=
      view_syncs_gone h fun row hrow hstatus hid => hactive ⟨row, hrow, hstatus, hid⟩
    refine (congrArg Prod.snd hview).trans ?_
    change none = (s.store.jobGet jobId).bind (wanted lib)
    cases hget : s.store.jobGet jobId with
    | none => rfl
    | some row =>
      have hinactive : row.status ≠ .active := fun hstatus =>
        hactive ⟨row, Table.mem_of_find? hget, hstatus, Table.key_of_find? hget⟩
      simp [wanted, hinactive]

theorem Armed.syncs (h : s.Armed lib) (hcareful : s.Careful lib .syncs = true) :
    { s with engine := (s.engine.syncJobs lib (listActiveJobs s.store)).1 }.Armed lib := by
  refine ⟨?_, fun row hrow hactive _ => view_syncs h hrow hactive hcareful⟩
  intro jobId hnone
  by_cases hactive : ∃ row ∈ s.store.jobs.rows, row.status = .active ∧ row.jobId = jobId
  · obtain ⟨row, hrow, hstatus, rfl⟩ := hactive
    obtain ⟨-, hlisted⟩ := s.engine.view_syncJobs lib (listActiveJobs s.store) (nodup_listActiveJobs s.store)
      row.jobId (h.both row.jobId)
    have hview := hlisted _ (mem_listActiveJobs.mpr ⟨row, hrow, hstatus, rfl⟩) rfl
    have harmed := (congrArg Prod.fst hview).symm.trans hnone
    refine (congrArg Prod.snd hview).trans ?_
    unfold SchedulerEngine.syncView at harmed ⊢
    split at harmed
    · exact absurd (‹_ = some _›.symm.trans harmed) (by simp)
    · rw [if_neg ‹_›]
      split at harmed
      · cases harmed
      · exact h.both row.jobId harmed
  · have hgone : ∀ row ∈ s.store.jobs.rows, row.status = .active → row.jobId ≠ jobId :=
      fun row hrow hstatus hid => hactive ⟨row, hrow, hstatus, hid⟩
    exact congrArg Prod.snd (view_syncs_gone h hgone)

theorem armed_step (s : RelistSystem τ) (e : RelistEvent) (s' : RelistSystem τ) (h : s.Armed lib)
    (hcareful : s.Careful lib e = true) (hs : s.step lib e = some s') : s'.Armed lib := by
  cases e with
  | writes write =>
    cases hs
    exact h.writes hcareful
  | syncs =>
    cases hs
    exact h.syncs hcareful

end RelistSystem

open RelistSystem

/-- From an engine that has armed nothing: as long as no pass finds an armed job whose trigger can not be
built and no change has the time of the one that was armed, the armed set follows the table. -/
theorem armed_set_follows (lib : TriggerLibrary τ) (store : Store) (es : List RelistEvent)
    (hcareful : RunMeets (step lib) (fun s e => s.Careful lib e = true) { store := store } es) :
    RunMeets (step lib) (fun s e => s.Follows lib e) { store := store } es := by
  refine runMeets_of_invariant armed_step ?_ ?_ hcareful
  · intro s e h hcareful
    cases e with
    | writes write => trivial
    | syncs =>
      intro s' hs
      cases hs
      exact h.armedRight hcareful
  · refine ⟨fun _ _ => rfl, ?_⟩
    intro row _ _ harmed
    cases harmed

/-- Every cron text but `daily` is taken. -/
def cronLibrary : TriggerLibrary (String × String) where
  fromCrontab expr timezone := if expr = "daily" then none else some (expr, timezone)
  interval _ _ := none

def oneAccount : Store where
  accounts :=
    ⟨[{ accountId := "account", username := "user", passwordHash := "", createdAt := "0", updatedAt := "0" }],
      by decide⟩

def cronJob (expr : String) : ScheduledJobDefinition where
  id := "job"
  name := "report"
  trigger := .cron expr
  timezone := "UTC"
  createdAt := .ofText "1"
  updatedAt := .ofText "1"

/-- The job is created, moved to another hour, paused and resumed, with a pass after each change. -/
def jobMoved : List RelistEvent :=
  [.writes (.create "account" (cronJob "0 9 * * *") (.ofText "1")), .syncs,
    .writes (.update "job" (cronJob "0 10 * * *") (.ofText "2")), .syncs,
    .writes (.setStatus "job" .paused (.ofText "3")), .syncs,
    .writes (.setStatus "job" .active (.ofText "4")), .syncs]

theorem armed_set_follows_jobMoved :
    (run (step cronLibrary) { store := oneAccount } jobMoved).map (fun s => s.engine.scheduler.lookup "job") =
        some (some ⟨"account", "job", ("0 10 * * *", "UTC")⟩) ∧
      RunMeets (step cronLibrary) (fun s e => s.Follows cronLibrary e) { store := oneAccount } jobMoved :=
  ⟨by decide, armed_set_follows cronLibrary oneAccount jobMoved (by decide)⟩

def jobGarbled : List RelistEvent :=
  [.writes (.create "account" (cronJob "0 9 * * *") (.ofText "1")), .syncs,
    .writes (.update "job" (cronJob "daily") (.ofText "2")), .syncs]

theorem not_follows_jobGarbled :
    ¬ RunMeets (step cronLibrary) (fun s e => s.Follows cronLibrary e) { store := oneAccount } jobGarbled := by
  rintro ⟨-, -, -, hfollows, -⟩
  have hjob := hfollows _ rfl "job"
  exact absurd hjob (by decide)

namespace SchedulerEngine

theorem foldl_eq_self {α β : Type} {f : α → β → α} {a : α} {l : List β} (h : ∀ b ∈ l, f a b = a) : l.foldl f a = a :=
  List.foldlRecOn (motive := fun x => x = a) l f rfl fun _ hx b hb => hx ▸ h b hb

theorem syncJobs_again (lib : TriggerLibrary τ) (engine : SchedulerEngine τ)
    {actives : List (String × ScheduledJobDefinition)} (hnodup : (actives.map (·.2.id)).Nodup) :
    (engine.syncJobs lib actives).1.syncJobs lib actives =
      ((engine.syncJobs lib actives).1, ⟨0, 0, (engine.syncJobs lib actives).2.total⟩) := by
  let pass := engine.syncJobs lib actives
  let looped := (actives.foldl (syncJob lib) (engine, 0)).1
  have hview (jobId : String) : pass.1.view jobId =
      if jobId ∈ looped.armed.keys.filter (· ∉ actives.map (·.2.id)) then (none, none) else looped.view jobId :=
    view_foldl_disarm _ looped jobId
  have hlisted : ∀ active ∈ actives, syncJob lib (pass.1, 0) active = (pass.1, 0) := by
    intro active hmem
    have hseen : active.2.id ∈ actives.map (·.2.id) := List.mem_map_of_mem hmem
    have harmed : pass.1.armed.lookup active.2.id = (syncView lib active (engine.view active.2.id)).1 := by
      refine congrArg Prod.fst ((hview active.2.id).trans ?_)
      rw [if_neg fun hgone => by simp [hseen] at hgone]
      exact (view_foldl_syncJob lib actives (engine, 0) active.2.id hnodup).2 active hmem rfl
    unfold syncJob arm
    dsimp only
    rw [harmed]
    unfold syncView
    by_cases hheld : (engine.view active.2.id).1 = some (armKey active.1 active.2)
    · rw [if_pos hheld, if_pos hheld]
    · rw [if_neg hheld]
      cases hbuild : buildTrigger lib active.2.trigger active.2.timezone (some active.2.createdAt) with
      | some trigger => exact if_pos rfl
      | none => exact if_neg hheld
  have hgone : pass.1.armed.keys.filter (· ∉ actives.map (·.2.id)) = [] := by
    rw [List.filter_eq_nil_iff]
    intro jobId hkey hnot
    have hheld := hview jobId
    split at hheld
    · have hnone := congrArg Prod.fst hheld
      rw [← AList.mem_keys, ← AList.lookup_isSome] at hkey
      rw [show pass.1.armed.lookup jobId = none from hnone] at hkey
      cases hkey
    · rename_i hkept
      refine hkept (List.mem_filter.mpr ⟨?_, hnot⟩)
      rw [← AList.mem_keys, ← AList.lookup_isSome] at hkey ⊢
      rwa [← show pass.1.armed.lookup jobId = looped.armed.lookup jobId from congrArg Prod.fst hheld]
  change (_, SyncResult.mk _ _ _) = _
  rw [foldl_eq_self hlisted, hgone]
  rfl

/-- A second pass over the same table arms nothing, disarms nothing and leaves the engine as it is, whatever
the first one has found. -/
theorem sync_again (lib : TriggerLibrary τ) (engine : SchedulerEngine τ) (store : Store) :
    let pass := engine.syncJobs lib (listActiveJobs store)
    pass.1.syncJobs lib (listActiveJobs store) = (pass.1, ⟨0, 0, pass.2.total⟩) :=
  syncJobs_again lib engine (nodup_listActiveJobs store)

end SchedulerEngine

end PrivaCloud.Scheduler.Relist
