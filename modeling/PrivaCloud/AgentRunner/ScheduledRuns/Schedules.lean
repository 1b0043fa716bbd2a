import PrivaCloud.AgentRunner.ScheduledRuns.JobRequests

/-!
# What a schedule is stored as

The user API checks the trigger that it stores, the tools of the agent do not.
-/

namespace PrivaCloud.AgentRunner.Jobs

open Framework DataPlane
open Scheduler (Trigger truncate)

/-- What APScheduler does with intervals: none is taken for one second, a start date is always
accepted, and an interval ticks from it. -/
structure TriggerLibrary.Lawful (lib : TriggerLibrary) : Prop where
  zero : ∀ start, lib.interval 0 start = lib.interval 1 start
  anchored : ∀ n start, (lib.interval n none).isSome → (lib.interval n (some start)).isSome
  ticks : ∀ (n : Int) start trigger, 0 < n → lib.interval n (some start) = some trigger →
    trigger = ⟨start, n.toNat, { k | 0 ≤ k }⟩

/-- The schedule that a request asks for: one that is given in full, or by a text or a number. -/
inductive Asked
  | kept (trigger : TriggerConfig)
  | cron (expr : String)
  | minutes (minutes : ℚ)

def Asked.Is : Asked → TriggerConfig → Prop
  | .kept trigger, stored => stored = trigger
  | .cron expr, stored => stored = .cron expr
  | .minutes m, stored => ∃ c, stored = .interval c ∧ (intervalTotalSeconds c : ℚ) = 60 * m

/-- What the arguments of a tool ask for: a named schedule, or the one that the job has. -/
def JobArgs.asked (args : JobArgs) (current : Option TriggerConfig) : Asked :=
  match args.triggerType, args.cronExpr, args.intervalMinutes, current with
  | some .cron, some expr, _, _ => .cron expr
  | some .cron, none, _, some (.cron expr) => .cron expr
  | some .cron, none, _, _ => .cron "0 9 * * *"
  | some .interval, _, some minutes, _ => .minutes minutes
  | some .interval, _, none, some (.interval c) => .kept (.interval c)
  | some .interval, _, none, _ => .minutes 60
  | none, some expr, _, _ => .cron expr
  | none, none, some minutes, _ => .minutes minutes
  | none, none, none, some trigger => .kept trigger
  | none, none, none, none => .minutes 60

/-- The job is stored as asked, and the engine arms what the user API shows. -/
structure ScheduleRight (lib : TriggerLibrary) (asked : Asked) (job : ScheduledJobDefinition) : Prop where
  asked : asked.Is job.trigger
  accepted : (lib.buildTrigger job.trigger job.timezone none).isSome
  armed : ∃ shown armed, lib.buildTrigger job.trigger job.timezone (some job.createdAt) = some shown ∧
    lib.engineTrigger job.trigger job.timezone (some job.createdAt) = some armed ∧
    armed.fires = shown.fires ∧
    ∀ c, job.trigger = .interval c → (armed.step : Int) = intervalTotalSeconds c

namespace JobRequest

/-- The schedule that a request asks for, by the job that it updates. -/
def asked (env : JobEnv) (s : Store) (accountId : String) : JobRequest → Asked
  | .create _ req => .kept req.trigger
  | .update jobId req =>
    match req.trigger, ownedJob s accountId jobId with
    | some trigger, _ => .kept trigger
    | none, some job => .kept job.trigger
    | none, none => .minutes 60
  | .toolCreate _ args _ => args.asked none
  | .toolUpdate needle args _ => args.asked ((findJob env s accountId needle).map (·.trigger))

/-- A cron text that the library takes; whole minutes, at least one, that it takes; and a named interval
changes a cron job only if the type of the trigger is named as well. -/
def ArgsFit (lib : TriggerLibrary) (args : JobArgs) (current : Option TriggerConfig) (timezone : String) :
    Prop :=
  match args.asked current with
  | .kept trigger => (lib.buildTrigger trigger timezone none).isSome
  | .cron expr => (lib.fromCrontab expr timezone).isSome
  | .minutes minutes => minutes.den = 1 ∧ 0 < minutes ∧ (lib.interval (60 * minutes.num) none).isSome ∧
      (args.triggerType = none → ∀ expr, current ≠ some (.cron expr))

/-- The requests whose schedule is stored as asked, when they succeed. -/
def Fits (env : JobEnv) (s : Store) (accountId : String) : JobRequest → Prop
  | .create .. | .update .. => True
  | .toolCreate _ args _ =>
    ArgsFit env.library args none ((args.timezone.filter (· ≠ "")).getD "Asia/Shanghai")
  | .toolUpdate needle args _ => ∀ job, findJob env s accountId needle = some job →
      ArgsFit env.library args (some job.trigger) (args.timezone.getD job.timezone)

end JobRequest

section Store

variable {s s' : Store} {accountId jobId : String} {job d : ScheduledJobDefinition} {now : IsoTime}

theorem getJob_jobInsert (h : s.jobInsert (SchedulerService.jobRow accountId d now) = some s') :
    SchedulerService.getJob s' d.id = some (SchedulerService.toJob (SchedulerService.jobRow accountId d now)) := by
  unfold Store.jobInsert at h
  split at h
  · obtain ⟨jobs, hjobs, rfl⟩ := Option.map_eq_some_iff.mp h
    have hfind := Table.find?_insert hjobs d.id
    rw [if_pos (show (SchedulerService.jobRow accountId d now).jobId = d.id from rfl)] at hfind
    exact congrArg (Option.map SchedulerService.toJob) hfind
  · cases h

theorem getJob_jobUpdate {row : JobRow} (hrow : s.jobGet jobId = some row) (fields : JobRow → JobRow)
    (hf : ∀ row, (fields row).jobId = row.jobId) :
    SchedulerService.getJob (s.jobUpdate jobId fields hf) jobId =
      some (SchedulerService.toJob (fields row)) := by
  have hfind := Table.find?_modify s.jobs jobId fields hf jobId
  rw [if_pos rfl, show s.jobs.find? jobId = some row from hrow] at hfind
  exact congrArg (Option.map SchedulerService.toJob) hfind

theorem createJob_none (h : (SchedulerService.createJob s accountId d now).1.join = none) :
    (SchedulerService.createJob s accountId d now).2 = s := by
  unfold SchedulerService.createJob at h ⊢
  split
  · rfl
  · rename_i s' hs'
    simp only [hs', getJob_jobInsert hs', Option.join_some] at h
    cases h

theorem createJob_some (h : (SchedulerService.createJob s accountId d now).1.join = some job) :
    job.trigger = d.trigger ∧ job.timezone = d.timezone := by
  unfold SchedulerService.createJob at h
  split at h
  · cases h
  · rename_i s' hs'
    simp only [getJob_jobInsert hs', Option.join_some] at h
    cases h
    exact ⟨rfl, rfl⟩

theorem updateJob_none (h : (SchedulerService.updateJob s jobId d now).1.join = none) :
    (SchedulerService.updateJob s jobId d now).2 = s := by
  unfold SchedulerService.updateJob at h ⊢
  split
  · rfl
  · rename_i row hrow
    simp only [hrow, getJob_jobUpdate hrow, Option.join_some] at h
    cases h

theorem updateJob_some (h : (SchedulerService.updateJob s jobId d now).1.join = some job) :
    job.trigger = d.trigger ∧ job.timezone = d.timezone := by
  unfold SchedulerService.updateJob at h
  split at h
  · cases h
  · rename_i row hrow
    simp only [getJob_jobUpdate hrow, Option.join_some] at h
    cases h
    exact ⟨rfl, rfl⟩

end Store

section Triggers

variable {lib : TriggerLibrary} (hlib : lib.Lawful)

include hlib

theorem scheduleRight_of_accepted {asked : Asked} {job : ScheduledJobDefinition} (hasked : asked.Is job.trigger)
    (h : (lib.buildTrigger job.trigger job.timezone none).isSome) : ScheduleRight lib asked job := by
  refine ⟨hasked, h, ?_⟩
  cases htrigger : job.trigger with
  | cron expr =>
    rw [htrigger] at h
    obtain ⟨trigger, ht⟩ := Option.isSome_iff_exists.mp h
    exact ⟨trigger, trigger, ht, ht, rfl, fun c hc => by cases hc⟩
  | interval c =>
    rw [htrigger, TriggerLibrary.buildTrigger] at h
    split at h
    · cases h
    · rename_i hpos
      obtain ⟨trigger, ht⟩ := Option.isSome_iff_exists.mp (hlib.anchored _ (lib.instant job.createdAt) h)
      refine ⟨trigger, trigger, ?_, ht, rfl, fun c' hc' => ?_⟩
      · rw [TriggerLibrary.buildTrigger, if_neg hpos]
        exact ht
      · cases hc'
        rw [hlib.ticks _ _ _ (not_le.mp hpos) ht]
        exact Int.toNat_of_nonneg (not_le.mp hpos).le

theorem step_of_empty {c : IntervalTriggerConfig} (h : intervalTotalSeconds c = 0) (timezone : String)
    {anchor : IsoTime} {trigger : Trigger}
    (ht : lib.engineTrigger (.interval c) timezone (some anchor) = some trigger) : trigger.step = 1 := by
  rw [TriggerLibrary.engineTrigger, h, hlib.zero] at ht
  rw [hlib.ticks 1 _ _ Int.one_pos ht]
  rfl

end Triggers

theorem total_splitMinutes (minutes : ℚ) : intervalTotalSeconds
        { hours := truncate (floorDiv minutes 60), minutes := truncate (floorMod minutes 60) } =
      60 * ⌊minutes⌋ := by
  have hhours : truncate (floorDiv minutes 60) = ⌊minutes / 60⌋ := by
    rw [floorDiv]
    exact_mod_cast Scheduler.truncate_intCast ⌊minutes / 60⌋
  have hnonneg : 0 ≤ floorMod minutes 60 := by
    have hle := Int.floor_le (minutes / 60)
    rw [floorMod]
    push_cast
    linarith
  have hminutes : truncate (floorMod minutes 60) = ⌊minutes⌋ - ⌊minutes / 60⌋ * 60 := by
    rw [truncate, if_pos hnonneg, floorMod]
    have hcast : minutes - (⌊minutes / ((60 : Nat) : ℚ)⌋ : ℚ) * ((60 : Nat) : ℚ) =
        minutes - ((⌊minutes / 60⌋ * 60 : Int) : ℚ) := by
      push_cast
      ring
    rw [hcast, Int.floor_sub_intCast]
  rw [intervalTotalSeconds, hhours, hminutes]
  ring

def splitMinutes (minutes : ℚ) : IntervalTriggerConfig :=
  { hours := truncate (floorDiv minutes 60), minutes := truncate (floorMod minutes 60) }

theorem buildTrigger_of_asked (args : JobArgs) (current : Option TriggerConfig) :
    (∀ trigger, args.asked current = .kept trigger → args.buildTrigger current = trigger) ∧
      (∀ expr, args.asked current = .cron expr → args.buildTrigger current = .cron expr) ∧
      ∀ m, args.asked current = .minutes m → args.buildTrigger current = .interval (splitMinutes m) ∧
            (args.triggerType = none → ∀ expr, current ≠ some (.cron expr)) ∨
          args.triggerType = none ∧ ∃ expr, current = some (.cron expr) ∧
            args.buildTrigger current = .cron expr := by
  cases htype : args.triggerType with
  | none =>
    cases hcron : args.cronExpr with
    | some expr =>
      rcases current with _ | ⟨_ | _⟩ <;>
        simp [JobArgs.asked, JobArgs.buildTrigger, JobArgs.namesSchedule, JobArgs.typeOfTrigger,
          JobArgs.triggerOfType, htype, hcron]
    | none =>
      cases hminutes : args.intervalMinutes <;> rcases current with _ | ⟨_ | _⟩ <;>
        simp [JobArgs.asked, JobArgs.buildTrigger, JobArgs.namesSchedule, JobArgs.typeOfTrigger,
          JobArgs.triggerOfType, htype, hcron, hminutes, splitMinutes]
  | some type =>
    cases type <;> cases hcron : args.cronExpr <;> cases hminutes : args.intervalMinutes <;>
      rcases current with _ | ⟨_ | _⟩ <;>
        simp [JobArgs.asked, JobArgs.buildTrigger, JobArgs.namesSchedule, JobArgs.typeOfTrigger,
          JobArgs.triggerOfType, htype, hcron, hminutes, splitMinutes]

theorem total_splitMinutes_eq {minutes : ℚ} :
    (intervalTotalSeconds (splitMinutes minutes) : ℚ) = 60 * minutes ↔ minutes.den = 1 := by
  rw [splitMinutes, total_splitMinutes]
  constructor
  · intro h
    have hwhole : minutes = (⌊minutes⌋ : ℚ) := by
      push_cast at h
      linarith
    rw [hwhole]
    exact Rat.den_intCast _
  · intro h
    have hwhole : ((minutes.num : Int) : ℚ) = minutes := Rat.coe_int_num_of_den_eq_one h
    rw [← hwhole, Int.floor_intCast]
    push_cast
    ring

section Tools

variable {lib : TriggerLibrary} {args : JobArgs} {current : Option TriggerConfig} {timezone : String}

theorem isSome_buildTrigger_minutes {m : ℚ} (hden : m.den = 1) :
    (lib.buildTrigger (.interval (splitMinutes m)) timezone none).isSome ↔
      0 < m ∧ (lib.interval (60 * m.num) none).isSome := by
  have hm : ((m.num : Int) : ℚ) = m := Rat.coe_int_num_of_den_eq_one hden
  have hfloor : ⌊m⌋ = m.num := by
    rw [← hm, Int.floor_intCast, Rat.num_intCast]
  rw [TriggerLibrary.buildTrigger, splitMinutes, total_splitMinutes, hfloor]
  split
  · rename_i hle
    have hneg : ¬0 < m := by
      rw [← hm, not_lt]
      exact_mod_cast (by omega : m.num ≤ 0)
    simp [hneg]
  · rename_i hpos
    have hpos' : 0 < m := by
      rw [← hm]
      exact_mod_cast (by omega : 0 < m.num)
    simp [hpos']

theorem asked_accepted_iff : (args.asked current).Is (args.buildTrigger current) ∧
        (lib.buildTrigger (args.buildTrigger current) timezone none).isSome ↔
      JobRequest.ArgsFit lib args current timezone := by
  obtain ⟨hkept, hcron, hminutes⟩ := buildTrigger_of_asked args current
  rw [JobRequest.ArgsFit]
  cases h : args.asked current with
  | kept trigger =>
    rw [hkept trigger h]
    exact ⟨fun hboth => hboth.2, fun hsome => ⟨rfl, hsome⟩⟩
  | cron expr =>
    rw [hcron expr h]
    exact ⟨fun hboth => hboth.2, fun hsome => ⟨rfl, hsome⟩⟩
  | minutes m =>
    rcases hminutes m h with ⟨hbuilt, hnamed⟩ | ⟨htype, expr, hcurrent, hbuilt⟩
    · rw [hbuilt]
      constructor
      · rintro ⟨⟨c, hc, htotal⟩, hsome⟩
        cases hc
        have hden := total_splitMinutes_eq.mp htotal
        obtain ⟨hpos, hlib⟩ := (isSome_buildTrigger_minutes hden).mp hsome
        exact ⟨hden, hpos, hlib, hnamed⟩
      · rintro ⟨hden, hpos, hlib, -⟩
        exact ⟨⟨_, rfl, total_splitMinutes_eq.mpr hden⟩, (isSome_buildTrigger_minutes hden).mpr ⟨hpos, hlib⟩⟩
    · -- the interval is dropped
      rw [hbuilt]
      constructor
      · rintro ⟨⟨c, hc, -⟩, -⟩
        cases hc
      · rintro ⟨-, -, -, hnamed⟩
        exact absurd hcurrent (hnamed htype expr)

end Tools

theorem scheduleRight_iff {lib : TriggerLibrary} (hlib : lib.Lawful) {args : JobArgs}
    {current : Option TriggerConfig} {job : ScheduledJobDefinition} (htrigger : job.trigger = args.buildTrigger current) :
    ScheduleRight lib (args.asked current) job ↔ JobRequest.ArgsFit lib args current job.timezone := by
  rw [← asked_accepted_iff, ← htrigger]
  exact ⟨fun h => ⟨h.asked, h.accepted⟩, fun ⟨hasked, h⟩ => scheduleRight_of_accepted hlib hasked h⟩

namespace JobRequest

variable (env : JobEnv) (hlib : env.library.Lawful) (s : Store) (accountId : String) (now : IsoTime)

theorem handle_none {req : JobRequest} (h : (req.handle env s accountId now).1 = none) :
    (req.handle env s accountId now).2 = s := by
  cases req with
  | create id req =>
    unfold handle at h ⊢
    dsimp only at h ⊢
    split
    · rfl
    · rename_i hvalid
      rw [if_neg hvalid] at h
      exact createJob_none h
  | update jobId req =>
    unfold handle at h ⊢
    dsimp only at h ⊢
    split
    · rfl
    · rename_i job hjob
      simp only [hjob] at h
      split
      · rfl
      · rename_i hvalid
        rw [if_neg hvalid] at h
        exact updateJob_none h
  | toolCreate id args usable =>
    unfold handle at h ⊢
    dsimp only at h ⊢
    split
    · rfl
    · rename_i job hjob
      simp only [hjob] at h
      exact createJob_none h
  | toolUpdate needle args usable =>
    unfold handle at h ⊢
    dsimp only at h ⊢
    split
    · rfl
    · rename_i found hfound
      simp only [hfound] at h
      exact updateJob_none h

include hlib

/-- A request stores nothing or what was asked, exactly when its schedule fits. -/
theorem schedule_right (req : JobRequest) :
    ((req.handle env s accountId now).1 = none → (req.handle env s accountId now).2 = s) ∧
      ∀ job, (req.handle env s accountId now).1 = some job →
        (ScheduleRight env.library (req.asked env s accountId) job ↔ req.Fits env s accountId) := by
  refine ⟨handle_none env s accountId now, fun job h => ?_⟩
  cases req with
  | create id req =>
    unfold handle at h
    dsimp only at h
    split at h
    · cases h
    · rename_i hvalid
      obtain ⟨htrigger, htimezone⟩ := createJob_some h
      refine ⟨fun _ => trivial, fun _ => scheduleRight_of_accepted hlib htrigger ?_⟩
      rw [htrigger, htimezone]
      exact Option.isSome_iff_ne_none.mpr fun hn => hvalid (Option.isNone_iff_eq_none.mpr hn)
  | update jobId req =>
    unfold handle at h
    dsimp only at h
    split at h
    · cases h
    · rename_i found hfound
      split at h
      · cases h
      · rename_i hvalid
        obtain ⟨htrigger, htimezone⟩ := updateJob_some h
        have happly : (req.apply found now).trigger = req.trigger.getD found.trigger := by
          unfold UpdateJobRequest.apply
          dsimp only
          split <;> rfl
        refine ⟨fun _ => trivial, fun _ => scheduleRight_of_accepted hlib ?_ ?_⟩
        · rw [asked, htrigger, happly, hfound]
          cases req.trigger <;> rfl
        · rw [htrigger, htimezone]
          exact Option.isSome_iff_ne_none.mpr fun hn => hvalid (Option.isNone_iff_eq_none.mpr hn)
  | toolCreate id args usable =>
    unfold handle at h
    dsimp only at h
    split at h
    · cases h
    · rename_i d hd
      obtain ⟨htrigger, htimezone⟩ := createJob_some h
      have hfields : d.trigger = args.buildTrigger none ∧
          d.timezone = (args.timezone.filter (· ≠ "")).getD "Asia/Shanghai" := by
        unfold JobArgs.definition at hd
        split at hd <;> cases hd
        refine ⟨rfl, ?_⟩
        cases args.timezone with
        | none => rfl
        | some timezone => by_cases htz : timezone = "" <;> simp [Option.filter_some, htz]
      rw [Fits, asked, ← hfields.2, ← htimezone]
      exact scheduleRight_iff hlib (htrigger.trans hfields.1)
  | toolUpdate needle args usable =>
    unfold handle at h
    dsimp only at h
    split at h
    · cases h
    · rename_i jobId d hd
      obtain ⟨found, hfound, hmap⟩ := Option.bind_eq_some_iff.mp hd
      obtain ⟨d', happly, heq⟩ := Option.map_eq_some_iff.mp hmap
      cases heq
      obtain ⟨htrigger, htimezone⟩ := updateJob_some h
      obtain ⟨built, -, rfl⟩ := Option.map_eq_some_iff.mp happly
      rw [Fits, asked, hfound]
      have htz : job.timezone = args.timezone.getD found.timezone := htimezone
      have hiff := scheduleRight_iff hlib htrigger
      rw [htz] at hiff
      refine hiff.trans ⟨fun hfit job' hjob' => ?_, fun hfit => hfit found rfl⟩
      cases hjob'
      exact hfit

omit hlib

/-- Nine o'clock in the cron texts, and intervals of up to `timedelta.max`. -/
def sampleLibrary : TriggerLibrary where
  fromCrontab := fun expr _ => if expr = "0 9 * * *" then some ⟨0, 60, { k | k % 1440 = 540 }⟩ else none
  interval := fun n start =>
    if n.natAbs < 1000000000 * 86400 then some ⟨start.getD 0, (max n 1).toNat, { k | 0 ≤ k }⟩ else none
  instant := fun _ => 0

theorem lawful_sampleLibrary : sampleLibrary.Lawful where
  zero start := rfl
  anchored n start h := by
    by_cases hn : n.natAbs < 1000000000 * 86400
    · simp [sampleLibrary, hn]
    · simp [sampleLibrary, hn] at h
  ticks n start trigger hpos h := by
    simp only [sampleLibrary, Option.getD_some] at h
    split at h <;> cases h
    rw [max_eq_left (by omega)]

def sampleEnv : JobEnv := { library := sampleLibrary, lower := id }

def sampleAccount : AccountRow where
  accountId := "acc"
  username := "ann"
  passwordHash := ""
  createdAt := "t"
  updatedAt := "t"

def sampleStore : Store := { accounts := { rows := [sampleAccount] } }

def sampleTime : IsoTime := ⟨"2026-01-01T00:00:00Z", by decide⟩

/-- `scheduler_create_job` with an interval. -/
def createEvery (minutes : ℚ) : JobRequest :=
  .toolCreate "j" { name := some "job", triggerType := some .interval, intervalMinutes := some minutes } false

theorem schedule_right_createEvery : ∃ job,
    ((createEvery 90).handle sampleEnv sampleStore "acc" sampleTime).1 = some job ∧
      ScheduleRight sampleLibrary (.minutes 90) job := by
  obtain ⟨job, hjob⟩ := Option.isSome_iff_exists.mp
    (show ((createEvery 90).handle sampleEnv sampleStore "acc" sampleTime).1.isSome = true by decide +kernel)
  refine ⟨job, hjob, ?_⟩
  refine ((schedule_right sampleEnv lawful_sampleLibrary sampleStore "acc" sampleTime (createEvery 90)).2 job
    hjob).mpr ?_
  exact ⟨by decide, by decide +kernel, by decide +kernel, fun _ _ h => by cases h⟩

/-- Half a minute is stored as an empty interval, which the engine fires every second. -/
theorem not_scheduleRight_halfMinute : ∃ job,
    ((createEvery (1 / 2)).handle sampleEnv sampleStore "acc" sampleTime).1 = some job ∧
      ¬ScheduleRight sampleLibrary (.minutes (1 / 2)) job ∧
      ∃ trigger, sampleLibrary.engineTrigger job.trigger job.timezone (some job.createdAt) = some trigger ∧
        trigger.step = 1 := by
  obtain ⟨job, hjob⟩ := Option.isSome_iff_exists.mp
    (show ((createEvery (1 / 2)).handle sampleEnv sampleStore "acc" sampleTime).1.isSome = true by
      decide +kernel)
  have htrigger : job.trigger = .interval { hours := 0, minutes := 0 } := by
    have hmap := congrArg (Option.map (·.trigger)) hjob
    have heval : ((createEvery (1 / 2)).handle sampleEnv sampleStore "acc" sampleTime).1.map (·.trigger) =
        some (.interval { hours := 0, minutes := 0 }) := by decide +kernel
    rw [heval] at hmap
    exact (Option.some.inj hmap).symm
  refine ⟨job, hjob, fun h => ?_, ?_⟩
  · have haccepted := h.accepted
    rw [htrigger] at haccepted
    cases haccepted
  · rw [htrigger]
    have hempty : intervalTotalSeconds { hours := 0, minutes := 0 } = 0 := by decide
    exact ⟨_, rfl, step_of_empty lawful_sampleLibrary hempty job.timezone rfl⟩

end JobRequest

end PrivaCloud.AgentRunner.Jobs
