import Mathlib.Data.Rat.Floor
import Mathlib.Data.Set.Basic
import Mathlib.Tactic.FieldSimp
import Mathlib.Tactic.Linarith
import Mathlib.Tactic.Ring

/-!
# Fire epochs

`engine.fire_epoch_for` and the claim of `SchedulerEngine.fire`, whose key it is. Replicas arm the same triggers and
fire on their own clocks, at the trigger instant or later. Times are exact, in seconds.
-/

namespace PrivaCloud.Scheduler

structure IntervalTriggerConfig where
  weeks : Nat := 0
  days : Nat := 0
  hours : Nat := 0
  minutes : Nat := 0
  seconds : Nat := 0
  deriving DecidableEq

inductive TriggerConfig
  | interval (config : IntervalTriggerConfig)
  | cron (expr : String)

structure ScheduledJobDefinition where
  id : String
  trigger : TriggerConfig
  timezone : String := "UTC"
  createdAt : ℚ

def intervalSeconds (config : IntervalTriggerConfig) : Nat :=
  config.weeks * 604800 + config.days * 86400 + config.hours * 3600 + config.minutes * 60 +
    config.seconds

/-- The period of an interval trigger; an empty interval ticks every second. -/
def period (config : IntervalTriggerConfig) : Nat := max (intervalSeconds config) 1

/-- `int(x)` -/
def truncate (x : ℚ) : ℤ := if 0 ≤ x then ⌊x⌋ else ⌈x⌉

/-- `now // width * width` -/
def bucket (width : Nat) (now : ℚ) : ℚ := ⌊now / width⌋ * width

def fireEpochFor (job : ScheduledJobDefinition) (now : ℚ) : ℤ :=
  match job.trigger with
  | .interval config => truncate (bucket (period config) now)
  | .cron _ => truncate (bucket 60 now)

theorem period_pos (config : IntervalTriggerConfig) : 0 < period config :=
  Nat.lt_of_lt_of_le Nat.one_pos (Nat.le_max_right _ _)

theorem truncate_intCast (n : ℤ) : truncate n = n := by
  unfold truncate
  split
  · exact Int.floor_intCast n
  · exact Int.ceil_intCast n

theorem truncate_bucket (width : Nat) (now : ℚ) : truncate (bucket width now) = ⌊now / width⌋ * width := by
  have hcast : bucket width now = ((⌊now / width⌋ * width : ℤ) : ℚ) := by
    simp [bucket]
  rw [hcast, truncate_intCast]

section Buckets

variable {width : Nat} (hw : 0 < width)

include hw

theorem floor_add_mul (k : ℤ) (now : ℚ) : ⌊(now + k * width) / width⌋ = ⌊now / width⌋ + k := by
  have hne : (width : ℚ) ≠ 0 := by exact_mod_cast hw.ne'
  rw [add_div, mul_div_assoc, div_self hne, mul_one, Int.floor_add_intCast]

theorem floor_add_of_fits {now late : ℚ} (hl : 0 ≤ late)
    (hfit : Int.fract (now / width) * width + late < width) :
    ⌊(now + late) / width⌋ = ⌊now / width⌋ := by
  have hpos : (0 : ℚ) < width := by exact_mod_cast hw
  have hsplit : (now + late) / width = ⌊now / width⌋ + (Int.fract (now / width) + late / width) := by
    have := Int.floor_add_fract (now / (width : ℚ))
    rw [add_div]
    linarith
  have hnonneg : 0 ≤ Int.fract (now / (width : ℚ)) + late / width :=
    add_nonneg (Int.fract_nonneg _) (div_nonneg hl hpos.le)
  have hlt : Int.fract (now / (width : ℚ)) + late / width < 1 := by
    rw [← sub_pos]
    have : (1 - (Int.fract (now / (width : ℚ)) + late / width)) * width =
        width - (Int.fract (now / (width : ℚ)) * width + late) := by
      field_simp
    by_contra hn
    have := mul_nonpos_of_nonpos_of_nonneg (not_lt.mp hn) hpos.le
    linarith
  rw [hsplit, Int.floor_intCast_add, Int.floor_eq_zero_iff.mpr ⟨hnonneg, hlt⟩, add_zero]

theorem floor_add_rest (now : ℚ) :
    ⌊(now + (width - Int.fract (now / width) * width)) / width⌋ = ⌊now / width⌋ + 1 := by
  have hne : (width : ℚ) ≠ 0 := by exact_mod_cast hw.ne'
  have hsum : (now + (width - Int.fract (now / width) * width)) / width = ((⌊now / width⌋ + 1 : ℤ) : ℚ) := by
    have := Int.floor_add_fract (now / (width : ℚ))
    push_cast
    field_simp at this ⊢
    linarith
  rw [hsum, Int.floor_intCast]

end Buckets

/-- The instants of an armed trigger: `start + k * step` for the ticks `k`. -/
structure Trigger where
  start : ℚ
  step : Nat
  ticks : Set ℤ

namespace Trigger

def fires (trigger : Trigger) : Set ℚ :=
  { instant | ∃ k ∈ trigger.ticks, instant = trigger.start + k * trigger.step }

def instant (trigger : Trigger) (k : ℤ) : ℚ := trigger.start + k * trigger.step

/-- How far the instants stand in their buckets. -/
def offset (trigger : Trigger) : ℚ := Int.fract (trigger.start / trigger.step) * trigger.step

def epoch (trigger : Trigger) (k : ℤ) : ℤ := (⌊trigger.start / trigger.step⌋ + k) * trigger.step

end Trigger

section Fleet

-- `CronTrigger.from_crontab`: the minutes since the epoch that an expression selects in a time zone.
variable (cronMinutes : String → String → Set ℤ)

def buildTrigger (job : ScheduledJobDefinition) : Trigger :=
  match job.trigger with
  | .cron expr => ⟨0, 60, cronMinutes expr job.timezone⟩
  | .interval config => ⟨job.createdAt, period config, { k | 0 ≤ k }⟩

theorem buildTrigger_step_pos (job : ScheduledJobDefinition) : 0 < (buildTrigger cronMinutes job).step := by
  unfold buildTrigger
  split
  · exact Nat.succ_pos 59
  · exact period_pos _

theorem fireEpochFor_eq (job : ScheduledJobDefinition) (now : ℚ) : fireEpochFor job now =
      ⌊now / (buildTrigger cronMinutes job).step⌋ * (buildTrigger cronMinutes job).step := by
  unfold fireEpochFor buildTrigger
  cases job.trigger with
  | interval config => exact truncate_bucket _ _
  | cron expr => exact truncate_bucket _ _

/-- The replicas' clocks, the misfire grace and the longest `get_job` before `fire` reads the time. -/
structure Fleet (ρ : Type) where
  clock : ρ → ℚ
  grace : ℚ
  lookup : ℚ
  grace_pos : 0 < grace
  lookup_nonneg : 0 ≤ lookup
  clock_close : ∀ r r', |clock r - clock r'| < grace

/-- A call of `SchedulerEngine.fire`: the replica, the true time of the call and how long `get_job`
took; a scheduled call comes from an instant of the trigger. -/
inductive Call (ρ : Type)
  | scheduled (replica : ρ) (instant called took : ℚ)
  | manual (replica : ρ) (called took : ℚ)

variable {ρ : Type}

namespace Fleet

def window (fleet : Fleet ρ) : ℚ := fleet.grace + fleet.lookup

/-- `now = time.time()` in `fire`. -/
def now (fleet : Fleet ρ) : Call ρ → ℚ
  | .scheduled replica _ called took => fleet.clock replica + called + took
  | .manual replica called took => fleet.clock replica + called + took

def epoch (fleet : Fleet ρ) (job : ScheduledJobDefinition) : Call ρ → ℤ
  | .scheduled replica instant called took =>
    fireEpochFor job (fleet.now (.scheduled replica instant called took))
  | .manual replica called took => truncate (fleet.now (.manual replica called took))

/-- APScheduler calls within the grace of an instant on the replica's clock; `clicks` are the times,
as `fire` reads them, at which run-now is asked for. -/
def Makes (fleet : Fleet ρ) (clicks : Set ℚ) (job : ScheduledJobDefinition) : Call ρ → Prop
  | .scheduled replica instant called took =>
    instant ∈ (buildTrigger cronMinutes job).fires ∧ instant ≤ fleet.clock replica + called ∧
      fleet.clock replica + called < instant + fleet.grace ∧ 0 ≤ took ∧ took ≤ fleet.lookup
  | .manual replica called took => fleet.now (.manual replica called took) ∈ clicks

/-- What a call is made for: an instant of the trigger, or the second of a run-now (`trigger_now` is
double-click safe). -/
def logicalFire (fleet : Fleet ρ) : Call ρ → ℚ ⊕ ℤ
  | .scheduled _ instant _ _ => .inl instant
  | .manual replica called took => .inr (truncate (fleet.now (.manual replica called took)))

end Fleet

/-- `INSERT OR IGNORE` on the composite primary key. -/
def fireClaim (table : List (String × ℤ)) (jobId : String) (fireEpoch : ℤ) : Bool × List (String × ℤ) :=
  if (jobId, fireEpoch) ∈ table then (false, table) else (true, (jobId, fireEpoch) :: table)

/-- The calls that win their claim, in the order in which the store serves them. -/
def winners (fleet : Fleet ρ) (job : ScheduledJobDefinition) : List (Call ρ) → List (String × ℤ) → List (Call ρ)
  | [], _ => []
  | call :: calls, table =>
    match fireClaim table job.id (fleet.epoch job call) with
    | (true, table') => call :: winners fleet job calls table'
    | (false, table') => winners fleet job calls table'

variable {cronMinutes} {fleet : Fleet ρ} {clicks : Set ℚ} {job : ScheduledJobDefinition}

/-- A claim is won once: the winners' epochs are new and differ, and every call's epoch is taken. -/
theorem winners_epochs (fleet : Fleet ρ) (job : ScheduledJobDefinition) (calls : List (Call ρ))
    (table : List (String × ℤ)) :
    ((winners fleet job calls table).map (fleet.epoch job)).Nodup ∧
      (∀ w ∈ winners fleet job calls table, w ∈ calls ∧ (job.id, fleet.epoch job w) ∉ table) ∧
      ∀ call ∈ calls, (job.id, fleet.epoch job call) ∈ table ∨
        ∃ w ∈ winners fleet job calls table, fleet.epoch job w = fleet.epoch job call := by
  induction calls generalizing table with
  | nil => simp [winners]
  | cons call calls ih =>
    by_cases hclaimed : (job.id, fleet.epoch job call) ∈ table
    · have heq : winners fleet job (call :: calls) table = winners fleet job calls table := by
        simp [winners, fireClaim, hclaimed]
      obtain ⟨hnodup, hnew, htaken⟩ := ih table
      rw [heq]
      refine ⟨hnodup, fun w hw => ⟨List.mem_cons_of_mem _ (hnew w hw).1, (hnew w hw).2⟩, ?_⟩
      intro c hc
      rcases List.mem_cons.mp hc with rfl | hc
      · exact .inl hclaimed
      · exact htaken c hc
    · have heq : winners fleet job (call :: calls) table =
          call :: winners fleet job calls ((job.id, fleet.epoch job call) :: table) := by
        simp [winners, fireClaim, hclaimed]
      obtain ⟨hnodup, hnew, htaken⟩ := ih ((job.id, fleet.epoch job call) :: table)
      rw [heq]
      refine ⟨?_, ?_, ?_⟩
      · rw [List.map_cons, List.nodup_cons]
        refine ⟨fun hmem => ?_, hnodup⟩
        obtain ⟨w, hw, he⟩ := List.mem_map.mp hmem
        exact (hnew w hw).2 (by rw [he]; exact List.mem_cons_self)
      · intro w hw
        rcases List.mem_cons.mp hw with rfl | hw
        · exact ⟨List.mem_cons_self, hclaimed⟩
        · exact ⟨List.mem_cons_of_mem _ (hnew w hw).1, fun hmem => (hnew w hw).2 (List.mem_cons_of_mem _ hmem)⟩
      · intro c hc
        rcases List.mem_cons.mp hc with rfl | hc
        · exact .inr ⟨c, List.mem_cons_self, rfl⟩
        · rcases htaken c hc with hmem | ⟨w, hw, he⟩
          · rcases List.mem_cons.mp hmem with hsame | hmem
            · exact .inr ⟨call, List.mem_cons_self, (Prod.mk.inj hsame).2.symm⟩
            · exact .inl hmem
          · exact .inr ⟨w, List.mem_cons_of_mem _ hw, he⟩

variable (cronMinutes fleet clicks job)

/-- One claim for each logical fire of a job. -/
structure OneClaimPerFire : Prop where
  same : ∀ c c', fleet.Makes cronMinutes clicks job c → fleet.Makes cronMinutes clicks job c' →
    fleet.logicalFire c = fleet.logicalFire c' → fleet.epoch job c = fleet.epoch job c'
  apart : ∀ c c', fleet.Makes cronMinutes clicks job c → fleet.Makes cronMinutes clicks job c' →
    fleet.logicalFire c ≠ fleet.logicalFire c' → fleet.epoch job c ≠ fleet.epoch job c'
  claimed : ∀ calls table, (∀ c ∈ calls, fleet.Makes cronMinutes clicks job c) →
    (∀ epoch, (job.id, epoch) ∉ table) →
    ((winners fleet job calls table).map fleet.logicalFire).Nodup ∧
      ∀ c ∈ calls, fleet.logicalFire c ∈ (winners fleet job calls table).map fleet.logicalFire

/-- Every instant stands so early in its bucket that a call within the window is still in it, and no
run-now is asked for in the second that is the bucket's epoch. -/
def KeepsBuckets : Prop :=
  ∀ k ∈ (buildTrigger cronMinutes job).ticks,
    Int.fract ((buildTrigger cronMinutes job).start / (buildTrigger cronMinutes job).step) *
        (buildTrigger cronMinutes job).step + fleet.window ≤ (buildTrigger cronMinutes job).step ∧
      ∀ click ∈ clicks, truncate click ≠
        (⌊(buildTrigger cronMinutes job).start / (buildTrigger cronMinutes job).step⌋ + k) *
          (buildTrigger cronMinutes job).step

variable {cronMinutes fleet clicks job}

theorem now_of_makes {replica : ρ} {instant called took : ℚ}
    (hmade : fleet.Makes cronMinutes clicks job (.scheduled replica instant called took)) :
    instant ≤ fleet.now (.scheduled replica instant called took) ∧
      fleet.now (.scheduled replica instant called took) < instant + fleet.window := by
  obtain ⟨-, hfrom, huntil, hnonneg, htook⟩ := hmade
  simp only [Fleet.now, Fleet.window]
  constructor <;> linarith

theorem exists_makes (fleet : Fleet ρ) (clicks : Set ℚ) (replica : ρ) {instant late : ℚ}
    (hinstant : instant ∈ (buildTrigger cronMinutes job).fires) (hnonneg : 0 ≤ late)
    (hlate : late < fleet.window) :
    ∃ called took, fleet.Makes cronMinutes clicks job (.scheduled replica instant called took) ∧
      fleet.now (.scheduled replica instant called took) = instant + late := by
  unfold Fleet.window at hlate
  by_cases htook : late ≤ fleet.lookup
  · refine ⟨instant - fleet.clock replica, late, ⟨hinstant, ?_, ?_, hnonneg, htook⟩, ?_⟩
    · linarith
    · have := fleet.grace_pos
      linarith
    · simp only [Fleet.now]
      ring
  · refine ⟨instant + (late - fleet.lookup) - fleet.clock replica, fleet.lookup,
      ⟨hinstant, ?_, ?_, fleet.lookup_nonneg, le_refl _⟩, ?_⟩
    · linarith
    · linarith
    · simp only [Fleet.now]
      ring

theorem fireEpochFor_instant (k : ℤ) :
    fireEpochFor job ((buildTrigger cronMinutes job).instant k) = (buildTrigger cronMinutes job).epoch k := by
  rw [fireEpochFor_eq cronMinutes, Trigger.instant, floor_add_mul (buildTrigger_step_pos cronMinutes job)]
  rfl

theorem fireEpochFor_late {k : ℤ} {now : ℚ}
    (hroom : (buildTrigger cronMinutes job).offset + fleet.window ≤ (buildTrigger cronMinutes job).step)
    (hfrom : (buildTrigger cronMinutes job).instant k ≤ now)
    (huntil : now < (buildTrigger cronMinutes job).instant k + fleet.window) :
    fireEpochFor job now = (buildTrigger cronMinutes job).epoch k := by
  have hpos := buildTrigger_step_pos cronMinutes job
  unfold Trigger.offset at hroom
  obtain ⟨late, hlate⟩ : ∃ late, late = now - (buildTrigger cronMinutes job).instant k := ⟨_, rfl⟩
  have hnow : now = ((buildTrigger cronMinutes job).start + late) +
      k * (buildTrigger cronMinutes job).step := by
    rw [hlate, Trigger.instant]
    ring
  rw [fireEpochFor_eq cronMinutes, hnow, floor_add_mul hpos, floor_add_of_fits hpos (by linarith) (by linarith)]
  rfl

theorem tick_eq_of_epoch_eq {k k' : ℤ}
    (heq : (buildTrigger cronMinutes job).epoch k = (buildTrigger cronMinutes job).epoch k') : k = k' := by
  have hne : ((buildTrigger cronMinutes job).step : ℤ) ≠ 0 := by
    exact_mod_cast (buildTrigger_step_pos cronMinutes job).ne'
  exact add_left_cancel (mul_right_cancel₀ hne heq)

theorem oneClaimPerFire_of_epochs
    (hiff : ∀ c c', fleet.Makes cronMinutes clicks job c → fleet.Makes cronMinutes clicks job c' →
      (fleet.epoch job c = fleet.epoch job c' ↔ fleet.logicalFire c = fleet.logicalFire c')) :
    OneClaimPerFire cronMinutes fleet clicks job := by
  refine ⟨fun c c' hc hc' => (hiff c c' hc hc').mpr,
    fun c c' hc hc' hne heq => hne ((hiff c c' hc hc').mp heq), ?_⟩
  intro calls table hmade hfresh
  obtain ⟨hnodup, hnew, htaken⟩ := winners_epochs fleet job calls table
  constructor
  · rw [List.Nodup, List.pairwise_map] at hnodup ⊢
    refine hnodup.imp_of_mem ?_
    intro w w' hw hw' hne heq
    exact hne ((hiff w w' (hmade w (hnew w hw).1) (hmade w' (hnew w' hw').1)).mpr heq)
  · intro c hc
    rcases htaken c hc with hmem | ⟨w, hw, heq⟩
    · exact absurd hmem (hfresh _)
    · exact List.mem_map.mpr ⟨w, hw, (hiff w c (hmade w (hnew w hw).1) (hmade c hc)).mp heq⟩

theorem epoch_eq_iff (hkeeps : KeepsBuckets cronMinutes fleet clicks job) (c c' : Call ρ)
    (hc : fleet.Makes cronMinutes clicks job c) (hc' : fleet.Makes cronMinutes clicks job c') :
    fleet.epoch job c = fleet.epoch job c' ↔ fleet.logicalFire c = fleet.logicalFire c' := by
  -- the epoch of a scheduled call is the one of its tick
  have hscheduled : ∀ {replica instant called took},
      fleet.Makes cronMinutes clicks job (.scheduled replica instant called took) →
      ∃ k ∈ (buildTrigger cronMinutes job).ticks,
        instant = (buildTrigger cronMinutes job).instant k ∧
        fleet.epoch job (.scheduled replica instant called took) = (buildTrigger cronMinutes job).epoch k := by
    intro replica instant called took hmade
    obtain ⟨hfrom, huntil⟩ := now_of_makes hmade
    obtain ⟨⟨k, hk, rfl⟩, -⟩ := hmade
    exact ⟨k, hk, rfl, fireEpochFor_late (hkeeps k hk).1 hfrom huntil⟩
  cases c with
  | scheduled replica instant called took =>
    obtain ⟨k, hk, hinstant, hepoch⟩ := hscheduled hc
    cases c' with
    | scheduled replica' instant' called' took' =>
      obtain ⟨k', hk', hinstant', hepoch'⟩ := hscheduled hc'
      rw [hepoch, hepoch']
      simp only [Fleet.logicalFire, Sum.inl.injEq]
      constructor
      · intro heq
        rw [hinstant, hinstant', tick_eq_of_epoch_eq heq]
      · rintro rfl
        have hstep : ((buildTrigger cronMinutes job).step : ℚ) ≠ 0 := by
          exact_mod_cast (buildTrigger_step_pos cronMinutes job).ne'
        have hkk : (k : ℚ) = k' := mul_right_cancel₀ hstep (add_left_cancel (hinstant.symm.trans hinstant'))
        rw [Int.cast_injective hkk]
    | manual replica' called' took' =>
      rw [hepoch]
      simp only [Fleet.logicalFire, reduceCtorEq, iff_false]
      exact fun heq => (hkeeps k hk).2 _ hc' heq.symm
  | manual replica called took =>
    cases c' with
    | scheduled replica' instant' called' took' =>
      obtain ⟨k', hk', -, hepoch'⟩ := hscheduled hc'
      rw [hepoch']
      simp only [Fleet.logicalFire, reduceCtorEq, iff_false]
      exact (hkeeps k' hk').2 _ hc
    | manual replica' called' took' =>
      simp only [Fleet.logicalFire, Fleet.epoch, Sum.inr.injEq]

theorem exists_epoch_ne (replica : ρ) {k : ℤ} (hk : k ∈ (buildTrigger cronMinutes job).ticks)
    (hroom : (buildTrigger cronMinutes job).step < (buildTrigger cronMinutes job).offset + fleet.window) :
    ∃ c c', fleet.Makes cronMinutes clicks job c ∧ fleet.Makes cronMinutes clicks job c' ∧
      fleet.logicalFire c = fleet.logicalFire c' ∧ fleet.epoch job c ≠ fleet.epoch job c' := by
  have hpos := buildTrigger_step_pos cronMinutes job
  have hposℚ : (0 : ℚ) < (buildTrigger cronMinutes job).step := by exact_mod_cast hpos
  have hwindow : 0 < fleet.window := add_pos_of_pos_of_nonneg fleet.grace_pos fleet.lookup_nonneg
  obtain ⟨instant, hinstant⟩ : ∃ instant, instant = (buildTrigger cronMinutes job).instant k := ⟨_, rfl⟩
  have hfires : instant ∈ (buildTrigger cronMinutes job).fires := ⟨k, hk, hinstant⟩
  have hrest : (0 : ℚ) ≤ (buildTrigger cronMinutes job).step - (buildTrigger cronMinutes job).offset := by
    have := mul_le_mul_of_nonneg_right
      (Int.fract_lt_one ((buildTrigger cronMinutes job).start / (buildTrigger cronMinutes job).step)).le
      hposℚ.le
    unfold Trigger.offset
    linarith
  obtain ⟨called, took, hmade, hnow⟩ :=
    exists_makes fleet clicks replica hfires (le_refl 0) hwindow
  obtain ⟨called', took', hmade', hnow'⟩ :=
    exists_makes fleet clicks replica hfires hrest (by linarith)
  refine ⟨_, _, hmade, hmade', rfl, ?_⟩
  have hlate : instant + ((buildTrigger cronMinutes job).step - (buildTrigger cronMinutes job).offset) =
      ((buildTrigger cronMinutes job).start + ((buildTrigger cronMinutes job).step -
        (buildTrigger cronMinutes job).offset)) + k * (buildTrigger cronMinutes job).step := by
    rw [hinstant, Trigger.instant]
    ring
  simp only [Fleet.epoch]
  rw [hnow, hnow', add_zero, hlate, hinstant, fireEpochFor_instant, fireEpochFor_eq cronMinutes,
    floor_add_mul hpos, Trigger.offset, floor_add_rest hpos]
  intro heq
  have hne : ((buildTrigger cronMinutes job).step : ℤ) ≠ 0 := by exact_mod_cast hpos.ne'
  have := mul_right_cancel₀ hne heq
  omega

variable (cronMinutes fleet clicks job)

/-- Replicas claim once for each logical fire exactly when the buckets keep the window of every instant
and no run-now. -/
theorem oneClaimPerFire_iff_keepsBuckets [Inhabited ρ] :
    OneClaimPerFire cronMinutes fleet clicks job ↔ KeepsBuckets cronMinutes fleet clicks job := by
  constructor
  · intro hone k hk
    refine ⟨?_, ?_⟩
    · by_contra hroom
      obtain ⟨c, c', hc, hc', hsame, hne⟩ := exists_epoch_ne default hk (not_le.mp hroom)
      exact hne (hone.same c c' hc hc' hsame)
    · intro click hclick heq
      have hwindow : 0 < fleet.window :=
        add_pos_of_pos_of_nonneg fleet.grace_pos fleet.lookup_nonneg
      obtain ⟨called, took, hmade, hnow⟩ := exists_makes fleet clicks default ⟨k, hk, rfl⟩
        (le_refl 0) hwindow
      have hmanual : fleet.now (.manual default (click - fleet.clock default) 0) = click := by
        simp only [Fleet.now]
        ring
      refine hone.apart (.manual default (click - fleet.clock default) 0) _ ?_ hmade ?_ ?_
      · simp only [Fleet.Makes]
        rw [hmanual]
        exact hclick
      · simp [Fleet.logicalFire]
      · simp only [Fleet.epoch]
        rw [hmanual, hnow, add_zero, heq]
        exact (fireEpochFor_instant k).symm
  · intro hkeeps
    exact oneClaimPerFire_of_epochs (epoch_eq_iff hkeeps)

end Fleet

def hourlyJob : ScheduledJobDefinition :=
  { id := "hourly", trigger := .interval { hours := 1 }, createdAt := 3570 }

def twoReplicas : Fleet Bool where
  clock := fun _ => 0
  grace := 60
  lookup := 0
  grace_pos := by norm_num
  lookup_nonneg := le_refl 0
  clock_close := by norm_num

-- One replica calls at the instant 3570, the other half a minute later.
theorem hourlyJob_claimedTwice : ¬ OneClaimPerFire (fun _ _ => ∅) twoReplicas ∅ hourlyJob := by
  intro hone
  have hfires : (3570 : ℚ) ∈ (buildTrigger (fun _ _ => ∅) hourlyJob).fires :=
    ⟨0, by simp [buildTrigger, hourlyJob], by simp [buildTrigger, hourlyJob]⟩
  have hsame := hone.same (.scheduled false 3570 3570 0) (.scheduled true 3570 3600 0)
    ⟨hfires, by decide +kernel, by decide +kernel, le_refl 0, le_refl 0⟩
    ⟨hfires, by decide +kernel, by decide +kernel, le_refl 0, le_refl 0⟩ rfl
  exact absurd hsame (by decide +kernel)

end PrivaCloud.Scheduler
