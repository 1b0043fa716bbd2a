import Mathlib.Data.Finset.Card
import PrivaCloud.DataPlane.SchedulerService
import PrivaCloud.Framework.Run

/-!
# The reconcile sweep

`reconcile.sweep_once`, pass after pass, while other parties write to the run table but start no run.
Times are in microseconds.
-/

namespace PrivaCloud.Scheduler.Reconcile

open Framework DataPlane

structure SweepSettings where
  runningCeilingSeconds : Nat := 7200
  firePruneHours : Nat := 24

/-- A `datetime`, naive without an offset. -/
structure DateTime where
  wall : Int
  utcoffset : Option Int := none

def DateTime.aware (dt : DateTime) : DateTime := { dt with utcoffset := some (dt.utcoffset.getD 0) }

/-- What aware datetimes are compared by. -/
def DateTime.instant (dt : DateTime) : Int := dt.wall - dt.utcoffset.getD 0

structure TimeTexts where
  read : IsoTime → DateTime
  isoformat : Int → IsoTime

/-- The tables; a run references an account. -/
structure Ledger where
  store : Store
  accounts : ∀ row ∈ store.runs.rows, ∃ account ∈ store.accounts.rows, account.accountId = row.accountId

namespace Ledger

def rows (ledger : Ledger) : List RunRow := ledger.store.runs.rows

/-- `ORDER BY created_at ASC` -/
def accountList (ledger : Ledger) : List String :=
  (ledger.store.accounts.rows.insertionSort fun a b => a.createdAt ≤ b.createdAt).map (·.accountId)

/-- The first page of the runs of an account with a status, newest first. -/
def runList (ledger : Ledger) (accountId : String) (status : DataSpine.RunStatus) (limit : Nat) : List RunRow :=
  ((ledger.rows.filter fun row => row.accountId = accountId ∧ row.status = status).insertionSort
    fun a b => ¬ Store.newer b a).take limit

def finishRun (ledger : Ledger) (rec : JobRunRecord) : Ledger where
  store := (SchedulerService.finishRun ledger.store rec).2
  accounts := by
    unfold SchedulerService.finishRun
    split
    · have hrows : ∀ row ∈ (ledger.store.runUpdate rec.runId (SchedulerService.finishFields rec)
          (SchedulerService.finishFields_runId rec)).runs.rows,
          ∃ account ∈ ledger.store.accounts.rows, account.accountId = row.accountId := by
        intro row hrow
        obtain ⟨r, hr, rfl⟩ := List.mem_map.mp hrow
        obtain ⟨account, haccount, hid⟩ := ledger.accounts r hr
        refine ⟨account, haccount, hid.trans ?_⟩
        split <;> rfl
      dsimp only
      split
      · exact hrows
      · exact hrows
    · exact ledger.accounts

def pruneFires (ledger : Ledger) (cutoff : String) : Ledger where
  store := { ledger.store with fires := ledger.store.fires.filter fun fire => ¬ fire.claimedAt < cutoff }
  accounts := ledger.accounts

end Ledger

/-- A pass: the accounts still to list and the listed runs still to look at. -/
structure Pass where
  now : Nat
  accounts : List String
  runs : List RunRow := []
  reaped : Nat := 0

/-- The sweeper and the tables; `last` is the time of the latest pass and `results` are the counts of
reaped runs and pruned fires that the passes have returned. -/
structure Sweeper where
  ledger : Ledger
  last : Nat
  pass : Option Pass := none
  results : List (Nat × Nat) := []

inductive SweepEvent
  | begins (now : Nat)
  | lists
  | reaps
  | ends
  | changes (ledger : Ledger)

/-- A section of a pass, and not a write of another party -/
def SweepEvent.own : SweepEvent → Bool
  | .changes _ => false
  | _ => true

def Stale (settings : SweepSettings) (texts : TimeTexts) (now : Nat) (row : RunRow) : Prop :=
  (texts.read row.startedAt).aware.instant < now - settings.runningCeilingSeconds * 1000000

instance (settings : SweepSettings) (texts : TimeTexts) (now : Nat) (row : RunRow) :
    Decidable (Stale settings texts now row) := inferInstanceAs (Decidable (_ < _))

def reapRecord (texts : TimeTexts) (now : Nat) (run : RunRow) : JobRunRecord where
  runId := run.runId
  jobId := run.jobId.getD ""
  jobName := run.jobName
  username := ""
  startedAt := texts.isoformat now
  finishedAt := some (texts.isoformat now)
  status := .error
  isError := true
  errorMessage := some "dispatch_lost"

namespace Sweeper

/-- What other parties write while no run starts: a running record is one that was there, no record
changes its start or its account, and a new record has a new id. -/
def StartsNone (s : Sweeper) (ledger : Ledger) : Prop :=
  ∀ row ∈ ledger.rows,
    (∃ r ∈ s.ledger.rows, r.runId = row.runId ∧ r.accountId = row.accountId ∧ r.startedAt = row.startedAt ∧
      (row.status = .running → r.status = .running)) ∨
    row.status ≠ .running ∧ ∀ pass ∈ s.pass, ∀ run ∈ pass.runs, run.runId ≠ row.runId

instance (s : Sweeper) (ledger : Ledger) : Decidable (s.StartsNone ledger) :=
  inferInstanceAs (Decidable (∀ row ∈ ledger.rows, _ ∨ _))

/-- One section of a pass, or a write of another party. A pass begins after the sleep that follows the
pass before it. -/
def step (settings : SweepSettings) (texts : TimeTexts) (s : Sweeper) : SweepEvent → Option Sweeper
  | .begins now =>
    match s.pass with
    | none =>
      if s.last < now then
        some { s with last := now, pass := some { now := now, accounts := s.ledger.accountList } }
      else none
    | some _ => none
  | .lists =>
    match s.pass with
    | some ⟨now, accountId :: accounts, [], reaped⟩ =>
      some { s with pass := some ⟨now, accounts, s.ledger.runList accountId .running 200, reaped⟩ }
    | _ => none
  | .reaps =>
    match s.pass with
    | some ⟨now, accounts, run :: runs, reaped⟩ =>
      if Stale settings texts now run then
        some { s with
          ledger := s.ledger.finishRun (reapRecord texts now run)
          pass := some ⟨now, accounts, runs, reaped + 1⟩ }
      else some { s with pass := some ⟨now, accounts, runs, reaped⟩ }
    | _ => none
  | .ends =>
    match s.pass with
    | some ⟨now, [], [], reaped⟩ =>
      let cutoff := (texts.isoformat (now - settings.firePruneHours * 3600000000)).text
      let pruned := (s.ledger.store.fires.filter fun fire => fire.claimedAt < cutoff).length
      some { s with
        ledger := s.ledger.pruneFires cutoff
        pass := none
        results := s.results ++ [(reaped, pruned)] }
    | _ => none
  | .changes ledger => if s.StartsNone ledger then some { s with ledger := ledger } else none

def KeepsYoung (settings : SweepSettings) (texts : TimeTexts) (s : Sweeper) : SweepEvent → Prop
  | .changes _ => True
  | e => ∀ s', s.step settings texts e = some s' → ∀ row ∈ s.ledger.rows, row ∉ s'.ledger.rows →
      ∃ pass ∈ s.pass, Stale settings texts pass.now row

variable {settings : SweepSettings} {texts : TimeTexts} {s s' : Sweeper}

private theorem rows_finishRun (ledger : Ledger) (now : Nat) (run : RunRow) :
    (ledger.finishRun (reapRecord texts now run)).rows = ledger.rows.map fun row =>
        if row.runId = run.runId then SchedulerService.finishFields (reapRecord texts now run) row else row := by
  unfold Ledger.finishRun Ledger.rows
  have hbindable : SchedulerService.bindable (reapRecord texts now run) := by
    simp [SchedulerService.bindable, reapRecord]
  simp only [SchedulerService.finishRun, hbindable, if_true]
  split <;> rfl

variable {row : RunRow} {ledger ledger' : Ledger}

private theorem mem_runList {accountId : String} {status : DataSpine.RunStatus} {limit : Nat}
    (h : row ∈ ledger.runList accountId status limit) :
    row ∈ ledger.rows ∧ row.accountId = accountId ∧ row.status = status := by
  have hsorted := List.mem_of_mem_take h
  rw [List.mem_insertionSort] at hsorted
  simpa using List.mem_filter.mp hsorted

private theorem exists_mem_runList {accountId : String} {status : DataSpine.RunStatus}
    (hrow : row ∈ ledger.rows) (haccount : row.accountId = accountId) (hstatus : row.status = status) (n : Nat) :
    ∃ r, r ∈ ledger.runList accountId status (n + 1) := by
  have hmem : row ∈ (ledger.rows.filter fun r => r.accountId = accountId ∧ r.status = status).insertionSort
      fun a b => ¬ Store.newer b a := by
    rw [List.mem_insertionSort, List.mem_filter]
    exact ⟨hrow, by simp [haccount, hstatus]⟩
  unfold Ledger.runList
  revert hmem
  cases (ledger.rows.filter fun r => r.accountId = accountId ∧ r.status = status).insertionSort
      fun a b => ¬ Store.newer b a with
  | nil =>
    intro h
    cases h
  | cons r rs =>
    intro _
    exact ⟨r, by simp⟩

private theorem mem_accountList (hrow : row ∈ ledger.rows) :
    row.accountId ∈ ledger.accountList := by
  obtain ⟨account, haccount, hid⟩ := ledger.accounts row hrow
  rw [← hid]
  exact List.mem_map_of_mem ((List.mem_insertionSort _).mpr haccount)

variable {e : SweepEvent}

private theorem step_cases (h : s.step settings texts e = some s') :
    (∃ now, e = .begins now ∧ s.pass = none ∧ s.last < now ∧
      s' = { s with last := now, pass := some { now := now, accounts := s.ledger.accountList } }) ∨
    (∃ now accountId accounts reaped, e = .lists ∧ s.pass = some ⟨now, accountId :: accounts, [], reaped⟩ ∧
      s' = { s with pass := some ⟨now, accounts, s.ledger.runList accountId .running 200, reaped⟩ }) ∨
    (∃ now accounts run runs reaped, e = .reaps ∧ s.pass = some ⟨now, accounts, run :: runs, reaped⟩ ∧
      (Stale settings texts now run ∧ s' = { s with
            ledger := s.ledger.finishRun (reapRecord texts now run)
            pass := some ⟨now, accounts, runs, reaped + 1⟩ } ∨
        ¬ Stale settings texts now run ∧ s' = { s with pass := some ⟨now, accounts, runs, reaped⟩ })) ∨
    (∃ now reaped cutoff pruned, e = .ends ∧ s.pass = some ⟨now, [], [], reaped⟩ ∧ s' = { s with
        ledger := s.ledger.pruneFires cutoff, pass := none, results := s.results ++ [(reaped, pruned)] }) ∨
    (∃ ledger, e = .changes ledger ∧ s.StartsNone ledger ∧ s' = { s with ledger := ledger }) := by
  cases e with
  | begins now =>
    simp only [step] at h
    split at h
    · split at h
      · exact .inl ⟨now, rfl, ‹_›, ‹_›, (Option.some.inj h).symm⟩
      · cases h
    · cases h
  | lists =>
    simp only [step] at h
    split at h
    · exact .inr (.inl ⟨_, _, _, _, rfl, ‹_›, (Option.some.inj h).symm⟩)
    · cases h
  | reaps =>
    simp only [step] at h
    split at h
    · refine .inr (.inr (.inl ⟨_, _, _, _, _, rfl, ‹_›, ?_⟩))
      split at h
      · exact .inl ⟨‹_›, (Option.some.inj h).symm⟩
      · exact .inr ⟨‹_›, (Option.some.inj h).symm⟩
    · cases h
  | ends =>
    simp only [step] at h
    split at h
    · exact .inr (.inr (.inr (.inl ⟨_, _, _, _, rfl, ‹_›, (Option.some.inj h).symm⟩)))
    · cases h
  | changes ledger =>
    simp only [step] at h
    split at h
    · exact .inr (.inr (.inr (.inr ⟨ledger, rfl, ‹_›, (Option.some.inj h).symm⟩)))
    · cases h

def Listed (s : Sweeper) : Prop :=
  ∀ pass ∈ s.pass, ∀ run ∈ pass.runs, ∀ row ∈ s.ledger.rows, row.runId = run.runId →
    row.startedAt = run.startedAt

private theorem Listed.finishRun (h : s.Listed) (texts : TimeTexts) (now : Nat) (run : RunRow) :
    { s with ledger := s.ledger.finishRun (reapRecord texts now run) }.Listed := by
  intro pass hp r hr row hrow hid
  rw [show ({ s with ledger := s.ledger.finishRun (reapRecord texts now run) } : Sweeper).ledger.rows = _ from
    rows_finishRun s.ledger now run] at hrow
  obtain ⟨old, hold, rfl⟩ := List.mem_map.mp hrow
  have hsame := h pass hp r hr old hold
  by_cases hrun : old.runId = run.runId
  · rw [if_pos hrun] at hid ⊢
    exact hsame hid
  · rw [if_neg hrun] at hid ⊢
    exact hsame hid

private theorem listed_step (h : s.Listed) (hs : s.step settings texts e = some s') : s'.Listed := by
  rcases step_cases hs with ⟨now, -, -, -, rfl⟩ | ⟨now, accountId, accounts, reaped, -, -, rfl⟩ |
    ⟨now, accounts, run, runs, reaped, -, hpass, ⟨-, rfl⟩ | ⟨-, rfl⟩⟩ |
    ⟨now, reaped, cutoff, pruned, -, -, rfl⟩ | ⟨ledger, -, hnone, rfl⟩
  · intro pass hp run hrun
    cases hp
    cases hrun
  · intro pass hp run hrun row hrow hid
    cases hp
    rw [List.inj_on_of_nodup_map s.ledger.store.runs.nodup hrow (mem_runList hrun).1 hid]
  · intro pass hp r hr
    cases hp
    exact h.finishRun texts now run _ hpass r (List.mem_cons_of_mem _ hr)
  · intro pass hp r hr
    cases hp
    exact h _ hpass r (List.mem_cons_of_mem _ hr)
  · intro pass hp
    cases hp
  · intro pass hp run hrun row hrow hid
    rcases hnone row hrow with ⟨r, hr, hrid, -, hstart, -⟩ | ⟨-, hnew⟩
    · rw [← hstart]
      exact h pass hp run hrun r hr (hrid.trans hid)
    · exact absurd hid.symm (hnew pass hp run hrun)

private theorem keepsYoung_of_listed (h : s.Listed) (e : SweepEvent) : KeepsYoung settings texts s e := by
  cases e with
  | changes ledger => trivial
  | begins now | lists | reaps | ends =>
    intro s' hs row hrow hgone
    rcases step_cases hs with ⟨now, -, -, -, rfl⟩ | ⟨now, accountId, accounts, reaped, -, -, rfl⟩ |
      ⟨now, accounts, run, runs, reaped, -, hpass, ⟨hstale, rfl⟩ | ⟨-, rfl⟩⟩ |
      ⟨now, reaped, cutoff, pruned, -, -, rfl⟩ | ⟨ledger, he, -, rfl⟩
    · exact absurd hrow hgone
    · exact absurd hrow hgone
    · refine ⟨_, hpass, ?_⟩
      by_cases hid : row.runId = run.runId
      · have hstart := h _ hpass run List.mem_cons_self row hrow hid
        unfold Stale at hstale ⊢
        rw [hstart]
        exact hstale
      · refine absurd ?_ hgone
        rw [rows_finishRun, List.mem_map]
        exact ⟨row, hrow, if_neg hid⟩
    · exact absurd hrow hgone
    · exact absurd hrow hgone
    · cases he

def runningIds (ledger : Ledger) : Finset String :=
  ((ledger.rows.filter fun row => row.status = .running).map (·.runId)).toFinset

private theorem mem_runningIds {runId : String} :
    runId ∈ runningIds ledger ↔ ∃ row ∈ ledger.rows, row.status = .running ∧ row.runId = runId := by
  simp [runningIds, and_assoc]

def Pending (ledger : Ledger) (pass : Pass) : Prop :=
  (∃ row ∈ ledger.rows, row.status = .running ∧ row.accountId ∈ pass.accounts) ∨
    ∃ run ∈ pass.runs, run.runId ∈ runningIds ledger

/-- Where the sweeper stands on its way, when no record runs since later than `bound` and `count` were
running at first. -/
structure Closing (settings : SweepSettings) (texts : TimeTexts) (bound count : Nat) (s : Sweeper) : Prop where
  listed : s.Listed
  old : ∀ row ∈ s.ledger.rows, row.status = .running → ∀ now : Nat, bound ≤ now → Stale settings texts now row
  begun : s.results.length + s.pass.toList.length ≤ s.last
  fewer : (runningIds s.ledger).card ≤ count
  latest : ∀ pass ∈ s.pass, pass.now = s.last
  between : (runningIds s.ledger).card = 0 ∨ s.results.length + (runningIds s.ledger).card ≤ bound + count
  within : ∀ pass ∈ s.pass, (runningIds s.ledger).card = 0 ∨
    s.results.length + 1 + (runningIds s.ledger).card ≤ bound + count ∨
    bound ≤ pass.now ∧ Pending s.ledger pass

def LeavesNone (settings : SweepSettings) (texts : TimeTexts) (s : Sweeper) : Prop :=
  ∀ now, ∀ row ∈ s.ledger.rows, row.status = .running → ¬ Stale settings texts now row

def Shrinks (ledger ledger' : Ledger) : Prop :=
  ∀ row ∈ ledger'.rows, row.status = .running → ∃ r ∈ ledger.rows, r.status = .running ∧
    r.runId = row.runId ∧ r.accountId = row.accountId ∧ r.startedAt = row.startedAt

private theorem shrinks_finishRun (ledger : Ledger) (texts : TimeTexts) (now : Nat) (run : RunRow) :
    Shrinks ledger (ledger.finishRun (reapRecord texts now run)) := by
  intro row hrow hrunning
  rw [rows_finishRun] at hrow
  obtain ⟨old, hold, rfl⟩ := List.mem_map.mp hrow
  by_cases hid : old.runId = run.runId
  · rw [if_pos hid] at hrunning
    cases hrunning
  · rw [if_neg hid] at hrunning ⊢
    exact ⟨old, hold, hrunning, rfl, rfl, rfl⟩

private theorem shrinks_of_startsNone (h : s.StartsNone ledger) : Shrinks s.ledger ledger := by
  intro row hrow hrunning
  rcases h row hrow with ⟨r, hr, hid, haccount, hstart, hwas⟩ | ⟨hclosed, -⟩
  · exact ⟨r, hr, hwas hrunning, hid, haccount, hstart⟩
  · exact absurd hrunning hclosed

private theorem Shrinks.subset (h : Shrinks ledger ledger') :
    runningIds ledger' ⊆ runningIds ledger := by
  intro runId hid
  obtain ⟨row, hrow, hrunning, rfl⟩ := mem_runningIds.mp hid
  obtain ⟨r, hr, hwas, hsame, -⟩ := h row hrow hrunning
  exact mem_runningIds.mpr ⟨r, hr, hwas, hsame⟩

private theorem Shrinks.card_lt (h : Shrinks ledger ledger') {runId : String}
    (hid : runId ∈ runningIds ledger) (hgone : runId ∉ runningIds ledger') :
    (runningIds ledger').card < (runningIds ledger).card :=
  Finset.card_lt_card ⟨h.subset, fun hback => hgone (hback hid)⟩

private theorem Shrinks.pending (h : Shrinks ledger ledger') {pass : Pass}
    (hp : Pending ledger pass) :
    Pending ledger' pass ∨ (runningIds ledger').card < (runningIds ledger).card := by
  rcases hp with ⟨row, hrow, hrunning, haccount⟩ | ⟨run, hrun, hid⟩
  · by_cases hstill : row.runId ∈ runningIds ledger'
    · obtain ⟨row', hrow', hrunning', hid'⟩ := mem_runningIds.mp hstill
      obtain ⟨r, hr, -, hrid, hracc, -⟩ := h row' hrow' hrunning'
      have hsame := List.inj_on_of_nodup_map ledger.store.runs.nodup hr hrow (hrid.trans hid')
      refine .inl (.inl ⟨row', hrow', hrunning', ?_⟩)
      rw [← hracc, hsame]
      exact haccount
    · exact .inr (h.card_lt (mem_runningIds.mpr ⟨row, hrow, hrunning, rfl⟩) hstill)
  · by_cases hstill : run.runId ∈ runningIds ledger'
    · exact .inl (.inr ⟨run, hrun, hstill⟩)
    · exact .inr (h.card_lt hid hstill)

variable {bound count : Nat}

private theorem Closing.shrinks (h : s.Closing settings texts bound count)
    (hshrinks : Shrinks s.ledger ledger) (hlisted : { s with ledger := ledger }.Listed) :
    { s with ledger := ledger }.Closing settings texts bound count := by
  have hcard := Finset.card_le_card hshrinks.subset
  refine ⟨hlisted, ?_, h.begun, hcard.trans h.fewer, h.latest, ?_, ?_⟩
  · intro row hrow hrunning now hnow
    obtain ⟨r, hr, hwas, -, -, hstart⟩ := hshrinks row hrow hrunning
    have hstale := h.old r hr hwas now hnow
    unfold Stale at hstale ⊢
    rw [← hstart]
    exact hstale
  · have hbetween := h.between
    dsimp only
    omega
  · intro pass hpass
    have hbetween := h.between
    rcases h.within pass hpass with hnone | hdone | ⟨hlate, hpending⟩
    · exact .inl (Nat.le_zero.mp (hcard.trans hnone.le))
    · refine .inr (.inl ?_)
      dsimp only
      omega
    · rcases hshrinks.pending hpending with hleft | hless
      · exact .inr (.inr ⟨hlate, hleft⟩)
      · dsimp only
        omega

variable {accounts : List String} {runs : List RunRow} {now reaped : Nat}

/-- The pass goes on to its next listed run; the one before it is not running. -/
theorem Closing.pop (h : s.Closing settings texts bound count)
    {run : RunRow}
    (hpass : s.pass = some ⟨now, accounts, run :: runs, reaped⟩) (n : Nat)
    (hclosed : bound ≤ now → run.runId ∉ runningIds s.ledger) :
    { s with pass := some ⟨now, accounts, runs, n⟩ }.Closing settings texts bound count := by
  refine ⟨?_, h.old, ?_, h.fewer, ?_, h.between, ?_⟩
  · intro pass hp r hr
    cases hp
    exact h.listed _ hpass r (List.mem_cons_of_mem _ hr)
  · have hbegun := h.begun
    rw [hpass] at hbegun
    exact hbegun
  · intro pass hp
    cases hp
    have hlatest := h.latest _ hpass
    exact hlatest
  · intro pass hp
    cases hp
    rcases h.within _ hpass with hnone | hdone | ⟨hlate, hrow | ⟨r, hr, hid⟩⟩
    · exact .inl hnone
    · exact .inr (.inl hdone)
    · exact .inr (.inr ⟨hlate, .inl hrow⟩)
    · rcases List.mem_cons.mp hr with rfl | hr
      · exact absurd hid (hclosed hlate)
      · exact .inr (.inr ⟨hlate, .inr ⟨r, hr, hid⟩⟩)

private theorem not_running_reaped (ledger : Ledger) (now : Nat) (run : RunRow) :
    run.runId ∉ runningIds (ledger.finishRun (reapRecord texts now run)) := by
  rintro hid
  obtain ⟨row, hrow, hrunning, hsame⟩ := mem_runningIds.mp hid
  rw [rows_finishRun] at hrow
  obtain ⟨old, -, rfl⟩ := List.mem_map.mp hrow
  by_cases hrun : old.runId = run.runId
  · rw [if_pos hrun] at hrunning
    cases hrunning
  · rw [if_neg hrun] at hsame
    exact hrun hsame

private theorem closing_step (h : s.Closing settings texts bound count)
    (hs : s.step settings texts e = some s') : s'.Closing settings texts bound count := by
  have hlisted := listed_step h.listed hs
  rcases step_cases hs with ⟨now, -, hpass, hnow, rfl⟩ | ⟨now, accountId, accounts, reaped, -, hpass, rfl⟩ |
    ⟨now, accounts, run, runs, reaped, -, hpass, ⟨-, rfl⟩ | ⟨hyoung, rfl⟩⟩ |
    ⟨now, reaped, cutoff, pruned, -, hpass, rfl⟩ | ⟨ledger, -, hnone, rfl⟩
  · have hbegun := h.begun
    rw [hpass] at hbegun
    refine ⟨hlisted, h.old, ?_, h.fewer, ?_, h.between, ?_⟩
    · simp only [Option.toList_none, List.length_nil, Option.toList_some, List.length_singleton] at hbegun ⊢
      omega
    · intro pass hp
      cases hp
      rfl
    · intro pass hp
      cases hp
      by_cases hlate : bound ≤ now
      · rcases Finset.eq_empty_or_nonempty (runningIds s.ledger) with hempty | ⟨runId, hid⟩
        · exact .inl (Finset.card_eq_zero.mpr hempty)
        · obtain ⟨row, hrow, hrunning, -⟩ := mem_runningIds.mp hid
          exact .inr (.inr ⟨hlate, .inl ⟨row, hrow, hrunning, mem_accountList hrow⟩⟩)
      · have hfewer := h.fewer
        refine .inr (.inl ?_)
        simp only [Option.toList_none, List.length_nil] at hbegun
        dsimp only
        omega
  · refine ⟨hlisted, h.old, ?_, h.fewer, ?_, h.between, ?_⟩
    · have hbegun := h.begun
      rw [hpass] at hbegun
      exact hbegun
    · intro pass hp
      cases hp
      have hlatest := h.latest _ hpass
      exact hlatest
    · intro pass hp
      cases hp
      rcases h.within _ hpass with hnone | hdone | ⟨hlate, ⟨row, hrow, hrunning, haccount⟩ | ⟨r, hr, -⟩⟩
      · exact .inl hnone
      · exact .inr (.inl hdone)
      · rcases List.mem_cons.mp haccount with haccount | haccount
        · -- the account that is listed now: its page is not empty
          obtain ⟨r, hr⟩ := exists_mem_runList hrow haccount hrunning 199
          obtain ⟨hmem, -, hstatus⟩ := mem_runList hr
          exact .inr (.inr ⟨hlate, .inr ⟨r, hr, mem_runningIds.mpr ⟨r, hmem, hstatus, rfl⟩⟩⟩)
        · exact .inr (.inr ⟨hlate, .inl ⟨row, hrow, hrunning, haccount⟩⟩)
      · cases hr
  · have hfinished := h.shrinks (shrinks_finishRun s.ledger texts now run)
      (h.listed.finishRun texts now run)
    exact hfinished.pop hpass (reaped + 1) fun _ => not_running_reaped s.ledger now run
  · refine h.pop hpass reaped ?_
    intro hlate hid
    obtain ⟨row, hrow, hrunning, hsame⟩ := mem_runningIds.mp hid
    have hstart := h.listed _ hpass run List.mem_cons_self row hrow hsame
    have hstale := h.old row hrow hrunning now hlate
    unfold Stale at hstale hyoung
    rw [hstart] at hstale
    exact hyoung hstale
  · have hbegun := h.begun
    rw [hpass] at hbegun
    have hcard : (runningIds (s.ledger.pruneFires cutoff)).card = (runningIds s.ledger).card := rfl
    refine ⟨hlisted, h.old, ?_, h.fewer, ?_, ?_, ?_⟩
    · simpa using hbegun
    · intro pass hp
      cases hp
    · rcases h.within _ hpass with hnone | hdone | ⟨-, ⟨row, -, -, haccount⟩ | ⟨r, hr, -⟩⟩
      · exact .inl hnone
      · simp only [List.length_append, List.length_singleton]
        exact .inr hdone
      · cases haccount
      · cases hr
    · intro pass hp
      cases hp
  · exact h.shrinks (shrinks_of_startsNone hnone) hlisted

theorem Closing.leavesNone (h : s.Closing settings texts bound count) (hpasses : bound + count + 1 ≤ s.results.length) :
    LeavesNone settings texts s := by
  intro now row hrow hrunning
  have hempty : (runningIds s.ledger).card = 0 := by
    have hbetween := h.between
    omega
  have hmem := mem_runningIds.mpr ⟨row, hrow, hrunning, rfl⟩
  rw [Finset.card_eq_zero.mp hempty] at hmem
  cases hmem

private theorem exists_bound (settings : SweepSettings) (texts : TimeTexts) (rows : List RunRow) :
    ∃ bound : Nat, ∀ row ∈ rows, ∀ now : Nat, bound ≤ now → Stale settings texts now row := by
  induction rows with
  | nil => exact ⟨0, fun row hrow => absurd hrow List.not_mem_nil⟩
  | cons r rows ih =>
    obtain ⟨bound, hbound⟩ := ih
    refine ⟨max bound
      ((texts.read r.startedAt).aware.instant + settings.runningCeilingSeconds * 1000000 + 1).toNat, ?_⟩
    intro row hrow now hnow
    rcases List.mem_cons.mp hrow with rfl | hrow
    · unfold Stale
      omega
    · exact hbound row hrow now (le_trans (le_max_left _ _) hnow)

/-- The sweeper can go on by itself until it has returned from so many passes. -/
def CanPass (settings : SweepSettings) (texts : TimeTexts) (passes : Nat) (s : Sweeper) : Prop :=
  ∃ es s', (∀ e ∈ es, e.own = true) ∧ run (step settings texts) s es = some s' ∧ passes ≤ s'.results.length

variable {passes : Nat}

private theorem CanPass.cons (howned : e.own = true) (hs : s.step settings texts e = some s')
    (h : CanPass settings texts passes s') : CanPass settings texts passes s := by
  obtain ⟨es, last, hown, hrun, hpasses⟩ := h
  exact ⟨e :: es, last, List.forall_mem_cons.mpr ⟨howned, hown⟩, run_cons_eq_some.mpr ⟨s', hs, hrun⟩, hpasses⟩

/-- The listed runs are looked at one after the other. -/
theorem canPass_of_runs
    (hrest : ∀ s' : Sweeper, s'.results = s.results → (∃ n, s'.pass = some ⟨now, accounts, [], n⟩) →
      CanPass settings texts passes s')
    (hpass : s.pass = some ⟨now, accounts, runs, reaped⟩) : CanPass settings texts passes s := by
  induction runs generalizing s reaped with
  | nil => exact hrest s rfl ⟨reaped, hpass⟩
  | cons run runs ih =>
    obtain ⟨s', hs, hresults, n, hnext⟩ : ∃ s', s.step settings texts .reaps = some s' ∧ s'.results = s.results ∧
        ∃ n, s'.pass = some ⟨now, accounts, runs, n⟩ := by
      simp only [step, hpass]
      split
      · exact ⟨_, rfl, rfl, reaped + 1, rfl⟩
      · exact ⟨_, rfl, rfl, reaped, rfl⟩
    exact (ih (fun last hsame => hrest last (hsame.trans hresults)) hnext).cons rfl hs

/-- The accounts are listed one after the other, and the pass returns. -/
theorem canPass_of_pass
    (hrest : ∀ s' : Sweeper, s'.pass = none → s'.results.length = s.results.length + 1 →
      CanPass settings texts passes s')
    (hpass : s.pass = some ⟨now, accounts, runs, reaped⟩) : CanPass settings texts passes s := by
  induction accounts generalizing s runs reaped with
  | nil =>
    refine canPass_of_runs (fun s' hresults hend => ?_) hpass
    obtain ⟨n, hend⟩ := hend
    obtain ⟨last, hs, hnone, hlength⟩ : ∃ last, s'.step settings texts .ends = some last ∧ last.pass = none ∧
        last.results.length = s.results.length + 1 := by
      simp only [step, hend]
      exact ⟨_, rfl, rfl, by simp [hresults]⟩
    exact (hrest last hnone hlength).cons rfl hs
  | cons account accounts ih =>
    refine canPass_of_runs (fun s' hresults hend => ?_) hpass
    obtain ⟨n, hend⟩ := hend
    obtain ⟨mid, hs, hsame, page, hpage⟩ : ∃ mid, s'.step settings texts .lists = some mid ∧
        mid.results = s'.results ∧ ∃ page, mid.pass = some ⟨now, accounts, page, n⟩ := by
      simp only [step, hend]
      exact ⟨_, rfl, rfl, _, rfl⟩
    exact (ih (fun last hnone hlength => hrest last hnone (by rw [hlength, hsame, hresults])) hpage).cons rfl hs

private theorem canPass (settings : SweepSettings) (texts : TimeTexts) (passes : Nat) (s : Sweeper) :
    CanPass settings texts passes s := by
  induction hn : passes - s.results.length generalizing s with
  | zero => exact ⟨[], s, fun _ he => absurd he List.not_mem_nil, rfl, by omega⟩
  | succ n ih =>
    have hrest : ∀ s' : Sweeper, s'.pass = none → s'.results.length = s.results.length + 1 →
        CanPass settings texts passes s' := fun s' _ hlength => ih s' (by omega)
    cases hpass : s.pass with
    | some pass => exact canPass_of_pass hrest hpass
    | none =>
      have hs : s.step settings texts (.begins (s.last + 1)) = some { s with
          last := s.last + 1, pass := some { now := s.last + 1, accounts := s.ledger.accountList } } := by
        simp only [step, hpass, if_pos (Nat.lt_succ_self s.last)]
      exact CanPass.cons rfl hs (canPass_of_pass (fun s' hnone hlength => hrest s' hnone hlength) rfl)

end Sweeper

open Sweeper

/-- As long as no run starts, so many passes leave no record that runs, however late one looks; the sweeper gets to so
many passes from wherever it stands, and no pass changes a record that is younger than the ceiling. -/
theorem sweep_reaches_lost_runs (settings : SweepSettings) (texts : TimeTexts) (ledger : Ledger) (last : Nat) :
    (∃ passes, ∀ es s, run (step settings texts) { ledger := ledger, last := last } es = some s →
        (passes ≤ s.results.length → LeavesNone settings texts s) ∧
          ∃ es' s', (∀ e ∈ es', e.own = true) ∧ run (step settings texts) s es' = some s' ∧
            passes ≤ s'.results.length ∧ LeavesNone settings texts s') ∧
      ∀ es, RunMeets (step settings texts) (KeepsYoung settings texts) { ledger := ledger, last := last } es := by
  constructor
  · obtain ⟨bound, hbound⟩ := exists_bound settings texts ledger.rows
    have hstart : Closing settings texts bound (runningIds ledger).card { ledger := ledger, last := last } := by
      refine ⟨?_, fun row hrow _ => hbound row hrow, Nat.zero_le _, le_refl _, ?_, .inr (by simp), ?_⟩
      · exact fun _ h => (by cases h)
      · exact fun _ h => (by cases h)
      · exact fun _ h => (by cases h)
    refine ⟨bound + (runningIds ledger).card + 1, fun es s hr => ?_⟩
    have hclosing := run_invariant_always (fun _ _ _ h hs => closing_step h hs) hstart hr
    obtain ⟨es', s', hown, hr', hpasses⟩ := canPass settings texts (bound + (runningIds ledger).card + 1) s
    have hend := run_invariant_always (fun _ _ _ h hs => closing_step h hs) hclosing hr'
    exact ⟨hclosing.leavesNone, es', s', hown, hr', hpasses, hend.leavesNone hpasses⟩
  · intro es
    have halways : RunMeets (step settings texts) (fun _ _ => True) { ledger := ledger, last := last } es :=
      runMeets_true _ es
    refine runMeets_of_invariant (fun _ _ _ h _ hs => listed_step h hs)
      (fun _ e h _ => keepsYoung_of_listed h e) ?_ halways
    intro pass hp
    cases hp

/-- A run of 1970 that was never finished -/
def lostLedger : Ledger where
  store := {
    accounts := ⟨[{ accountId := "acct", username := "u", passwordHash := "", createdAt := "", updatedAt := "" }],
      by decide⟩
    runs := ⟨[{ runId := "r", jobId := none, jobName := "job", accountId := "acct", sessionId := none
                startedAt := .ofText "1970-01-01T00:00:00+00:00", finishedAt := none, status := .running
                durationMs := none, isError := false, errorMessage := none, numTurns := none
                resultSummary := none }], by decide⟩ }
  accounts := by decide

def epochTexts : TimeTexts where
  read := fun _ => ⟨0, some 0⟩
  isoformat := fun _ => .ofText "1970-01-01T00:00:00+00:00"

theorem sweep_reaches_lostLedger :
    (∃ row ∈ lostLedger.rows, row.status = .running ∧ Stale {} epochTexts 7200000001 row) ∧
      ∃ es s, run (step {} epochTexts) { ledger := lostLedger, last := 0 } es = some s ∧ LeavesNone {} epochTexts s := by
  obtain ⟨⟨_, hsweep⟩, -⟩ := sweep_reaches_lost_runs {} epochTexts lostLedger 0
  obtain ⟨-, es, s, -, hr, -, hnone⟩ := hsweep [] _ rfl
  exact ⟨by decide, es, s, hr, hnone⟩

end PrivaCloud.Scheduler.Reconcile
