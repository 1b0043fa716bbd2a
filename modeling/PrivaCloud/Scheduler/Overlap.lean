import PrivaCloud.Scheduler.FireSystem

/-!
# Overlapping runs of a job

`fire` starts a run when the newest record of the job is not running. The check is right as long as
a running record stays the newest one: a skip that is recorded meanwhile hides it from the next fire.
-/

namespace PrivaCloud.Scheduler

open Framework DataSpine

def Fire.of (fire : Fire) (accountId jobId : String) : Prop :=
  fire.accountId = accountId ∧ fire.jobId = jobId

instance (fire : Fire) (accountId jobId : String) : Decidable (fire.of accountId jobId) :=
  inferInstanceAs (Decidable (_ ∧ _))

def RunOf (row : RunRow) (accountId jobId : String) : Prop :=
  row.accountId = accountId ∧ row.jobId = some jobId

instance (row : RunRow) (accountId jobId : String) : Decidable (RunOf row accountId jobId) :=
  inferInstanceAs (Decidable (_ ∧ _))

namespace SchedulerSystem

section Job

variable (accountId jobId : String)

def NoneRunning (s : SchedulerSystem) : Prop :=
  ∀ row ∈ s.ledger.rows, RunOf row accountId jobId → row.status ≠ .running

instance (s : SchedulerSystem) : Decidable (s.NoneRunning accountId jobId) :=
  inferInstanceAs (Decidable (∀ row ∈ s.ledger.rows, _))

/-- The fires of the job are processed one after another. -/
def OneByOne (s : SchedulerSystem) (e : SchedulerEvent) : Prop :=
  match e with
  | .fireClaimed a j _ => a = accountId ∧ j = jobId →
      ∀ fire ∈ s.fires, fire.of accountId jobId → fire.phase = .ended
  | _ => True

/-- No skip of the job is recorded while one of its runs is running, and a run that starts is newer
than every record of the job. -/
def KeepsNewest (s : SchedulerSystem) (e : SchedulerEvent) : Prop :=
  match e with
  | .skipRecorded f _ _ => ∀ fire ∈ s.fires[f]?, fire.of accountId jobId → s.NoneRunning accountId jobId
  | .runStarted f runId now => ∀ fire ∈ s.fires[f]?, fire.of accountId jobId →
      ∀ row ∈ s.ledger.rows, RunOf row accountId jobId → row.age ≤ toLex (now, runId)
  | _ => True

/-- `fire` calls `start_run` for the job only when no record of the job is running. -/
def StartsAlone (s : SchedulerSystem) (e : SchedulerEvent) : Prop :=
  match e with
  | .runStarted f _ _ => ∀ fire ∈ s.fires[f]?, fire.of accountId jobId → fire.phase = .starting →
      s.NoneRunning accountId jobId
  | _ => True

instance (s : SchedulerSystem) (e : SchedulerEvent) : Decidable (OneByOne accountId jobId s e) := by
  cases e <;> dsimp only [OneByOne] <;> infer_instance

instance (s : SchedulerSystem) (e : SchedulerEvent) : Decidable (KeepsNewest accountId jobId s e) := by
  cases e <;> dsimp only [KeepsNewest] <;> infer_instance

instance (s : SchedulerSystem) (e : SchedulerEvent) : Decidable (StartsAlone accountId jobId s e) := by
  cases e <;> dsimp only [StartsAlone] <;> infer_instance

/-- A running record is the newest of its job, at most one fire of the job is in flight, and when it
is about to start a run nothing of the job is running. -/
structure Watched (s : SchedulerSystem) : Prop where
  newest : ∀ row ∈ s.ledger.rows, RunOf row accountId jobId → row.status = .running →
    ∀ r ∈ s.ledger.rows, RunOf r accountId jobId → r.age ≤ row.age
  single : ∀ (f g : Nat) (fire other : Fire), s.fires[f]? = some fire → s.fires[g]? = some other →
    fire.of accountId jobId → other.of accountId jobId → fire.phase ≠ .ended →
    other.phase ≠ .ended → f = g
  clear : ∀ fire ∈ s.fires, fire.of accountId jobId → fire.phase = .starting → s.NoneRunning accountId jobId
  closing : ∀ fire ∈ s.fires, ∀ status ∈ fire.phase.closing?, status ≠ .running
  writing : ∀ a id (run : PodRun) rec, (s.pods a).accepted.lookup id = some run → run.phase = .writing rec →
    rec.status ≠ .running

variable {accountId jobId} {settings : SchedulerSettings} {s s' : SchedulerSystem} {fire : Fire}

theorem watched_init (jobs : List String) : (init jobs).Watched accountId jobId where
  newest _ h := by cases h
  single _ _ _ _ h := by cases h
  clear _ h := by cases h
  closing _ h := by cases h
  writing _ _ _ _ h := by cases h

theorem Watched.congr (h : s.Watched accountId jobId) (hledger : s'.ledger = s.ledger)
    (hfires : s'.fires = s.fires)
    (hwriting : ∀ a id (run : PodRun) rec, (s'.pods a).accepted.lookup id = some run →
      run.phase = .writing rec → rec.status ≠ .running) : s'.Watched accountId jobId where
  newest := by rw [hledger]; exact h.newest
  single := by rw [hfires]; exact h.single
  clear := by rw [hfires, NoneRunning, hledger]; exact h.clear
  closing := by rw [hfires]; exact h.closing
  writing := hwriting

theorem Watched.finishRun (h : s.Watched accountId jobId) {rec : JobRunRecord}
    (hstatus : rec.status ≠ .running) :
    { s with ledger := s.ledger.finishRun rec }.Watched accountId jobId := by
  -- a row that still runs is an old one
  have hold : ∀ row ∈ (s.ledger.finishRun rec).rows, row.status = .running → row ∈ s.ledger.rows := by
    intro row hrow hrun
    obtain ⟨r, hr, -, -, -, -, ⟨-, hout⟩ | ⟨-, rfl⟩⟩ := RunLedger.mem_finishRun hrow
    · have hclosed : row.status = rec.status := congrArg Outcome.status hout
      exact absurd (hclosed.symm.trans hrun) hstatus
    · exact hr
  refine ⟨?_, h.single, ?_, h.closing, h.writing⟩
  · intro row hrow hof hrun r hr hrof
    obtain ⟨r₀, hr₀, hid, hjob, hacc, hstarted, -⟩ := RunLedger.mem_finishRun hr
    have hage : r.age = r₀.age := by simp [RunRow.age, hid, hstarted]
    rw [hage]
    exact h.newest row (hold row hrow hrun) hof hrun r₀ hr₀ ⟨hacc ▸ hrof.1, hjob ▸ hrof.2⟩
  · intro fire hfire hof hstart row hrow hrof hrun
    exact h.clear fire hfire hof hstart row (hold row hrow hrun) hrof hrun

/-- A fire moves on: with the rows as they are it starts only when nothing is running. -/
theorem Watched.setFire (h : s.Watched accountId jobId) {f : Nat} (fire' : Fire)
    (hf : s.fires[f]? = some fire) (hlive : fire.phase ≠ .ended)
    (haccount : fire'.accountId = fire.accountId) (hjob : fire'.jobId = fire.jobId)
    (hclosing : ∀ status ∈ fire'.phase.closing?, status ≠ .running)
    (hclear : fire'.phase = .starting → fire.of accountId jobId → s.NoneRunning accountId jobId) :
    (s.setFire f fire').Watched accountId jobId := by
  have hof : fire'.of accountId jobId ↔ fire.of accountId jobId := by
    simp [Fire.of, haccount, hjob]
  refine ⟨h.newest, ?_, ?_, ?_, h.writing⟩
  · intro g k other other' hg hk hgof hkof hglive hklive
    rcases getElem?_setFire hg with ⟨-, hg'⟩ | ⟨rfl, rfl⟩
    · rcases getElem?_setFire hk with ⟨-, hk'⟩ | ⟨rfl, rfl⟩
      · exact h.single g k other other' hg' hk' hgof hkof hglive hklive
      · exact h.single g k other fire hg' hf hgof (hof.mp hkof) hglive hlive
    · rcases getElem?_setFire hk with ⟨-, hk'⟩ | ⟨rfl, -⟩
      · exact h.single g k fire other' hf hk' (hof.mp hgof) hkof hlive hklive
      · rfl
  · intro other hmem hgof hstart
    rcases mem_setFire hmem with hmem | rfl
    · exact h.clear other hmem hgof hstart
    · exact hclear hstart (hof.mp hgof)
  · intro other hmem
    rcases mem_setFire hmem with hmem | rfl
    · exact h.closing other hmem
    · exact hclosing

theorem Watched.not_starting (h : s.Watched accountId jobId) {f : Nat} {fire fire' : Fire}
    (hf : s.fires[f]? = some fire) (hlive : fire.phase ≠ .ended) (hof : fire.of accountId jobId)
    (hphase : fire'.phase ≠ .starting) :
    ∀ other ∈ (s.setFire f fire').fires, other.of accountId jobId → other.phase ≠ .starting := by
  intro other hmem hother hstart
  obtain ⟨g, hg⟩ := List.getElem?_of_mem hmem
  rcases getElem?_setFire hg with ⟨hne, hg⟩ | ⟨-, rfl⟩
  · exact hne (h.single g f other fire hg hf hother hof (by simp [hstart]) hlive)
  · exact hphase hstart

/-- A record is added: of the job only when none of its runs is running. -/
theorem Watched.append (h : s.Watched accountId jobId) {row : RunRow} {ledger : RunLedger}
    (hrows : ledger.rows = s.ledger.rows ++ [row])
    (hnone : RunOf row accountId jobId → s.NoneRunning accountId jobId)
    (hage : RunOf row accountId jobId → row.status = .running →
      ∀ r ∈ s.ledger.rows, RunOf r accountId jobId → r.age ≤ row.age)
    (hstart : RunOf row accountId jobId → ∀ fire ∈ s.fires, fire.of accountId jobId → fire.phase ≠ .starting) :
    { s with ledger := ledger }.Watched accountId jobId := by
  have hsplit : ∀ r ∈ ledger.rows, r ∈ s.ledger.rows ∨ r = row := by
    intro r hr
    rw [hrows, List.mem_append, List.mem_singleton] at hr
    exact hr
  refine ⟨?_, h.single, ?_, h.closing, h.writing⟩
  · intro r₀ hr₀ hof₀ hrun r hr hof
    rcases hsplit r₀ hr₀ with hold₀ | rfl
    · rcases hsplit r hr with hold | rfl
      · exact h.newest r₀ hold₀ hof₀ hrun r hold hof
      · exact absurd hrun (hnone hof r₀ hold₀ hof₀)
    · rcases hsplit r hr with hold | rfl
      · exact hage hof₀ hrun r hold hof
      · exact le_refl _
  · intro fire hfire hof hstarting r hr hrof
    rcases hsplit r hr with hold | rfl
    · exact h.clear fire hfire hof hstarting r hold hrof
    · exact absurd hstarting (hstart hrof fire hfire hof)

/-- The overlap check: the newest record of the job is running when any of them is. -/
theorem Watched.check (h : s.Watched accountId jobId) (hof : fire.of accountId jobId)
    {dispatchable : Bool} (hcheck : s.checkLatest fire dispatchable = .starting) :
    s.NoneRunning accountId jobId := by
  obtain ⟨rfl, rfl⟩ := hof
  intro row hrow hrowOf hrun
  obtain ⟨latest, hlatest⟩ := RunLedger.exists_runGetLatest hrow hrowOf.1 hrowOf.2
  obtain ⟨hmem, hlatestOf⟩ := RunLedger.mem_of_runGetLatest hlatest
  have hle := RunLedger.runGetLatest_newest hlatest hrow hrowOf.1 hrowOf.2
  have hge := h.newest row hrow hrowOf hrun latest hmem hlatestOf
  -- one age is one run id, so the newest record is the running one
  have hid : row.runId = latest.runId := (Prod.mk.inj (toLex.injective (le_antisymm hle hge))).2
  have hsame := RunLedger.eq_of_runId_eq hrow hmem hid
  have hbusy : s.checkLatest fire dispatchable = .skipping .skipped "already_running" := by
    simp [checkLatest, hlatest, ← hsame, hrun]
  rw [hbusy] at hcheck
  cases hcheck

theorem of_resolveJobId {ledger : RunLedger}
    (hjob : ledger.resolveJobId fire.jobId = some jobId) : fire.jobId = jobId := by
  unfold RunLedger.resolveJobId at hjob
  split at hjob
  · exact Option.some.inj hjob
  · cases hjob

theorem Watched.stepFire (h : s.Watched accountId jobId) {f : Nat}
    {e : SchedulerEvent} (hkeeps : KeepsNewest accountId jobId s e) (he : e.fire? = some f)
    (hf : s.fires[f]? = some fire) (hs : SchedulerSystem.stepFire settings s f fire e = some s') :
    s'.Watched accountId jobId := by
  rcases stepFire_cases hs with ⟨fire', hmoved, hfires, hledger, hpods, -⟩ |
    ⟨g, runId, now, status, reason, rfl, hphase, hunused, rfl⟩ |
    ⟨g, runId, now, ledger, rfl, hphase, hunused, hstart, rfl⟩ |
    ⟨g, runId, now, status, reason, rfl, hphase, rfl⟩
  · refine (h.setFire fire' hf hmoved.live hmoved.accountId hmoved.jobId hmoved.closing ?_).congr hledger
      hfires (by rw [hpods]; exact h.writing)
    intro hstarting hof
    obtain ⟨dispatchable, hcheck⟩ := hmoved.starting hstarting
    exact h.check hof hcheck
  · obtain rfl : g = f := Option.some.inj he
    have hlive : fire.phase ≠ .ended := by simp [hphase]
    have hclosed : status ≠ .running :=
      h.closing fire (List.mem_of_getElem? hf) status (by rw [hphase]; rfl)
    have hended := h.setFire (fire.moveTo .ended) hf hlive rfl rfl
      (fun _ hc => by cases hc) (fun hc => by cases hc)
    obtain ⟨row, hrows, -, hacc, hjob, hrow⟩ := RunLedger.rows_recordRun fire.accountId
      (closedRecord fire runId now status reason) hunused.2.1
    have hof : RunOf row accountId jobId → fire.of accountId jobId := fun hof =>
      ⟨hacc.symm.trans hof.1, of_resolveJobId (hjob.symm.trans hof.2)⟩
    refine hended.append hrows (fun hrowOf => hkeeps fire hf (hof hrowOf)) ?_ ?_
    · exact fun _ hrun => absurd (hrow.symm.trans hrun) hclosed
    · exact fun hrowOf => h.not_starting hf hlive (hof hrowOf) (fun hc => by cases hc)
  · obtain rfl : g = f := Option.some.inj he
    have hlive : fire.phase ≠ .ended := by simp [hphase]
    have hretry := h.setFire (fire.moveTo (retry settings runId 0)) hf hlive rfl rfl
      (fun status hc hrun => closing?_retry runId 0 (hrun ▸ hc))
      (fun hc => absurd hc (retry_ne_starting runId 0))
    obtain ⟨row, hrows, -, hacc, hjob, -, hage⟩ := RunLedger.rows_startRun hstart
    have hof : RunOf row accountId jobId → fire.of accountId jobId := fun hof =>
      ⟨hacc.symm.trans hof.1, of_resolveJobId (hjob.symm.trans hof.2)⟩
    refine hretry.append hrows ?_ ?_ ?_
    · exact fun hrowOf => h.clear fire (List.mem_of_getElem? hf) (hof hrowOf) hphase
    · intro hrowOf _ r hr hrof
      rw [hage]
      exact hkeeps fire hf (hof hrowOf) r hr hrof
    · exact fun hrowOf => h.not_starting hf hlive (hof hrowOf) (retry_ne_starting runId 0)
  · have hlive : fire.phase ≠ .ended := by simp [hphase]
    have hclosed : status ≠ .running :=
      h.closing fire (List.mem_of_getElem? hf) status (by rw [hphase]; rfl)
    have hended := h.setFire (fire.moveTo .ended) hf hlive rfl rfl
      (fun _ hc => by cases hc) (fun hc => by cases hc)
    exact hended.finishRun hclosed

theorem Watched.claim (h : s.Watched accountId jobId) {a j n : String}
    (hone : OneByOne accountId jobId s (.fireClaimed a j n)) :
    { s with fires := s.fires ++ [Fire.mk a j n .claimed 0] }.Watched accountId jobId := by
  refine ⟨h.newest, ?_, ?_, ?_, h.writing⟩
  · intro g k other other' hg hk hgof hkof hglive hklive
    rcases getElem?_append_fire hg with hg | ⟨rfl, rfl⟩
    · rcases getElem?_append_fire hk with hk | ⟨rfl, rfl⟩
      · exact h.single g k other other' hg hk hgof hkof hglive hklive
      · exact absurd (hone hkof other (List.mem_of_getElem? hg) hgof) hglive
    · rcases getElem?_append_fire hk with hk | ⟨rfl, rfl⟩
      · exact absurd (hone hgof other' (List.mem_of_getElem? hk) hkof) hklive
      · rfl
  · intro fire hfire hof hstart
    rcases List.mem_append.mp hfire with hfire | hfire
    · exact h.clear fire hfire hof hstart
    · rw [List.mem_singleton.mp hfire] at hstart
      cases hstart
  · intro fire hfire status hstatus
    rcases List.mem_append.mp hfire with hfire | hfire
    · exact h.closing fire hfire status hstatus
    · rw [List.mem_singleton.mp hfire] at hstatus
      cases hstatus

theorem Watched.step (h : s.Watched accountId jobId) {e : SchedulerEvent}
    (hcond : OneByOne accountId jobId s e ∧ KeepsNewest accountId jobId s e)
    (hs : s.step settings e = some s') : s'.Watched accountId jobId := by
  rcases step_cases hs with ⟨a, j, n, rfl, rfl⟩ | ⟨f, fire, he, hf, hs⟩ |
    ⟨post, capReached, rfl, -, hledger, hfires, -, hpods, -⟩ | ⟨a, id, podRun, hpod, hs, -⟩ |
    ⟨a, rfl, rfl⟩ | ⟨now, accounts, rfl, rfl⟩ | ⟨w, sweep, -, hs, -⟩
  · exact h.claim hcond.1
  · exact h.stepFire hcond.2 he hf hs
  · refine h.congr hledger hfires ?_
    intro a id run rec hrun hrec
    rw [hpods] at hrun
    by_cases ha : a = post.accountId
    · rw [ha, Function.update_self] at hrun
      rcases lookup_scheduledRun (s.pods post.accountId) post.runId post.jobId capReached id with
        hsame | ⟨-, -, -, hnew⟩
      · rw [hsame] at hrun
        exact h.writing post.accountId id run rec hrun hrec
      · rw [hnew] at hrun
        cases hrun
        cases hrec
    · rw [Function.update_of_ne ha] at hrun
      exact h.writing a id run rec hrun hrec
  · rcases stepPod_cases hs with ⟨pod, rfl, hlookup⟩ | ⟨rec, hrec, rfl⟩
    · refine h.congr rfl rfl ?_
      intro a' id' run rec hrun hrec
      simp only [setPod] at hrun
      by_cases ha : a' = a
      · rw [ha, Function.update_self] at hrun
        rcases hlookup id' with hsame | ⟨-, hnew⟩
        · rw [hsame] at hrun
          exact h.writing a id' run rec hrun hrec
        · exact ((hnew run hrun).2 rec hrec).2.1
      · rw [Function.update_of_ne ha] at hrun
        exact h.writing a' id' run rec hrun hrec
    · exact h.finishRun (h.writing a id podRun rec hpod hrec)
  · refine h.congr rfl rfl ?_
    intro a' id run rec hrun hrec
    simp only [setPod] at hrun
    by_cases ha : a' = a
    · rw [ha, Function.update_self] at hrun
      cases hrun
    · rw [Function.update_of_ne ha] at hrun
      exact h.writing a' id run rec hrun hrec
  · exact h.congr rfl rfl h.writing
  · rcases stepSweep_cases hs with ⟨sweep', rfl⟩ | ⟨v, run, runs, rfl, -, rfl⟩
    · exact h.congr rfl rfl h.writing
    · have hset : (s.setSweep w ⟨sweep.now, sweep.accounts, runs⟩).Watched accountId jobId :=
        h.congr rfl rfl h.writing
      exact hset.finishRun (by simp [reapRecord])

end Job

variable (settings : SchedulerSettings) (jobs : List String) (accountId jobId : String)

/-- Fires that come one after another never start a run of the job next to a running one, as long as
the running one stays the newest record of the job. -/
theorem startsAlone_of_keepsNewest (es : List SchedulerEvent)
    (hone : RunMeets (step settings) (OneByOne accountId jobId) (init jobs) es)
    (hkeeps : RunMeets (step settings) (KeepsNewest accountId jobId) (init jobs) es) :
    RunMeets (step settings) (StartsAlone accountId jobId) (init jobs) es := by
  refine runMeets_of_invariant (fun _ _ _ h hcond hs => Watched.step h hcond hs) ?_
    (watched_init jobs) (hone.and hkeeps)
  intro s e h _
  cases e with
  | runStarted f runId now =>
    intro fire hf hof hstarting
    exact h.clear fire (List.mem_of_getElem? hf) hof hstarting
  | fireClaimed _ _ _ | accountRead _ _ | latestRead _ _ | skipRecorded _ _ _ | skipLost _
  | startLost _ | attemptFailed _ | posted _ | replied _ _ | windowClosed _ | finishWritten _ _
  | finishLost _ | podHandles _ _ | podEnds _ _ | podWrites _ _ | podCloses _ _ | podForgets _ _
  | podRestarts _ | sweepBegins _ _ | sweepLists _ | sweepReaps _ | sweepMisses _ => trivial

def runThenRun : List SchedulerEvent :=
  fireChecks 0 ++ [.runStarted 0 "run-1" 100] ++ fireAdmitted 0 "run-1" ++
    [.podEnds "account" { runId := "run-1", status := .success, finishedAt := some 150 },
      .podWrites "account" "run-1", .podCloses "account" "run-1"] ++
    fireChecks 1 ++ [.runStarted 1 "run-2" 200]

theorem startsAlone_runThenRun : (run (step {}) (init ["job"]) runThenRun).isSome ∧
      RunMeets (step {}) (StartsAlone "account" "job") (init ["job"]) runThenRun :=
  ⟨by decide, startsAlone_of_keepsNewest {} ["job"] "account" "job" runThenRun
    (by decide) (by decide)⟩

/-- The second fire is skipped while the run of the first one goes on; the third one reads the skip. -/
def skipThenRun : List SchedulerEvent :=
  fireChecks 0 ++ [.runStarted 0 "run-1" 100] ++ fireAdmitted 0 "run-1" ++
    fireChecks 1 ++ [.skipRecorded 1 "run-2" 200] ++ fireChecks 2 ++ [.runStarted 2 "run-3" 300]

theorem skipThenRun_startsBeside : (run (step {}) (init ["job"]) skipThenRun).isSome ∧
      RunMeets (step {}) (OneByOne "account" "job") (init ["job"]) skipThenRun ∧
      ¬ RunMeets (step {}) (StartsAlone "account" "job") (init ["job"]) skipThenRun :=
  ⟨by decide, by decide, by decide⟩

end SchedulerSystem

end PrivaCloud.Scheduler
