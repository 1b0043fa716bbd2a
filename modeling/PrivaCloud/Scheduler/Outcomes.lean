import PrivaCloud.Scheduler.FireSystem

/-!
# One outcome for each run

A run is closed by its pod, by the fire that could not deliver it or by a sweep. `finish_run` writes
whatever the row holds, so the outcome stays only if these writers stay out of each other's way.
-/

namespace PrivaCloud.Scheduler

open Framework DataSpine

namespace SchedulerSystem

def StillRunning (s : SchedulerSystem) (runId : String) : Prop :=
  ∀ row ∈ s.ledger.rows, row.runId = runId → row.status = .running

instance (s : SchedulerSystem) (runId : String) : Decidable (s.StillRunning runId) :=
  inferInstanceAs (Decidable (∀ row ∈ s.ledger.rows, _))

def Unattended (s : SchedulerSystem) (runId : String) : Prop :=
  (∀ fire ∈ s.fires, fire.runId? ≠ some runId) ∧ ∀ row ∈ s.ledger.rows, row.runId = runId →
      ∀ run ∈ (s.pods row.accountId).accepted.lookup runId, run.phase = .ended

instance (s : SchedulerSystem) (runId : String) : Decidable (s.Unattended runId) :=
  inferInstanceAs (Decidable (_ ∧ ∀ row ∈ s.ledger.rows, _))

/-- A fire gives up only a run that no pod has admitted, a pod admits only a run that is still running
and new to every pod, and a sweep closes only a run that is still running and unattended. -/
def WritersApart (s : SchedulerSystem) (e : SchedulerEvent) : Prop :=
  match e with
  | .finishWritten f _ => ∀ fire ∈ s.fires[f]?, ∀ runId ∈ fire.runId?, runId ∉ s.admitted
  | .podHandles post capReached =>
    ((s.pods post.accountId).scheduledRun post.runId post.jobId capReached).1 = .accepted →
    (s.pods post.accountId).accepted.lookup post.runId = none →
    post.runId ∉ s.admitted ∧ s.StillRunning post.runId
  | .sweepReaps w => ∀ sweep ∈ s.sweeps[w]?, ∀ run ∈ sweep.runs.head?,
      s.StillRunning run.runId ∧ s.Unattended run.runId
  | _ => True

instance (s : SchedulerSystem) (e : SchedulerEvent) : Decidable (WritersApart s e) := by
  apply @SchedulerEvent.casesOn _ e <;> intros <;> dsimp only [WritersApart] <;> infer_instance

def OutcomesKept (s s' : SchedulerSystem) : Prop :=
  ∀ row ∈ s.ledger.rows, row.status ≠ .running →
    ∃ row' ∈ s'.ledger.rows, row'.runId = row.runId ∧ row'.outcome = row.outcome

instance (s s' : SchedulerSystem) : Decidable (OutcomesKept s s') :=
  inferInstanceAs (Decidable (∀ row ∈ s.ledger.rows, _ → ∃ row' ∈ s'.ledger.rows, _))

/-- Every party that may still write to a run finds its record running, or holding what it writes. -/
structure Owned (s : SchedulerSystem) : Prop where
  fireRow : ∀ fire ∈ s.fires, ∀ runId ∈ fire.runId?,
    ∃ row ∈ s.ledger.rows, row.runId = runId ∧ row.accountId = fire.accountId
  postRow : ∀ post ∈ s.posts,
    ∃ row ∈ s.ledger.rows, row.runId = post.runId ∧ row.accountId = post.accountId
  podRow : ∀ a id run, (s.pods a).accepted.lookup id = some run →
    ∃ row ∈ s.ledger.rows, row.runId = id ∧ row.accountId = a
  single : ∀ (f g : Nat) (fire other : Fire), s.fires[f]? = some fire → s.fires[g]? = some other →
    ∀ runId ∈ fire.runId?, runId ∈ other.runId? → f = g
  pending : ∀ fire ∈ s.fires, ∀ runId ∈ fire.runId?, runId ∉ s.admitted → s.StillRunning runId
  admitted : ∀ a id run, (s.pods a).accepted.lookup id = some run → run.phase ≠ .ended → id ∈ s.admitted
  executing : ∀ a id run, (s.pods a).accepted.lookup id = some run → run.phase = .executing → s.StillRunning id
  writing : ∀ a id run rec, (s.pods a).accepted.lookup id = some run → run.phase = .writing rec →
    rec.runId = id ∧ ∀ row ∈ s.ledger.rows, row.runId = id →
      row.status = .running ∨ row.outcome = rec.finishOutcome

variable {settings : SchedulerSettings} {s s' : SchedulerSystem}

theorem outcomesKept_refl (s : SchedulerSystem) : OutcomesKept s s :=
  fun row hrow _ => ⟨row, hrow, rfl, rfl⟩

theorem outcomesKept_trans (s t u : SchedulerSystem) (hst : OutcomesKept s t)
    (htu : OutcomesKept t u) : OutcomesKept s u := by
  intro row hrow hclosed
  obtain ⟨row', hrow', hid, hout⟩ := hst row hrow hclosed
  have hclosed' : row'.status ≠ .running := by
    have hstatus : row'.status = row.status := congrArg Outcome.status hout
    rw [hstatus]
    exact hclosed
  obtain ⟨row'', hrow'', hid', hout'⟩ := htu row' hrow' hclosed'
  exact ⟨row'', hrow'', hid'.trans hid, hout'.trans hout⟩

theorem outcomesKept_of_rows (h : ∀ row ∈ s.ledger.rows, row ∈ s'.ledger.rows) : OutcomesKept s s' :=
  fun row hrow _ => ⟨row, h row hrow, rfl, rfl⟩

theorem outcomesKept_finishRun {rec : JobRunRecord}
    (hsame : ∀ row ∈ s.ledger.rows, row.runId = rec.runId → row.status ≠ .running →
      row.outcome = rec.finishOutcome) (hledger : s'.ledger = s.ledger.finishRun rec) :
    OutcomesKept s s' := by
  intro row hrow hclosed
  rw [hledger]
  obtain ⟨row', hrow', hid, -, -, -, ⟨hrec, hout⟩ | ⟨-, heq⟩⟩ :=
    RunLedger.finishRun_mem rec hrow
  · exact ⟨row', hrow', hid, hout.trans (hsame row hrow hrec hclosed).symm⟩
  · exact ⟨row', hrow', hid, by rw [heq]⟩

theorem owned_init (jobs : List String) : (init jobs).Owned where
  fireRow _ h := by cases h
  postRow _ h := by cases h
  podRow _ _ _ h := by cases h
  single _ _ _ _ h := by cases h
  pending _ h := by cases h
  admitted _ _ _ h := by cases h
  executing _ _ _ h := by cases h
  writing _ _ _ _ h := by cases h

theorem Owned.account_eq (h : s.Owned) {a a' id : String} {run run' : PodRun}
    (hrun : (s.pods a).accepted.lookup id = some run)
    (hrun' : (s.pods a').accepted.lookup id = some run') : a = a' := by
  obtain ⟨row, hrow, hid, hacc⟩ := h.podRow a id run hrun
  obtain ⟨row', hrow', hid', hacc'⟩ := h.podRow a' id run' hrun'
  rw [← hacc, ← hacc', RunLedger.eq_of_runId_eq hrow hrow' (hid.trans hid'.symm)]

/-- A finish by the writer that holds the run: no fire may still give the run up, and a pod that holds
it writes this very record. -/
theorem Owned.finishRun (h : s.Owned) {rec : JobRunRecord}
    (hfires : ∀ fire ∈ s.fires, fire.runId? = some rec.runId → rec.runId ∈ s.admitted)
    (hpods : ∀ a run, (s.pods a).accepted.lookup rec.runId = some run → run.phase ≠ .ended →
      run.phase = .writing rec) :
    { s with ledger := s.ledger.finishRun rec }.Owned := by
  -- the rows keep their ids and accounts
  have hkeep : ∀ {id a : String}, (∃ row ∈ s.ledger.rows, row.runId = id ∧ row.accountId = a) →
      ∃ row ∈ (s.ledger.finishRun rec).rows, row.runId = id ∧ row.accountId = a := by
    rintro id a ⟨row, hrow, hid, hacc⟩
    obtain ⟨row', hrow', hid', -, hacc', -⟩ := RunLedger.finishRun_mem rec hrow
    exact ⟨row', hrow', hid'.trans hid, hacc'.trans hacc⟩
  have hother : ∀ {id : String}, id ≠ rec.runId → s.StillRunning id →
      ∀ row ∈ (s.ledger.finishRun rec).rows, row.runId = id → row.status = .running := by
    intro id hne hstill row hrow hid
    obtain ⟨r, hr, hrid, -, -, -, ⟨hrec, -⟩ | ⟨-, rfl⟩⟩ := RunLedger.mem_finishRun hrow
    · exact absurd (hid.symm.trans (hrid.trans hrec)) hne
    · exact hstill row hr hid
  refine ⟨fun fire hfire runId hid => hkeep (h.fireRow fire hfire runId hid),
    fun post hpost => hkeep (h.postRow post hpost),
    fun a id run hrun => hkeep (h.podRow a id run hrun), h.single, ?_, h.admitted, ?_, ?_⟩
  · intro fire hfire runId hid hnot
    have hne : runId ≠ rec.runId := by
      rintro rfl
      exact hnot (hfires fire hfire hid)
    exact hother hne (h.pending fire hfire runId hid hnot)
  · intro a id run hrun hexec
    have hne : id ≠ rec.runId := by
      rintro rfl
      have hwriting := hpods a run hrun (by simp [hexec])
      rw [hexec] at hwriting
      cases hwriting
    exact hother hne (h.executing a id run hrun hexec)
  · intro a id run rec' hrun hrec'
    obtain ⟨hid, hrows⟩ := h.writing a id run rec' hrun hrec'
    refine ⟨hid, ?_⟩
    intro row hrow hrowid
    obtain ⟨r, hr, hrid, -, -, -, ⟨hrrec, hout⟩ | ⟨-, rfl⟩⟩ := RunLedger.mem_finishRun hrow
    · -- the row that was just written: this pod run writes the same record
      have hsame : id = rec.runId := hrowid.symm.trans (hrid.trans hrrec)
      subst hsame
      have hwriting := hpods a run hrun (by simp [hrec'])
      rw [hrec'] at hwriting
      cases hwriting
      exact .inr hout
    · exact hrows row hr hrowid

variable {fire : Fire} {f : Nat}

/-- A fire moves on and keeps its run or lets it go; what it posts is its run. -/
theorem Owned.moved (h : s.Owned) (fire' : Fire) (hf : s.fires[f]? = some fire)
    (haccount : fire'.accountId = fire.accountId)
    (hrun : ∀ runId ∈ fire'.runId?, fire.runId? = some runId) (hfires : s'.fires = s.fires.set f fire')
    (hledger : s'.ledger = s.ledger) (hpods : s'.pods = s.pods) (hadmitted : s'.admitted = s.admitted)
    (hposts : ∀ post ∈ s'.posts, post ∈ s.posts ∨
      post.accountId = fire.accountId ∧ fire.runId? = some post.runId) : s'.Owned := by
  have hmem := List.mem_of_getElem? hf
  have hget : ∀ {g : Nat} {other : Fire}, s'.fires[g]? = some other →
      g ≠ f ∧ s.fires[g]? = some other ∨ g = f ∧ other = fire' := fun hg =>
    getElem?_setFire (by rw [hfires] at hg; exact hg)
  have hold : ∀ {other : Fire}, other ∈ s'.fires → other ∈ s.fires ∨ other = fire' := fun hg =>
    mem_setFire (by rw [hfires] at hg; exact hg)
  refine ⟨?_, ?_, ?_, ?_, ?_, ?_, ?_, ?_⟩
  · intro other hother runId hid
    rw [hledger]
    rcases hold hother with hother | rfl
    · exact h.fireRow other hother runId hid
    · rw [haccount]
      exact h.fireRow fire hmem runId (hrun runId hid)
  · intro post hpost
    rw [hledger]
    rcases hposts post hpost with hpost | ⟨hacc, hid⟩
    · exact h.postRow post hpost
    · rw [hacc]
      exact h.fireRow fire hmem post.runId hid
  · rw [hledger, hpods]
    exact h.podRow
  · intro g k other other' hg hk runId hid hid'
    rcases hget hg with ⟨-, hg⟩ | ⟨rfl, rfl⟩
    · rcases hget hk with ⟨-, hk⟩ | ⟨rfl, rfl⟩
      · exact h.single g k other other' hg hk runId hid hid'
      · exact h.single g k other fire hg hf runId hid (hrun runId hid')
    · rcases hget hk with ⟨-, hk⟩ | ⟨rfl, -⟩
      · exact h.single g k fire other' hf hk runId (hrun runId hid) hid'
      · rfl
  · intro other hother runId hid hnot
    rw [StillRunning, hledger]
    rw [hadmitted] at hnot
    rcases hold hother with hother | rfl
    · exact h.pending other hother runId hid hnot
    · exact h.pending fire hmem runId (hrun runId hid) hnot
  · rw [hpods, hadmitted]
    exact h.admitted
  · rw [hpods]
    intro a id run hlookup hexec
    rw [StillRunning, hledger]
    exact h.executing a id run hlookup hexec
  · rw [hpods, hledger]
    exact h.writing

theorem Owned.ended (h : s.Owned) (hf : s.fires[f]? = some fire) :
    (s.setFire f (fire.moveTo .ended)).Owned :=
  h.moved (fire.moveTo .ended) hf rfl (fun _ hid => by cases hid) rfl rfl rfl rfl fun _ hpost => .inl hpost

/-- A record under a new id: nobody knows the run yet. -/
theorem Owned.append (h : s.Owned) {row : RunRow} {ledger : RunLedger} (hunused : s.Unused row.runId)
    (hrows : ledger.rows = s.ledger.rows ++ [row]) : { s with ledger := ledger }.Owned := by
  have hsub : ∀ {id a : String}, (∃ r ∈ s.ledger.rows, r.runId = id ∧ r.accountId = a) →
      ∃ r ∈ ledger.rows, r.runId = id ∧ r.accountId = a := by
    rintro id a ⟨r, hr, hids⟩
    exact ⟨r, by rw [hrows]; exact List.mem_append_left _ hr, hids⟩
  -- an id that has a row already is not the new one
  have hsplit : ∀ {id a : String}, (∃ r ∈ s.ledger.rows, r.runId = id ∧ r.accountId = a) →
      ∀ r ∈ ledger.rows, r.runId = id → r ∈ s.ledger.rows := by
    rintro id a ⟨r₀, hr₀, hid₀, -⟩ r hr hid
    rw [hrows, List.mem_append, List.mem_singleton] at hr
    rcases hr with hr | rfl
    · exact hr
    · exact absurd (hid₀.trans hid.symm) (hunused.2.1 r₀ hr₀)
  refine ⟨fun fire hfire runId hid => hsub (h.fireRow fire hfire runId hid),
    fun post hpost => hsub (h.postRow post hpost),
    fun a id run hrun => hsub (h.podRow a id run hrun), h.single, ?_, h.admitted, ?_, ?_⟩
  · intro fire hfire runId hid hnot r hr hrid
    exact h.pending fire hfire runId hid hnot r (hsplit (h.fireRow fire hfire runId hid) r hr hrid) hrid
  · intro a id run hrun hexec r hr hrid
    exact h.executing a id run hrun hexec r (hsplit (h.podRow a id run hrun) r hr hrid) hrid
  · intro a id run rec hrun hrec
    obtain ⟨hid, hrows'⟩ := h.writing a id run rec hrun hrec
    exact ⟨hid, fun r hr hrid => hrows' r (hsplit (h.podRow a id run hrun) r hr hrid) hrid⟩

theorem Owned.takes (h : s.Owned) {fire' : Fire} (hf : s.fires[f]? = some fire)
    {row : RunRow} (hrow : row ∈ s.ledger.rows) (hrunning : row.status = .running)
    (hnew : ∀ other ∈ s.fires, other.runId? ≠ some row.runId)
    (haccount : row.accountId = fire'.accountId) (hrun : fire'.runId? = some row.runId) :
    (s.setFire f fire').Owned := by
  refine ⟨?_, h.postRow, h.podRow, ?_, ?_, h.admitted, h.executing, h.writing⟩
  · intro other hother runId hid
    rcases mem_setFire hother with hother | rfl
    · exact h.fireRow other hother runId hid
    · exact ⟨row, hrow, Option.some.inj (hrun.symm.trans hid), haccount⟩
  · intro g k other other' hg hk runId hid hid'
    rcases getElem?_setFire hg with ⟨-, hgold⟩ | ⟨rfl, rfl⟩
    · rcases getElem?_setFire hk with ⟨-, hkold⟩ | ⟨rfl, rfl⟩
      · exact h.single g k other other' hgold hkold runId hid hid'
      · exact absurd (hid.trans (hid'.symm.trans hrun)) (hnew other (List.mem_of_getElem? hgold))
    · rcases getElem?_setFire hk with ⟨-, hkold⟩ | ⟨rfl, -⟩
      · exact absurd (hid'.trans (hid.symm.trans hrun)) (hnew other' (List.mem_of_getElem? hkold))
      · rfl
  · intro other hother runId hid hnot
    rcases mem_setFire hother with hother | rfl
    · exact h.pending other hother runId hid hnot
    · intro r hr hrid
      have hsame : r.runId = row.runId := hrid.trans (Option.some.inj (hid.symm.trans hrun))
      rw [RunLedger.eq_of_runId_eq hr hrow hsame]
      exact hrunning

variable {e : SchedulerEvent}

theorem Owned.stepFire (h : s.Owned)
    (hapart : WritersApart s e) (he : e.fire? = some f) (hf : s.fires[f]? = some fire)
    (hs : SchedulerSystem.stepFire settings s f fire e = some s') : s'.Owned ∧ OutcomesKept s s' := by
  have hmem := List.mem_of_getElem? hf
  rcases stepFire_cases hs with ⟨fire', hmoved, hfires, hledger, hpods, hadmitted, hposts⟩ |
    ⟨g, runId, now, status, reason, rfl, hphase, hunused, rfl⟩ |
    ⟨g, runId, now, ledger, rfl, hphase, hunused, hstart, rfl⟩ |
    ⟨g, runId, now, status, reason, rfl, hphase, rfl⟩
  · refine ⟨h.moved fire' hf hmoved.accountId hmoved.runId hfires hledger hpods hadmitted hposts, ?_⟩
    exact outcomesKept_of_rows (by rw [hledger]; exact fun _ hrow => hrow)
  · obtain ⟨row, hrows, hid, -⟩ := RunLedger.rows_recordRun fire.accountId
      (closedRecord fire runId now status reason) hunused.2.1
    refine ⟨(h.ended hf).append (by rw [hid]; exact hunused) hrows, outcomesKept_of_rows ?_⟩
    intro r hr
    exact (congrArg (r ∈ ·) hrows).mpr (List.mem_append_left _ hr)
  · obtain ⟨row, hrows, hid, hacc, -, hstatus, -⟩ := RunLedger.rows_startRun hstart
    have happended : { s with ledger := ledger }.Owned := h.append (by rw [hid]; exact hunused) hrows
    have hrow : row ∈ ledger.rows := by rw [hrows]; exact List.mem_append_right _ List.mem_cons_self
    refine ⟨happended.takes hf hrow hstatus ?_ hacc ?_, outcomesKept_of_rows ?_⟩
    · -- a run that some fire holds has a row already
      intro other hother hoid
      obtain ⟨r, hr, hrid, -⟩ := h.fireRow other hother row.runId hoid
      exact hunused.2.1 r hr (hrid.trans hid)
    · rw [runId?_retry, hid]
      rfl
    · intro r hr
      exact (congrArg (r ∈ ·) hrows).mpr (List.mem_append_left _ hr)
  · obtain rfl : g = f := Option.some.inj he
    have hid : fire.runId? = some runId := by simp [Fire.runId?, hphase]
    have hnot : runId ∉ s.admitted := hapart fire hf runId hid
    have hstill := h.pending fire hmem runId hid hnot
    refine ⟨(h.ended hf).finishRun ?_ ?_, ?_⟩
    · -- no other fire holds the run
      intro other hother hoid
      obtain ⟨k, hk⟩ := List.getElem?_of_mem hother
      rcases getElem?_setFire hk with ⟨hne, hk⟩ | ⟨-, rfl⟩
      · exact absurd (h.single k g other fire hk hf runId hoid hid) hne
      · cases hoid
    · intro a run hrun hlive
      exact absurd (h.admitted a runId run hrun hlive) hnot
    · refine outcomesKept_finishRun ?_ rfl
      intro row hrow hrid hclosed
      exact absurd (hstill row hrow hrid) hclosed

/-- The pods change: a run that a pod holds anew, or in a new phase, meets what is asked of it. -/
theorem Owned.pods (h : s.Owned) (hledger : s'.ledger = s.ledger) (hfires : s'.fires = s.fires)
    (hposts : ∀ post ∈ s'.posts, post ∈ s.posts) (hadmitted : ∀ id ∈ s.admitted, id ∈ s'.admitted)
    (hnew : ∀ a id run, (s'.pods a).accepted.lookup id = some run → (s.pods a).accepted.lookup id = some run ∨
      (∃ row ∈ s.ledger.rows, row.runId = id ∧ row.accountId = a) ∧
        (run.phase ≠ .ended → id ∈ s'.admitted) ∧ (run.phase = .executing → s.StillRunning id) ∧
        ∀ rec, run.phase = .writing rec → rec.runId = id ∧ s.StillRunning id) : s'.Owned := by
  refine ⟨?_, ?_, ?_, ?_, ?_, ?_, ?_, ?_⟩
  · rw [hledger, hfires]
    exact h.fireRow
  · rw [hledger]
    exact fun post hpost => h.postRow post (hposts post hpost)
  · rw [hledger]
    intro a id run hrun
    rcases hnew a id run hrun with hrun | ⟨hrow, -⟩
    · exact h.podRow a id run hrun
    · exact hrow
  · rw [hfires]
    exact h.single
  · rw [hfires]
    intro fire hfire runId hid hnot
    rw [StillRunning, hledger]
    exact h.pending fire hfire runId hid fun hmem => hnot (hadmitted runId hmem)
  · intro a id run hrun hlive
    rcases hnew a id run hrun with hrun | ⟨-, hadm, -⟩
    · exact hadmitted id (h.admitted a id run hrun hlive)
    · exact hadm hlive
  · intro a id run hrun hexec
    rw [StillRunning, hledger]
    rcases hnew a id run hrun with hrun | ⟨-, -, hstill, -⟩
    · exact h.executing a id run hrun hexec
    · exact hstill hexec
  · rw [hledger]
    intro a id run rec hrun hrec
    rcases hnew a id run hrun with hrun | ⟨-, -, -, hwriting⟩
    · exact h.writing a id run rec hrun hrec
    · obtain ⟨hid, hstill⟩ := hwriting rec hrec
      exact ⟨hid, fun row hrow hrid => .inl (hstill row hrow hrid)⟩

theorem Owned.handles (h : s.Owned) {post : Post} {capReached : Bool}
    (hapart : WritersApart s (.podHandles post capReached)) (hpost : post ∈ s.posts)
    (hledger : s'.ledger = s.ledger) (hfires : s'.fires = s.fires)
    (hposts : ∀ p ∈ s'.posts, p ∈ s.posts)
    (hpods : s'.pods = Function.update s.pods post.accountId
      ((s.pods post.accountId).scheduledRun post.runId post.jobId capReached).2)
    (hadmitted : s'.admitted =
      if ((s.pods post.accountId).scheduledRun post.runId post.jobId capReached).1 = .accepted ∧
        (s.pods post.accountId).accepted.lookup post.runId = none
      then post.runId :: s.admitted else s.admitted) : s'.Owned := by
  refine h.pods hledger hfires hposts ?_ ?_
  · intro id hid
    rw [hadmitted]
    split
    · exact List.mem_cons_of_mem _ hid
    · exact hid
  · intro a id run hrun
    rw [hpods] at hrun
    by_cases ha : a = post.accountId
    · rw [ha, Function.update_self] at hrun
      rcases lookup_scheduledRun (s.pods post.accountId) post.runId post.jobId capReached id with
        hsame | ⟨rfl, hnone, haccepted, hnew⟩
      · rw [hsame] at hrun
        exact .inl (ha ▸ hrun)
      · rw [hnew] at hrun
        cases hrun
        refine .inr ⟨ha ▸ h.postRow post hpost, fun _ => ?_, fun _ => ?_, fun _ hrec => by cases hrec⟩
        · rw [hadmitted, if_pos ⟨haccepted, hnone⟩]
          exact List.mem_cons_self
        · exact (hapart haccepted hnone).2
    · rw [Function.update_of_ne ha] at hrun
      exact .inl hrun

theorem Owned.stepPod (h : s.Owned) {accountId runId : String} {podRun : PodRun}
    (hpod : (s.pods accountId).accepted.lookup runId = some podRun)
    (hends : ∀ a rec, e = .podEnds a rec → runId = rec.runId)
    (hs : SchedulerSystem.stepPod s accountId runId podRun e = some s') :
    s'.Owned ∧ OutcomesKept s s' := by
  rcases stepPod_cases hs with ⟨pod, rfl, hlookup⟩ | ⟨rec, hrec, rfl⟩
  · refine ⟨h.pods rfl rfl (fun _ hp => hp) (fun _ hid => hid) ?_, outcomesKept_of_rows fun _ hr => hr⟩
    intro a id run hrun
    simp only [setPod] at hrun
    by_cases ha : a = accountId
    · rw [ha, Function.update_self] at hrun
      rcases hlookup id with hsame | ⟨rfl, hnew⟩
      · rw [hsame] at hrun
        exact .inl (ha ▸ hrun)
      · obtain ⟨hnot, hwriting⟩ := hnew run hrun
        refine .inr ⟨ha ▸ h.podRow accountId id podRun hpod, ?_, fun hexec => absurd hexec hnot, ?_⟩
        · intro hlive
          cases hphase : run.phase with
          | executing => exact absurd hphase hnot
          | ended => exact absurd hphase hlive
          | writing rec =>
            have hexec := (hwriting rec hphase).1
            exact h.admitted accountId id podRun hpod (by simp [hexec])
        · intro rec hrec
          obtain ⟨hexec, -, a', rfl⟩ := hwriting rec hrec
          exact ⟨(hends a' rec rfl).symm, h.executing accountId id podRun hpod hexec⟩
    · rw [Function.update_of_ne ha] at hrun
      exact .inl hrun
  · obtain ⟨hid, hrows⟩ := h.writing accountId runId podRun rec hpod hrec
    subst hid
    refine ⟨h.finishRun (fun _ _ _ => ?_) ?_, outcomesKept_finishRun ?_ rfl⟩
    · exact h.admitted accountId rec.runId podRun hpod (by simp [hrec])
    · intro a run hrun _
      obtain rfl := h.account_eq hrun hpod
      rw [hpod] at hrun
      cases hrun
      exact hrec
    · intro row hrow hrid hclosed
      exact (hrows row hrow hrid).resolve_left hclosed

theorem Owned.step (h : s.Owned) (hapart : WritersApart s e)
    (hs : s.step settings e = some s') : s'.Owned ∧ OutcomesKept s s' := by
  rcases step_cases hs with ⟨a, j, n, rfl, rfl⟩ | ⟨f, fire, he, hf, hs⟩ |
    ⟨post, capReached, rfl, hpost, hledger, hfires, hposts, hpods, hadmitted⟩ |
    ⟨a, id, podRun, hpod, hs, hends⟩ | ⟨a, rfl, rfl⟩ | ⟨now, accounts, rfl, rfl⟩ |
    ⟨w, sweep, hw, hs, hreaps⟩
  · refine ⟨⟨?_, h.postRow, h.podRow, ?_, ?_, h.admitted, h.executing, h.writing⟩,
      outcomesKept_of_rows fun _ hr => hr⟩
    · intro fire hfire runId hid
      rcases List.mem_append.mp hfire with hfire | hfire
      · exact h.fireRow fire hfire runId hid
      · rw [List.mem_singleton.mp hfire] at hid
        cases hid
    · intro g k other other' hg hk runId hid hid'
      rcases getElem?_append_fire hg with hg | ⟨-, rfl⟩
      · rcases getElem?_append_fire hk with hk | ⟨-, rfl⟩
        · exact h.single g k other other' hg hk runId hid hid'
        · cases hid'
      · cases hid
    · intro fire hfire runId hid hnot
      rcases List.mem_append.mp hfire with hfire | hfire
      · exact h.pending fire hfire runId hid hnot
      · rw [List.mem_singleton.mp hfire] at hid
        cases hid
  · exact h.stepFire hapart he hf hs
  · refine ⟨h.handles hapart hpost hledger hfires hposts hpods hadmitted, outcomesKept_of_rows ?_⟩
    rw [hledger]
    exact fun _ hr => hr
  · exact h.stepPod hpod hends hs
  · refine ⟨h.pods rfl rfl (fun _ hp => hp) (fun _ hid => hid) ?_, outcomesKept_of_rows fun _ hr => hr⟩
    intro a' id run hrun
    simp only [setPod] at hrun
    by_cases ha : a' = a
    · rw [ha, Function.update_self] at hrun
      cases hrun
    · rw [Function.update_of_ne ha] at hrun
      exact .inl hrun
  · exact ⟨h.pods rfl rfl (fun _ hp => hp) (fun _ hid => hid) fun _ _ _ hrun => .inl hrun,
      outcomesKept_of_rows fun _ hr => hr⟩
  · rcases stepSweep_cases hs with ⟨sweep', rfl⟩ | ⟨v, run, runs, rfl, hruns, rfl⟩
    · exact ⟨h.pods rfl rfl (fun _ hp => hp) (fun _ hid => hid) fun _ _ _ hrun => .inl hrun,
        outcomesKept_of_rows fun _ hr => hr⟩
    · obtain rfl := hreaps v rfl
      obtain ⟨hstill, hfree, hunheld⟩ := hapart sweep hw run (by rw [hruns]; rfl)
      have hset : (s.setSweep v ⟨sweep.now, sweep.accounts, runs⟩).Owned :=
        h.pods rfl rfl (fun _ hp => hp) (fun _ hid => hid) fun _ _ _ hrun => .inl hrun
      refine ⟨hset.finishRun ?_ ?_, outcomesKept_finishRun ?_ rfl⟩
      · intro fire hfire hid
        exact absurd hid (hfree fire hfire)
      · intro a podRun hrun hlive
        obtain ⟨row, hrow, hrid, hacc⟩ := h.podRow a run.runId podRun hrun
        exact absurd (hunheld row hrow hrid podRun (hacc ▸ hrun)) hlive
      · intro row hrow hrid hclosed
        exact absurd (hstill row hrow hrid) hclosed

/-- Once a run is closed its outcome stays, in every run of the system in which the writers keep out of
each other's way. -/
theorem outcomesKept_of_writersApart (settings : SchedulerSettings) (jobs : List String)
    (es es' : List SchedulerEvent) (s s' : SchedulerSystem)
    (hapart : RunMeets (step settings) WritersApart (init jobs) (es ++ es'))
    (hs : run (step settings) (init jobs) es = some s) (hs' : run (step settings) s es' = some s') :
    OutcomesKept s s' := by
  obtain ⟨hbefore, hafter⟩ := hapart.split hs
  have howned : s.Owned := run_invariant (fun _ _ _ h hc hstep => (Owned.step h hc hstep).1)
    (owned_init jobs) hbefore hs
  exact run_relation outcomesKept_refl outcomesKept_trans
    (fun _ _ _ h hc hstep => Owned.step h hc hstep) howned hafter hs'

/-- A run of the pod of the account, ended and written. -/
def podSucceeds (runId : String) (now : Nat) : List SchedulerEvent :=
  [.podEnds "account" { runId := runId, status := .success, finishedAt := some now },
    .podWrites "account" runId]

def delivered : List SchedulerEvent :=
  fireChecks 0 ++ [.runStarted 0 "run-1" 100] ++ fireAdmitted 0 "run-1" ++ podSucceeds "run-1" 150

/-- The pod repeats its write, and a later sweep closes a run that no pod has taken. -/
def laterSweep : List SchedulerEvent :=
  [.podWrites "account" "run-1", .podCloses "account" "run-1"] ++ fireChecks 1 ++
    [.runStarted 1 "run-2" 200, .attemptFailed 1, .attemptFailed 1, .attemptFailed 1,
      .attemptFailed 1, .attemptFailed 1, .finishLost 1, .sweepBegins 9000 ["account"],
      .sweepLists 0, .sweepReaps 0]

theorem outcomesKept_laterSweep :
    ∃ s s', run (step {}) (init ["job"]) delivered = some s ∧ run (step {}) s laterSweep = some s' ∧
      (∃ row ∈ s.ledger.rows, row.status = .success) ∧ OutcomesKept s s' := by
  have hruns : ((run (step {}) (init ["job"]) delivered).bind (run (step {}) · laterSweep)).isSome := by
    decide
  have hclosed : ((run (step {}) (init ["job"]) delivered).any fun s =>
    decide (∃ row ∈ s.ledger.rows, row.status = .success)) := by decide
  obtain ⟨s', hrun⟩ := Option.isSome_iff_exists.mp hruns
  obtain ⟨s, hs, hs'⟩ := Option.bind_eq_some_iff.mp hrun
  rw [hs] at hclosed
  exact ⟨s, s', hs, hs', of_decide_eq_true hclosed,
    outcomesKept_of_writersApart {} ["job"] delivered laterSweep s s' (by decide) hs hs'⟩

/-- The pod admits the run, but neither its reply nor any of the other attempts comes through; it
succeeds before the fire has given the run up. -/
def acceptanceLost : List SchedulerEvent :=
  fireChecks 0 ++ [.runStarted 0 "run-1" 100, .posted 0,
    .podHandles ⟨0, 1, "account", "job", "run-1"⟩ false, .attemptFailed 0, .attemptFailed 0,
    .attemptFailed 0, .attemptFailed 0, .attemptFailed 0] ++ podSucceeds "run-1" 150

theorem acceptanceLost_not_outcomesKept : ∃ s s', run (step {}) (init ["job"]) acceptanceLost = some s ∧
      run (step {}) s [.finishWritten 0 160] = some s' ∧ ¬ OutcomesKept s s' := by
  have hruns : ((run (step {}) (init ["job"]) acceptanceLost).any fun s =>
    (run (step {}) s [.finishWritten 0 160]).any fun s' => !decide (OutcomesKept s s')) := by
    decide
  obtain ⟨s, hs, hrun⟩ := (Option.any_eq_true _ _).mp hruns
  obtain ⟨s', hs', hlost⟩ := (Option.any_eq_true _ _).mp hrun
  exact ⟨s, s', hs, hs', by simpa using hlost⟩

end SchedulerSystem

end PrivaCloud.Scheduler
