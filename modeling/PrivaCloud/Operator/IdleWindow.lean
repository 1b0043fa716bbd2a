import PrivaCloud.Operator.IdleSweep

/-!
# The window of a started pod

When the handlers follow one another, the start in the status is not before the one that was recorded first for its
address, so a pod is left alone for its window. A pod that is replaced between the look and the scale-down is not.
-/

namespace PrivaCloud.Operator

open Framework

/-- A handler of an auto-scale tenant begins when the others have ended, with the status as it is. -/
def Serial (s : RunnerSystem) : RunnerEvent → Prop
  | .spawn request => (∀ p ∈ s.procs, p.finished = true) ∧ request.args.status.toRunnerStatus = s.shared.status ∧
      request.args.persistent = false
  | .advance _ _ | .outside _ => True

instance (s : RunnerSystem) : (event : RunnerEvent) → Decidable (Serial s event)
  | .spawn _ => inferInstanceAs (Decidable (_ ∧ _ ∧ _))
  | .advance _ _ | .outside _ => .isTrue trivial

/-- The start is one of this address: it is not before the one that was recorded first for it. -/
def StartOf (s : RunnerCluster) (ip : String) (startedAt : Option Int) : Prop :=
  ∃ first, s.recorded = some (ip, first) ∧ ∃ started ∈ startedAt, first ≤ started

structure Dated (s : RunnerCluster) : Prop where
  named : ∀ ip ∈ s.status.podIp, StartOf s ip s.status.startedAt
  past : ∀ record ∈ s.recorded, record.2 ≤ s.now

/-- What is the case while a handler is alone -/
structure RunnerTask.Alone (s : RunnerCluster) (p : RunnerTask) : Prop where
  auto : p.args.persistent = false
  named : ∀ ip ∈ p.args.status.podIp, StartOf s ip p.args.status.startedAt
  startedAt : s.status.startedAt = p.args.status.startedAt
  stamped : ∀ time ∈ p.progress.stamped, (∀ record ∈ s.recorded, record.2 ≤ time) ∧ time ≤ s.now
  clock : ∀ time ∈ p.progress.seen.clock, time ≤ s.now

section Serial

variable {s : RunnerCluster} {p : RunnerTask} {o : Oracle} {next : RunnerCluster × RunnerTask}

private theorem record_of_none {fields : StatusPatch} (h : ∀ ip, fields.podIp ≠ some (some ip)) :
    s.record fields = s.recorded := by
  unfold RunnerCluster.record
  split
  · rename_i ip hip
    exact absurd hip (h ip)
  · rfl

private theorem record_of_some {fields : StatusPatch} {ip : String} (h : fields.podIp = some (some ip)) :
    s.record fields =
      if s.recorded.map Prod.fst = some ip then s.recorded else some (ip, fields.startedAt.getD s.now) := by
  rw [RunnerCluster.record, h]

/-- The record after the patch is of the address that is written, with a start that is not after the stamp. -/
theorem RunnerTask.Alone.record (hp : p.Alone s) (hsound : p.progress.Sound p.args) {ip : String}
    (hip : p.progress.written.podIp = some (some ip)) :
    ∃ first, s.record p.progress.written = some (ip, first) ∧
      ∃ started ∈ p.progress.stamped.or s.status.startedAt, first ≤ started := by
  obtain ⟨hstarted, hnamed⟩ := hsound.recorded hp.auto
  rw [record_of_some hip, hstarted]
  cases htime : p.progress.stamped with
  | some time =>
    split
    · rename_i hsame
      obtain ⟨⟨ip', first⟩, hrecord, rfl⟩ := Option.map_eq_some_iff.mp hsame
      exact ⟨first, hrecord, time, rfl, (hp.stamped time htime).1 _ hrecord⟩
    · exact ⟨time, rfl, time, rfl, Int.le_refl _⟩
  | none =>
    have hknown := (hnamed ip hip).resolve_left (by simp [htime])
    obtain ⟨first, hrecord, hstart⟩ := hp.named ip hknown
    rw [if_pos (by rw [hrecord]; rfl), hp.startedAt]
    exact ⟨first, hrecord, hstart⟩

private theorem Dated.patched (h : Dated s) (hp : p.Alone s) (hsound : p.progress.Sound p.args) :
    Dated (s.patched p.progress.written) := by
  have hstarted := (hsound.recorded hp.auto).started
  by_cases hwritten : ∃ ip, p.progress.written.podIp = some (some ip)
  · obtain ⟨ip, hip⟩ := hwritten
    obtain ⟨first, hrecord, started, hmem, hle⟩ := hp.record hsound hip
    refine ⟨?_, ?_⟩
    · intro ip' hnew
      simp only [RunnerCluster.patched, StatusPatch.apply, hip, Option.getD_some, Option.mem_some_iff] at hnew
      subst hnew
      refine ⟨first, hrecord, started, ?_, hle⟩
      simp only [RunnerCluster.patched, StatusPatch.apply, hstarted]
      exact hmem
    · intro record hmem'
      rcases Option.or_eq_some_iff.mp hmem with htime | ⟨htime, -⟩
      · obtain rfl := Option.some.inj (hrecord.symm.trans hmem')
        exact hle.trans (hp.stamped started htime).2
      · have hknown := ((hsound.recorded hp.auto).named ip hip).resolve_left (by simp [htime])
        obtain ⟨first', hfirst', -⟩ := hp.named ip hknown
        have hsame : s.record p.progress.written = s.recorded := by
          rw [record_of_some hip, if_pos (by rw [hfirst']; rfl)]
        exact h.past record (hsame.symm.trans hmem')
  · have hnone : ∀ ip, p.progress.written.podIp ≠ some (some ip) := fun ip hip => hwritten ⟨ip, hip⟩
    have hrecord : s.record p.progress.written = s.recorded := record_of_none hnone
    refine ⟨?_, fun record hmem => h.past record (hrecord.symm.trans hmem)⟩
    intro ip hnew
    have hold : s.status.podIp = some ip := by
      have hget : p.progress.written.podIp.getD s.status.podIp = some ip := hnew
      cases hip : p.progress.written.podIp with
      | none => rwa [hip] at hget
      | some named =>
        rw [hip] at hget
        exact absurd (hip.trans (congrArg some hget)) (hnone ip)
    obtain ⟨first, hfirst, started, hmem, hle⟩ := h.named ip hold
    refine ⟨first, hrecord.trans hfirst, ?_⟩
    simp only [RunnerCluster.patched, StatusPatch.apply, hstarted]
    cases htime : p.progress.stamped with
    | none => exact ⟨started, hmem, hle⟩
    | some time => exact ⟨time, rfl, (hp.stamped time htime).1 _ hfirst⟩

/-- A call writes nothing to the status, or makes it not routable; the record and the time stay. -/
theorem exec_status (op : RunnerOp) : (s.exec op o).1.recorded = s.recorded ∧ (s.exec op o).1.now = s.now ∧
      (s.exec op o).1.status.startedAt = s.status.startedAt ∧
        ((s.exec op o).1.status.podIp = s.status.podIp ∨ (s.exec op o).1.status.podIp = none) := by
  cases op with
  | patch fields stamped => exact ⟨rfl, rfl, rfl, Or.inl rfl⟩
  | setCrStatus phase =>
    simp only [RunnerCluster.exec]
    split
    · exact ⟨rfl, rfl, rfl, Or.inl rfl⟩
    · exact ⟨rfl, rfl, rfl, Or.inr rfl⟩
  | kube op =>
    cases op with
    | readyPod c => cases c <;> exact ⟨rfl, rfl, rfl, Or.inl rfl⟩
    | _ => exact ⟨rfl, rfl, rfl, Or.inl rfl⟩

private theorem StartOf.congr {s' : RunnerCluster} (h : s'.recorded = s.recorded) {ip : String} {startedAt : Option Int}
    (hstart : StartOf s ip startedAt) : StartOf s' ip startedAt := by
  obtain ⟨first, hfirst, hstarted⟩ := hstart
  exact ⟨first, h.trans hfirst, hstarted⟩

private theorem Dated.exec (h : Dated s) (op : RunnerOp) : Dated (s.exec op o).1 := by
  obtain ⟨hrecorded, hnow, hstarted, hip⟩ := exec_status (s := s) (o := o) op
  refine ⟨?_, by rw [hrecorded, hnow]; exact h.past⟩
  intro ip hnew
  rw [hstarted]
  rcases hip with hsame | hnone
  · exact (h.named ip (hsame.symm.trans hnew)).congr hrecorded
  · exact absurd (hnone.symm.trans hnew) (by simp)

private theorem stamped_after (op : RunnerOp) (reply : Option op.Reply) {pod : Option Pod} {now time : Int}
    (h : time ∈ (p.progress.after pod now op reply).stamped) : time ∈ p.progress.stamped ∨ time = now := by
  cases op with
  | setCrStatus phase => exact Or.inl h
  | patch fields stamped =>
    simp only [Progress.after, Progress.assign] at h
    cases stamped with
    | false => exact Or.inl h
    | true => exact Or.inr (Option.some.inj h).symm
  | kube op =>
    refine Or.inl ?_
    cases op with
    | readyPod c => cases c <;> exact h
    | read c => cases c <;> exact h
    | health c ip => cases c <;> exact h
    | scale c replicas =>
      cases c with
      | terminal => exact h
      | runner => cases replicas <;> exact h
    | _ => exact h

private theorem clock_look (k : Sighting) (pod : Option Pod) (reply : Option (Option String)) :
    (k.look pod reply).clock = k.clock := by
  unfold Sighting.look
  split
  · rfl
  · rfl

private theorem clock_after (op : RunnerOp) {time : Int}
    (h : time ∈ (p.progress.after s.pod s.now op (s.exec op o).2).seen.clock) :
    time ∈ p.progress.seen.clock ∨ time = s.now := by
  cases op with
  | setCrStatus phase => exact Or.inl h
  | patch fields stamped => exact Or.inl h
  | kube op =>
    cases op with
    | clock => exact Or.inr (Option.some.inj h).symm
    | readyPod c =>
      cases c with
      | terminal => exact Or.inl h
      | runner => exact Or.inl ((clock_look _ _ _).symm.trans h)
    | read c => cases c <;> exact Or.inl h
    | health c ip => cases c <;> exact Or.inl h
    | scale c replicas =>
      cases c with
      | terminal => exact Or.inl h
      | runner => cases replicas <;> exact Or.inl h
    | _ => exact Or.inl h

private theorem RunnerTask.Alone.exec (hp : p.Alone s) (h : Dated s) (op : RunnerOp) (rest : RunnerScript Unit) :
    ({ p with script := rest, progress := p.progress.after s.pod s.now op (s.exec op o).2 } : RunnerTask).Alone
      (s.exec op o).1 := by
  obtain ⟨hrecorded, hnow, hstarted, -⟩ := exec_status (s := s) (o := o) op
  refine ⟨hp.auto, fun ip hknown => (hp.named ip hknown).congr hrecorded, hstarted.trans hp.startedAt, ?_, ?_⟩
  · intro time htime
    rw [hrecorded, hnow]
    rcases stamped_after op _ htime with hold | rfl
    · exact hp.stamped time hold
    · exact ⟨h.past, Int.le_refl _⟩
  · intro time htime
    rw [hnow]
    rcases clock_after op htime with hold | rfl
    · exact hp.clock time hold
    · exact Int.le_refl _

end Serial

/-- At most one handler runs, the last one, and it is alone. -/
structure Ordered (s : RunnerSystem) : Prop where
  knows : ∀ p ∈ s.procs, p.Knows
  dated : Dated s.shared
  alone : ∀ p ∈ s.procs, p.finished = false → p.Alone s.shared
  last : ∀ i p, s.procs[i]? = some p → p.finished = false → i + 1 = s.procs.length

section Runs

variable {s s' : RunnerSystem}

private theorem Ordered.spawn (h : Ordered s) {request : RunnerRequest} (hc : Serial s (.spawn request)) :
    Ordered ⟨s.shared, s.procs ++ [runnerProgram.enter request]⟩ := by
  obtain ⟨hfinished, hstatus, hauto⟩ := hc
  have hstep : runnerProgram.step s (.spawn request) = some ⟨s.shared, s.procs ++ [runnerProgram.enter request]⟩ := rfl
  refine ⟨knows_step h.knows hstep, h.dated, ?_, ?_⟩
  · intro p hp hrunning
    rcases List.mem_append.mp hp with hold | hnew
    · rw [hfinished p hold] at hrunning
      cases hrunning
    · rw [List.mem_singleton.mp hnew]
      refine ⟨hauto, ?_, ?_, by rintro _ ⟨⟩, by rintro _ ⟨⟩⟩
      · have hnamed := h.dated.named
        rw [← hstatus] at hnamed
        exact hnamed
      · exact congrArg RunnerStatus.startedAt hstatus.symm
  · intro i p hp hrunning
    rw [List.length_append, List.length_singleton]
    rw [List.getElem?_append] at hp
    split at hp
    · rw [hfinished p (List.mem_of_getElem? hp)] at hrunning
      cases hrunning
    · rename_i hge
      have hlt := (List.getElem?_eq_some_iff.mp hp).1
      rw [List.length_singleton] at hlt
      omega

theorem Ordered.advance (h : Ordered s) {i : Nat} {o : Oracle} (hs : runnerProgram.step s (.advance i o) = some s') :
    Ordered s' := by
  have hknows := knows_step h.knows hs
  obtain ⟨p, next, hp, hact, rfl⟩ := Program.advance_eq_some hs
  have hmem := List.mem_of_getElem? hp
  have hrunning : p.finished = false := by
    cases hfinished : p.finished with
    | false => rfl
    | true => simp [runnerProgram, RunnerTask.act, (h.knows p hmem).ended hfinished, hfinished] at hact
  have halone := h.alone p hmem hrunning
  -- the others have ended
  have hothers : ∀ j q, j ≠ i → s.procs[j]? = some q → q.finished = true := by
    intro j q hne hq
    cases hfinished : q.finished with
    | true => rfl
    | false =>
      have hj := h.last j q hq hfinished
      have hi := h.last i p hp hrunning
      omega
  have hlast : ∀ j q, (s.procs.set i next.2)[j]? = some q → q.finished = false →
      q = next.2 ∧ j + 1 = (s.procs.set i next.2).length := by
    intro j q hq hq'
    rw [List.length_set]
    rcases Program.getElem?_set_cases hq with ⟨rfl, rfl⟩ | ⟨hne, hold⟩
    · exact ⟨rfl, h.last j p hp hrunning⟩
    · rw [hothers j q hne hold] at hq'
      cases hq'
  have hdated : Dated next.1 ∧ (next.2.finished = false → next.2.Alone next.1) := by
    cases hscript : p.script with
    | pure a =>
      simp only [runnerProgram, RunnerTask.act, hscript, hrunning, Bool.false_eq_true, if_false,
        Option.some.injEq] at hact
      rw [← hact]
      refine ⟨?_, by rintro ⟨⟩⟩
      dsimp only
      split
      · exact h.dated
      · exact h.dated.patched halone (h.knows p hmem).sound
    | call op rest =>
      simp only [runnerProgram, RunnerTask.act, hscript, Option.some.injEq] at hact
      rw [← hact]
      exact ⟨h.dated.exec op, fun _ => halone.exec h.dated op _⟩
  refine ⟨hknows, hdated.1, ?_, fun j q hq hq' => (hlast j q hq hq').2⟩
  intro q hq hq'
  obtain ⟨j, hj⟩ := List.mem_iff_getElem?.mp hq
  obtain ⟨rfl, -⟩ := hlast j q hj hq'
  exact hdated.2 hq'

private theorem Ordered.outside (h : Ordered s) {change : RunnerChange}
    (hs : runnerProgram.step s (.outside change) = some s') : Ordered s' := by
  have hknows := knows_step h.knows hs
  obtain ⟨shared, hchange, rfl⟩ := Program.outside_eq_some hs
  cases hchange
  refine ⟨hknows, ?_, ?_, h.last⟩
  · cases change with
    | pod pod => exact ⟨h.dated.named, h.dated.past⟩
    | later seconds =>
      refine ⟨h.dated.named, fun record hrecord => ?_⟩
      have := h.dated.past record hrecord
      dsimp only
      omega
  · intro p hp hrunning
    obtain ⟨hauto, hnamed, hstarted, hstamped, hclock⟩ := h.alone p hp hrunning
    cases change with
    | pod pod => exact ⟨hauto, hnamed, hstarted, hstamped, hclock⟩
    | later seconds =>
      have hlater : s.shared.now ≤ s.shared.now + seconds := Int.le_add_of_nonneg_right (Int.natCast_nonneg _)
      refine ⟨hauto, hnamed, hstarted, fun time htime => ?_, fun time htime => (hclock time htime).trans hlater⟩
      obtain ⟨hfirst, hle⟩ := hstamped time htime
      exact ⟨hfirst, hle.trans hlater⟩

/-- The handlers follow one another, and no pod is replaced once the one that is under way has looked. -/
def Undisturbed (s : RunnerSystem) : RunnerEvent → Prop
  | .spawn request => Serial s (.spawn request)
  | .outside (.pod _) => ∀ p ∈ s.procs, p.finished = false → p.progress.seen.looked = none
  | .advance _ _ | .outside (.later _) => True

instance (s : RunnerSystem) : (event : RunnerEvent) → Decidable (Undisturbed s event)
  | .spawn request => inferInstanceAs (Decidable (Serial s (.spawn request)))
  | .outside (.pod _) => inferInstanceAs (Decidable (∀ _ ∈ s.procs, _))
  | .advance _ _ | .outside (.later _) => .isTrue trivial

private theorem Undisturbed.serial {event : RunnerEvent} (h : Undisturbed s event) : Serial s event := by
  cases event with
  | spawn request => exact h
  | advance i o => trivial
  | outside change => trivial

/-- The pod that a handler under way has found is the one that is Ready. -/
structure Looking (s : RunnerSystem) : Prop where
  knows : ∀ p ∈ s.procs, p.Knows
  current : ∀ p ∈ s.procs, p.finished = false → p.progress.seen.looked ≠ none → p.progress.seen.ready = s.shared.pod

theorem exec_pod (cluster : RunnerCluster) (op : RunnerOp) (o : Oracle) : (cluster.exec op o).1.pod = cluster.pod := by
  cases op with
  | patch fields stamped => rfl
  | setCrStatus phase =>
    simp only [RunnerCluster.exec]
    split <;> rfl
  | kube op =>
    cases op with
    | readyPod c => cases c <;> rfl
    | _ => rfl

private theorem ready_look (k : Sighting) (pod : Option Pod) (reply : Option (Option String)) :
    (k.look pod reply).looked = k.looked ∧ (k.look pod reply).ready = k.ready ∨ (k.look pod reply).ready = pod := by
  unfold Sighting.look
  split
  · exact Or.inr rfl
  · exact Or.inl ⟨rfl, rfl⟩

private theorem looked_after (k : Progress) (pod : Option Pod) (now : Int) (op : RunnerOp) (reply : Option op.Reply) :
    (k.after pod now op reply).seen.looked = k.seen.looked ∧ (k.after pod now op reply).seen.ready = k.seen.ready ∨
      (k.after pod now op reply).seen.ready = pod := by
  cases op with
  | setCrStatus phase => exact Or.inl ⟨rfl, rfl⟩
  | patch fields stamped => exact Or.inl ⟨rfl, rfl⟩
  | kube op =>
    cases op with
    | readyPod c =>
      cases c with
      | terminal => exact Or.inl ⟨rfl, rfl⟩
      | runner => exact ready_look k.seen pod reply
    | read c => cases c <;> exact Or.inl ⟨rfl, rfl⟩
    | health c ip => cases c <;> exact Or.inl ⟨rfl, rfl⟩
    | scale c replicas =>
      cases c with
      | terminal => exact Or.inl ⟨rfl, rfl⟩
      | runner => cases replicas <;> exact Or.inl ⟨rfl, rfl⟩
    | _ => exact Or.inl ⟨rfl, rfl⟩

theorem Looking.advance (h : Looking s) {i : Nat} {o : Oracle} (hs : runnerProgram.step s (.advance i o) = some s') :
    Looking s' := by
  have hknows := knows_step h.knows hs
  obtain ⟨p, next, hp, hact, rfl⟩ := Program.advance_eq_some hs
  have hold := h.current p (List.mem_of_getElem? hp)
  have hnext : next.1.pod = s.shared.pod ∧
      (next.2.finished = false → next.2.progress.seen.looked ≠ none → next.2.progress.seen.ready = s.shared.pod) := by
    cases hscript : p.script with
    | pure a =>
      simp only [runnerProgram, RunnerTask.act, hscript] at hact
      split at hact <;> cases hact
      refine ⟨?_, by rintro ⟨⟩⟩
      dsimp only
      split <;> rfl
    | call op rest =>
      simp only [runnerProgram, RunnerTask.act, hscript, Option.some.injEq] at hact
      rw [← hact]
      refine ⟨exec_pod _ _ _, fun hrunning hlooked => ?_⟩
      rcases looked_after p.progress s.shared.pod s.shared.now op (s.shared.exec op o).2 with ⟨hsame, hready⟩ | hready
      · exact hready.trans (hold hrunning (hsame ▸ hlooked))
      · exact hready
  refine ⟨hknows, fun q hq hrunning hlooked => ?_⟩
  obtain ⟨j, hj⟩ := List.mem_iff_getElem?.mp hq
  rw [hnext.1]
  rcases Program.getElem?_set_cases hj with ⟨-, rfl⟩ | ⟨-, hmem⟩
  · exact hnext.2 hrunning hlooked
  · exact h.current q (List.mem_of_getElem? hmem) hrunning hlooked

end Runs

end PrivaCloud.Operator
