import PrivaCloud.Framework.Processes
import PrivaCloud.Web.AttachBoot

/-!
# Every message once after a refresh

The hydrated rows and the events after the attach hold every complete message once, as long as the cut falls on
the boundary of the listed run, the session still has that run when the attach comes in, and nothing that the
replay needs has been trimmed by then.
-/

namespace PrivaCloud.Web

open Framework AgentRunner

variable {Data : Type} (codec : RowCodec Data)

section Properties

variable (s : RestoreWorld Data)

/-- The rows of the hydration and of the events that the attach has delivered. -/
def shown : List Row :=
  match s.restore with
  | .attached i _ rows _ => rows ++ (s.runs[i]?.map fun run => codec.rows (run.broadcast.followers 0).sent).getD []
  | .refused rows => rows
  | .idle | .listed _ | .hydrated _ _ _ => []

/-- The client has been sent all that the last run has recorded, or has been turned down. -/
def CaughtUp : Prop :=
  match s.restore with
  | .attached i _ _ _ => ∃ run ∈ s.runs[i]?, i + 1 = s.runs.length ∧
      (run.broadcast.followers 0).sentThrough + 1 = run.record.nextSeq
  | .refused _ => True
  | .idle | .listed _ | .hydrated _ _ _ => False

instance : Decidable (CaughtUp s) := by
  unfold CaughtUp
  split
  · infer_instance
  · exact .isTrue trivial
  · exact .isFalse id
  · exact .isFalse id
  · exact .isFalse id

def ExactlyOnce : Prop := CaughtUp s → (shown codec s).Perm (s.produced codec)

def CursorOwn (event : RestoreEvent Data) : Prop :=
  ∀ runId rows sinceSeq, event = .attach → s.restore = .hydrated runId rows sinceSeq → sinceSeq ≠ 0 →
    ∀ i ∈ s.lookup (s.attachFrame sinceSeq), ∀ run ∈ s.runs[i]?, run.record.runId = runId

/-- The cut of the rows falls on the boundary of the last run: its first message is the user message that was
listed, and no subagent has rows before it. -/
def CutsAtBoundary (run : ListedRun) : Prop :=
  match truthy run.firstUserUuid with
  | none => ∀ last ∈ s.runs.getLast?, last.rows codec = []
  | some uuid =>
    (∀ last ∈ s.runs.getLast?, ∃ row ∈ (last.rows codec).head?, row.uuid = uuid ∧ row.main = true) ∧
      ∀ row ∈ s.earlierRows codec (s.runs.length - 1), row.main = true

instance (run : ListedRun) : Decidable (CutsAtBoundary codec s run) := by
  unfold CutsAtBoundary
  split
  · infer_instance
  · infer_instance

/-- The transcript is cut at the boundary of the run, the attach finds this run with all that it needs, and
nothing of that is trimmed before the replay begins. -/
def Bounded : RestoreEvent Data → Prop
  | .read =>
    match s.restore with
    | .listed run => ∀ live ∈ s.liveRun, live.record.runId = run.runId → live.record.firstSeq ≤ 1 →
        CutsAtBoundary codec s run
    | _ => True
  | .attach =>
    match s.restore with
    | .hydrated runId _ sinceSeq => ∃ run ∈ s.runs.getLast?, run.retained = true ∧ run.record.runId = runId ∧
        run.record.hasReplayGap sinceSeq = false
    | _ => True
  | .follow event =>
    match s.restore with
    | .attached i _ _ _ => ∀ run ∈ s.runs[i]?, run.broadcast.KeepsReplayTail event
    | _ => True
  | _ => True

instance (event : RestoreEvent Data) : Decidable (Bounded codec s event) := by
  unfold Bounded
  split
  · split <;> infer_instance
  · split <;> infer_instance
  · split
    · rename_i event _ i _ _ _ _
      have hdec (run : SessionRun Data) : Decidable (run.broadcast.KeepsReplayTail event) := inferInstance
      infer_instance
    · exact .isTrue trivial
  · exact .isTrue trivial

end Properties

section Rows

private theorem rows_append (events events' : List (RunEvent Data)) :
    codec.rows (events ++ events') = codec.rows events ++ codec.rows events' := List.filterMap_append

private theorem rows_filter_sends (f : Follower Data) (history : List (RunEvent Data)) (p : RunEvent Data → Bool) :
    codec.rows (history.filter fun e => p e && f.sends e) = codec.rows (history.filter p) := by
  unfold RowCodec.rows
  induction history with
  | nil => rfl
  | cons e history ih =>
    by_cases hin : p e = true
    · by_cases hsends : f.sends e = true
      · grind
      · have hinternal : e.eventType ∈ [EventType.keepalive, .permissionRequest, .runEnd, .subscriberOverflow] := by
          rw [Follower.sends, Bool.and_eq_true, not_and_or] at hsends
          rcases hsends with hend | hasked
          · have hend : e.eventType = .runEnd := by simpa using hend
            simp [hend]
          · have hasked : e.eventType = .permissionRequest ∧ e.seq < f.snapshotNext := by simpa using hasked
            simp [hasked.1]
        rw [List.filter_cons_of_neg (by simp [hsends]), List.filter_cons_of_pos hin, List.filterMap_cons,
          codec.internal _ hinternal, ih]
    · rw [List.filter_cons_of_neg (by simp [hin]), List.filter_cons_of_neg hin, ih]

private theorem rows_split (history : List (RunEvent Data)) (sinceSeq : Nat) :
    (codec.rows (history.filter fun e => e.seq ≤ sinceSeq) ++ codec.rows (history.filter fun e => sinceSeq < e.seq)).Perm
      (codec.rows history) := by
  rw [← rows_append]
  refine List.Perm.filterMap _ ?_
  have hsplit := List.filter_append_perm (fun e : RunEvent Data => decide (e.seq ≤ sinceSeq)) history
  refine List.Perm.trans (List.Perm.of_eq ?_) hsplit
  congr 1
  apply List.filter_congr
  intro e _
  by_cases hle : e.seq ≤ sinceSeq
  · simp [hle]
  · simp [hle, Nat.lt_of_not_le hle]

private theorem main_append_side (rows : List Row) :
    (rows.filter Row.main ++ rows.filter fun row => !row.main).Perm rows := List.filter_append_perm _ _

private theorem hydrateRows_cut (run : ListedRun) {uuid : String} (huuid : truthy run.firstUserUuid = some uuid)
    {earlier current : List Row} {first : Row} (hearlier : ∀ row ∈ earlier, row.main = true)
    (hfirst : first.main = true) (hsame : first.uuid = uuid) (hnew : ∀ row ∈ earlier, row.uuid ≠ uuid) :
    hydrateRows run ((earlier ++ first :: current).filter Row.main ++
      (earlier ++ first :: current).filter fun row => !row.main) false = earlier := by
  have hmain : (earlier ++ first :: current).filter Row.main = earlier ++ first :: current.filter Row.main := by
    rw [List.filter_append, List.filter_eq_self.mpr hearlier, List.filter_cons_of_pos hfirst]
  have hcut (rest : List Row) : (earlier ++ first :: rest).findIdx? (·.uuid = uuid) = some earlier.length := by
    grind
  unfold hydrateRows
  rw [huuid, hmain, List.append_assoc, List.cons_append]
  dsimp only
  rw [hcut]
  simp_all

end Rows

/-- The rows are those of the earlier runs and of this one up to the cursor. -/
def Covers (s : RestoreWorld Data) (i : Nat) (run : SessionRun Data) (rows : List Row) (sinceSeq : Nat) : Prop :=
  sinceSeq < run.record.nextSeq ∧
    rows.Perm (s.earlierRows codec i ++ codec.rows (run.broadcast.history.filter fun e => e.seq ≤ sinceSeq))

/-- What is known of the rows that have been loaded. -/
def Restored (s : RestoreWorld Data) : Restore → Prop
  | .idle | .listed _ => True
  | .hydrated runId rows sinceSeq => ∃ (i : Nat) (run : SessionRun Data), s.runs[i]? = some run ∧
      run.record.runId = runId ∧ Covers codec s i run rows sinceSeq
  | .attached i _ rows sinceSeq => ∃ run, s.runs[i]? = some run ∧ Covers codec s i run rows sinceSeq ∧
      (run.broadcast.followers 0).sinceSeq = sinceSeq ∧ (run.broadcast.followers 0).replayGap = some false
  | .refused _ => False

structure RestoreInv (s : RestoreWorld Data) : Prop where
  runs : ∀ run ∈ s.runs, run.broadcast.Inv
  positive : ∀ run ∈ s.runs, 1 ≤ run.record.nextSeq ∧ ∀ e ∈ run.broadcast.history, 1 ≤ e.seq
  runIds : (s.runs.map (·.record.runId)).Nodup
  distinct : ((s.produced codec).map Row.uuid).Nodup
  restored : Restored codec s s.restore

/-- A run goes on: events are recorded after those that it has, and its follower keeps its cursor. -/
structure Continues (run run' : SessionRun Data) : Prop where
  inv : run'.broadcast.Inv
  runId : run'.record.runId = run.record.runId
  history : ∃ new, run'.broadcast.history = run.broadcast.history ++ new ∧ ∀ e ∈ new, run.record.nextSeq ≤ e.seq
  next : run.record.nextSeq ≤ run'.record.nextSeq
  cursor : (run'.broadcast.followers 0).sinceSeq = (run.broadcast.followers 0).sinceSeq
  gap : (run'.broadcast.followers 0).replayGap = (run.broadcast.followers 0).replayGap

section Moves

variable {codec} {s : RestoreWorld Data} {run run' : SessionRun Data} {i j : Nat} {sinceSeq : Nat}

private theorem set_last {α : Type} {l : List α} {a : α} (h : l.getLast? = some a) (b : α) :
    ∃ front, l = front ++ [a] ∧ l.set (l.length - 1) b = front ++ [b] := by
  obtain ⟨front, rfl⟩ := List.getLast?_eq_some_iff.mp h
  grind

theorem getLast?_getElem? {α : Type} {l : List α} {a : α} (h : l.getLast? = some a) : l[l.length - 1]? = some a := by
  rw [← List.getLast?_eq_getElem?]
  exact h

private theorem liveRun_some (h : s.liveRun = some run) : s.runs.getLast? = some run ∧ run.record.live = true := by
  unfold RestoreWorld.liveRun at h
  grind

private theorem earlierRows_set (hij : i ≤ j) (s : RestoreWorld Data) (run : SessionRun Data) :
    (s.setRun j run).earlierRows codec i = s.earlierRows codec i := by
  unfold RestoreWorld.earlierRows RestoreWorld.setRun
  rw [List.take_set, List.set_eq_of_length_le]
  exact (List.length_take_le i s.runs).trans hij

private theorem Continues.upTo (h : Continues run run') (hsince : sinceSeq < run.record.nextSeq) :
    run'.broadcast.history.filter (fun e => e.seq ≤ sinceSeq) =
      run.broadcast.history.filter fun e => e.seq ≤ sinceSeq := by
  obtain ⟨new, hhistory, hnew⟩ := h.history
  have hnone : new.filter (fun e => e.seq ≤ sinceSeq) = [] := by
    rw [List.filter_eq_nil_iff]
    intro e he
    have hle := hnew e he
    simp only [decide_eq_true_eq]
    omega
  rw [hhistory, List.filter_append, hnone, List.append_nil]

private theorem Covers.set {rows : List Row} (h : Covers codec s i run rows sinceSeq) (hij : i ≤ j)
    (hc : Continues run run') (other : SessionRun Data) : Covers codec (s.setRun j other) i run' rows sinceSeq := by
  refine ⟨lt_of_lt_of_le h.1 hc.next, ?_⟩
  rw [earlierRows_set hij, hc.upTo h.1]
  exact h.2

private theorem Continues.refl (h : run.broadcast.Inv) : Continues run run :=
  ⟨h, rfl, ⟨[], (List.append_nil _).symm, by rintro _ ⟨⟩⟩, Nat.le_refl _, rfl, rfl⟩

private theorem RestoreInv.continues (h : RestoreInv codec s) (hj : s.runs[j]? = some run) (hc : Continues run run')
    (hpositive : ∀ e ∈ run'.broadcast.history, 1 ≤ e.seq)
    (hdistinct : (((s.setRun j run').produced codec).map Row.uuid).Nodup)
    (hlast : (∀ i < s.runs.length, i ≤ j) ∨ ∃ runId rows sinceSeq, s.restore = .attached j runId rows sinceSeq) :
    RestoreInv codec (s.setRun j run') := by
  have hmem := List.mem_of_getElem? hj
  refine ⟨?_, ?_, ?_, hdistinct, ?_⟩
  · intro other hother
    rcases Program.mem_set_cases hother with rfl | hother
    · exact hc.inv
    · exact h.runs other hother
  · intro other hother
    rcases Program.mem_set_cases hother with rfl | hother
    · exact ⟨(h.positive run hmem).1.trans hc.next, hpositive⟩
    · exact h.positive other hother
  · have hids : (s.runs.set j run').map (·.record.runId) = s.runs.map (·.record.runId) := by
      rw [List.map_set, hc.runId]
      obtain ⟨hlt, rfl⟩ := List.getElem?_eq_some_iff.mp hj
      have hself := List.set_getElem_self (show j < (s.runs.map (·.record.runId)).length by
        rw [List.length_map]
        exact hlt)
      rw [List.getElem_map] at hself
      exact hself
    change ((s.runs.set j run').map (·.record.runId)).Nodup
    rw [hids]
    exact h.runIds
  · -- the run that goes on may be the one whose rows have been loaded
    have hrun (i : Nat) (other : SessionRun Data) (hother : s.runs[i]? = some other) :
        ∃ next, (s.setRun j run').runs[i]? = some next ∧ Continues other next := by
      by_cases hij : j = i
      · subst hij
        obtain rfl := Option.some.inj (hj.symm.trans hother)
        exact ⟨run', List.getElem?_set_self (List.getElem?_eq_some_iff.mp hj).1, hc⟩
      · refine ⟨other, (List.getElem?_set_ne hij).trans hother, .refl ?_⟩
        exact h.runs other (List.mem_of_getElem? hother)
    have hrestored := h.restored
    change Restored codec (s.setRun j run') s.restore
    cases hrestore : s.restore with
    | idle => trivial
    | listed run => trivial
    | hydrated runId rows sinceSeq =>
      rw [hrestore] at hrestored
      obtain ⟨i, other, hother, hid, hcovers⟩ := hrestored
      obtain ⟨next, hnext, hcont⟩ := hrun i other hother
      refine ⟨i, next, hnext, hcont.runId.trans hid, hcovers.set ?_ hcont run'⟩
      grind
    | attached i runId rows sinceSeq =>
      rw [hrestore] at hrestored
      obtain ⟨other, hother, hcovers, hcursor, hgap⟩ := hrestored
      obtain ⟨next, hnext, hcont⟩ := hrun i other hother
      refine ⟨next, hnext, hcovers.set ?_ hcont run', hcont.cursor.trans hcursor, hcont.gap.trans hgap⟩
      grind
    | refused rows =>
      rw [hrestore] at hrestored
      exact hrestored

private theorem continues_publish (h : run.broadcast.Inv) (t : EventType) (d : Data) :
    Continues run (RestoreWorld.publish codec run t d) := by
  have hinv := h.publish codec.toCodec t d
  by_cases ht : t = .keepalive
  · have hsame : RestoreWorld.publish codec run t d = run := by
      unfold RestoreWorld.publish Broadcast.publish
      rw [if_pos ht]
    rw [hsame]
    exact .refl h
  · have hpublish : run.broadcast.publish codec.toCodec t d =
        { record := run.record.recordEvent codec.toCodec t d
          history := run.broadcast.history ++ [⟨run.record.nextSeq, t, d⟩]
          followers := fun i => (run.broadcast.followers i).offer codec.toCodec ⟨run.record.nextSeq, t, d⟩ } := by
      unfold Broadcast.publish
      rw [if_neg ht]
      rfl
    refine ⟨hinv, ?_, ⟨[⟨run.record.nextSeq, t, d⟩], ?_, ?_⟩, ?_, ?_, ?_⟩
    · rw [RestoreWorld.publish, hpublish]
      exact RunRecord.recordEvent_runId _ _ t d
    · rw [RestoreWorld.publish, hpublish]
    · intro e he
      rw [List.mem_singleton.mp he]
    · rw [RestoreWorld.publish, hpublish]
      change run.record.nextSeq ≤ (run.record.recordEvent codec.toCodec t d).nextSeq
      rw [RunRecord.recordEvent_nextSeq codec.toCodec run.record ht d]
      exact Nat.le_succ _
    · rw [RestoreWorld.publish, hpublish]
      exact Follower.offer_sinceSeq _ _ _
    · rw [RestoreWorld.publish, hpublish]
      exact Follower.offer_replayGap _ _ _

private theorem Continues.trans {run'' : SessionRun Data} (h : Continues run run') (h' : Continues run' run'') :
    Continues run run'' := by
  obtain ⟨new, hhistory, hnew⟩ := h.history
  obtain ⟨new', hhistory', hnew'⟩ := h'.history
  refine ⟨h'.inv, h'.runId.trans h.runId, ⟨new ++ new', ?_, ?_⟩, h.next.trans h'.next, h'.cursor.trans h.cursor,
    h'.gap.trans h.gap⟩
  · rw [hhistory', hhistory, List.append_assoc]
  · intro e he
    rcases List.mem_append.mp he with he | he
    · exact hnew e he
    · exact h.next.trans (hnew' e he)

private theorem inv_status {b : Broadcast Data} (h : b.Inv) (status : RunStatus) :
    ({ b with record := { b.record with status := status } } : Broadcast Data).Inv where
  logs := ⟨h.logs.keyed, h.logs.below, h.logs.first, h.logs.tail⟩
  increasing := h.increasing
  exact i hg := ⟨(h.exact i hg).cursor, (h.exact i hg).sent, (h.exact i hg).marker, (h.exact i hg).source⟩

private theorem continues_ended (h : run.broadcast.Inv) (status : RunStatus) (d : Data) :
    Continues run (RestoreWorld.ended codec run status d) := by
  have hstatus := inv_status h status
  refine Continues.trans ?_ (continues_publish hstatus .runEnd d)
  exact ⟨hstatus, rfl, ⟨[], (List.append_nil _).symm, by rintro _ ⟨⟩⟩, Nat.le_refl _, rfl, rfl⟩

theorem own_keeps {c : Codec Data} {b b' : Broadcast Data} {event : BroadcastEvent Data} (hown : own event = true)
    (hs : b.step c event = some b') : b'.record = b.record ∧ b'.history = b.history ∧
      (b'.followers 0).sinceSeq = (b.followers 0).sinceSeq ∧ (b'.followers 0).replayGap = (b.followers 0).replayGap := by
  have hset (f : Follower Data) (hsince : f.sinceSeq = (b.followers 0).sinceSeq)
      (hgap : f.replayGap = (b.followers 0).replayGap) : (b.setFollower 0 f).record = b.record ∧
        (b.setFollower 0 f).history = b.history ∧
        ((b.setFollower 0 f).followers 0).sinceSeq = (b.followers 0).sinceSeq ∧
        ((b.setFollower 0 f).followers 0).replayGap = (b.followers 0).replayGap := by
    have hself : (b.setFollower 0 f).followers 0 = f := by simp [Broadcast.setFollower]
    rw [hself]
    exact ⟨rfl, rfl, hsince, hgap⟩
  cases event with
  | record t d => cases hown
  | attach i since ack out => cases hown
  | attachOkSent i out =>
    obtain rfl : i = 0 := of_decide_eq_true hown
    simp only [Broadcast.step] at hs
    split at hs <;> cases hs
    exact hset _ rfl rfl
  | replayNext i =>
    obtain rfl : i = 0 := of_decide_eq_true hown
    simp only [Broadcast.step] at hs
    split at hs
    · cases hs
      refine hset _ ?_ (Follower.replay_replayGap _ _ _ _)
      unfold Follower.replay
      dsimp only
      split
      · rfl
      · split
        · rfl
        · rfl
    · cases hs
      exact hset _ rfl rfl
    · cases hs
  | restoreNext i =>
    obtain rfl : i = 0 := of_decide_eq_true hown
    simp only [Broadcast.step] at hs
    split at hs
    · cases hs
      exact hset _ rfl rfl
    · cases hs
      exact hset _ rfl rfl
    · cases hs
  | followNext i =>
    obtain rfl : i = 0 := of_decide_eq_true hown
    simp only [Broadcast.step] at hs
    split at hs <;> cases hs
    refine hset _ ?_ (Follower.follow_replayGap _ _ _)
    unfold Follower.follow
    dsimp only
    split
    · rfl
    · split
      · rfl
      · split
        · rfl
        · rfl
  | keepalive i =>
    simp only [Broadcast.step] at hs
    split at hs <;> cases hs
    exact ⟨rfl, rfl, rfl, rfl⟩
  | disconnect i =>
    obtain rfl : i = 0 := of_decide_eq_true hown
    simp only [Broadcast.step] at hs
    split at hs
    · cases hs
    · cases hs
    · cases hs
      exact hset _ rfl rfl

private theorem produced_set (hj : s.runs[j]? = some run) (hrows : run'.rows codec = run.rows codec) :
    (s.setRun j run').produced codec = s.produced codec := by
  obtain ⟨hlt, rfl⟩ := List.getElem?_eq_some_iff.mp hj
  have hself := List.set_getElem_self (show j < (s.runs.map (·.rows codec)).length by
    rw [List.length_map]
    exact hlt)
  rw [List.getElem_map] at hself
  unfold RestoreWorld.produced RestoreWorld.setRun
  dsimp only
  rw [List.flatMap_def, List.flatMap_def, List.map_set, hrows, hself]

private theorem produced_last (hlast : s.runs.getLast? = some run) {new : List (RunEvent Data)}
    (hhistory : run'.broadcast.history = run.broadcast.history ++ new) :
    (s.setRun (s.runs.length - 1) run').produced codec = s.produced codec ++ codec.rows new := by
  obtain ⟨front, hruns, hset⟩ := set_last hlast run'
  unfold RestoreWorld.produced RestoreWorld.setRun
  dsimp only
  rw [hset, hruns]
  simp [SessionRun.rows, hhistory, rows_append]

theorem RestoreInv.records (h : RestoreInv codec s) (hlast : s.runs.getLast? = some run) (hc : Continues run run')
    (hnew : ∀ new, run'.broadcast.history = run.broadcast.history ++ new →
      ((s.produced codec ++ codec.rows new).map Row.uuid).Nodup) :
    RestoreInv codec (s.setRun (s.runs.length - 1) run') := by
  have hj := getLast?_getElem? hlast
  obtain ⟨new, hhistory, hseq⟩ := hc.history
  refine h.continues hj hc ?_ ?_ (.inl fun i hi => Nat.le_sub_one_of_lt hi)
  · obtain ⟨hnext, hold⟩ := h.positive run (List.mem_of_getElem? hj)
    grind
  · rw [produced_last hlast hhistory]
    exact hnew new hhistory

private theorem earlierRows_last (hlast : s.runs.getLast? = some run) :
    s.produced codec = s.earlierRows codec (s.runs.length - 1) ++ run.rows codec := by
  obtain ⟨front, hruns⟩ := List.getLast?_eq_some_iff.mp hlast
  unfold RestoreWorld.produced RestoreWorld.earlierRows
  rw [hruns]
  simp

private theorem covers_reconcile (h : RestoreInv codec s) {listed : ListedRun} {rows : List Row}
    (hbounded : ∀ live ∈ s.liveRun, live.record.runId = listed.runId → live.record.firstSeq ≤ 1 →
      CutsAtBoundary codec s listed)
    (hreconcile : reconcile listed (s.sessionMessages codec) = some (rows, sinceSeq)) :
    ∃ (i : Nat) (run : SessionRun Data), s.runs[i]? = some run ∧ run.record.runId = listed.runId ∧
      Covers codec s i run rows sinceSeq := by
  unfold reconcile at hreconcile
  split at hreconcile
  · cases hreconcile
  · rename_i hsame
    have hsame : (s.liveRun.map (·.record.runId)) = some listed.runId := not_not.mp hsame
    obtain ⟨live, hlive, hid⟩ := Option.map_eq_some_iff.mp hsame
    obtain ⟨hlast, -⟩ := liveRun_some hlive
    have hi := getLast?_getElem? hlast
    have hmem := List.mem_of_getElem? hi
    obtain ⟨hnext, hseq⟩ := h.positive live hmem
    have hproduced : s.produced codec = s.earlierRows codec (s.runs.length - 1) ++ live.rows codec :=
      earlierRows_last hlast
    refine ⟨s.runs.length - 1, live, hi, hid, ?_⟩
    by_cases hgap : 1 < live.record.firstSeq
    · -- the buffer has been trimmed, and all rows are kept
      have hdata : (rows, sinceSeq) = (s.transcript codec, live.record.nextSeq - 1) := by
        simp only [RestoreWorld.sessionMessages, hlive, Option.map_some, Option.any_some, hgap, decide_true,
          Option.some.injEq] at hreconcile
        rw [← hreconcile]
        rfl
      obtain ⟨rfl, rfl⟩ := Prod.mk.inj hdata
      refine ⟨by omega, ?_⟩
      have hall : live.broadcast.history.filter (fun e => e.seq ≤ live.record.nextSeq - 1) = live.broadcast.history := by
        rw [List.filter_eq_self]
        intro e he
        have hlt : e.seq < live.record.nextSeq := (h.runs live hmem).logs.below e he
        simp only [decide_eq_true_eq]
        omega
      rw [hall]
      refine (main_append_side (s.produced codec)).trans (List.Perm.of_eq ?_)
      rw [hproduced]
      rfl
    · have hdata : (rows, sinceSeq) = (hydrateRows listed (s.transcript codec) false, 0) := by
        simp only [RestoreWorld.sessionMessages, hlive, Option.map_some, Option.any_some, hgap, decide_false,
          Option.some.injEq] at hreconcile
        rw [← hreconcile]
      obtain ⟨rfl, rfl⟩ := Prod.mk.inj hdata
      refine ⟨by omega, ?_⟩
      have hnone : live.broadcast.history.filter (fun e => e.seq ≤ 0) = [] := by
        rw [List.filter_eq_nil_iff]
        intro e he
        have hpos := hseq e he
        simp only [decide_eq_true_eq]
        omega
      rw [hnone]
      have hcut := hbounded live hlive hid (Nat.le_of_not_lt hgap)
      unfold CutsAtBoundary at hcut
      split at hcut
      · rename_i hnothing
        have hrows : hydrateRows listed (s.transcript codec) false = s.transcript codec := by
          unfold hydrateRows
          rw [hnothing]
        rw [hrows]
        refine (main_append_side (s.produced codec)).trans (List.Perm.of_eq ?_)
        rw [hproduced, hcut live hlast]
        rfl
      · rename_i uuid huuid
        obtain ⟨hfirst, hearlier⟩ := hcut
        obtain ⟨first, hhead, hsameUuid, hmain⟩ := hfirst live hlast
        obtain ⟨current, hcurrent⟩ := List.head?_eq_some_iff.mp hhead
        have hdistinct := h.distinct
        rw [hproduced, hcurrent, List.map_append, List.map_cons] at hdistinct
        have hnew : ∀ row ∈ s.earlierRows codec (s.runs.length - 1), row.uuid ≠ uuid := by
          intro row hrow hsameRow
          have hapart := (List.nodup_append.mp hdistinct).2.2
          refine hapart _ (List.mem_map_of_mem hrow) _ List.mem_cons_self ?_
          rw [hsameRow, hsameUuid]
        have hrows := @hydrateRows_cut listed _ huuid _ current _ hearlier hmain hsameUuid hnew
        unfold RestoreWorld.transcript
        rw [hproduced, hcurrent, hrows]
        exact List.Perm.of_eq (List.append_nil _).symm

private theorem RestoreInv.setRestore (h : RestoreInv codec s) {restore : Restore}
    (hrestored : Restored codec s restore) : RestoreInv codec { s with restore := restore } :=
  ⟨h.runs, h.positive, h.runIds, h.distinct, hrestored⟩

private theorem RestoreInv.start (h : RestoreInv codec s) {runId : String} (startedAt : Nat)
    (hnew : ∀ run ∈ s.runs, run.record.runId ≠ runId) :
    RestoreInv codec { s with runs := s.runs ++ [{ broadcast := .init runId, startedAt := startedAt }] } := by
  have hold (i : Nat) (run : SessionRun Data) (hrun : s.runs[i]? = some run) :
      (s.runs ++ [({ broadcast := .init runId, startedAt := startedAt } : SessionRun Data)])[i]? = some run := by
    rw [List.getElem?_append, if_pos (List.getElem?_eq_some_iff.mp hrun).1]
    exact hrun
  have hcovers (i : Nat) (run : SessionRun Data) (hrun : s.runs[i]? = some run) (rows : List Row) (sinceSeq : Nat)
      (hcovers : Covers codec s i run rows sinceSeq) :
      Covers codec { s with runs := s.runs ++ [{ broadcast := .init runId, startedAt := startedAt }] } i run rows
        sinceSeq := by
    refine ⟨hcovers.1, ?_⟩
    unfold RestoreWorld.earlierRows
    dsimp only
    rw [List.take_append_of_le_length (List.getElem?_eq_some_iff.mp hrun).1.le]
    exact hcovers.2
  refine ⟨?_, ?_, ?_, ?_, ?_⟩
  · intro run hrun
    rcases List.mem_append.mp hrun with hrun | hrun
    · exact h.runs run hrun
    · rw [List.mem_singleton.mp hrun]
      exact Broadcast.Inv.init runId
  · intro run hrun
    rcases List.mem_append.mp hrun with hrun | hrun
    · exact h.positive run hrun
    · rw [List.mem_singleton.mp hrun]
      refine ⟨Nat.le_refl _, ?_⟩
      rintro e ⟨⟩
  · rw [List.map_append]
    refine List.nodup_append.mpr ⟨h.runIds, List.nodup_singleton _, ?_⟩
    intro id hid id' hid' heq
    obtain ⟨run, hrun, rfl⟩ := List.mem_map.mp hid
    rw [List.map_singleton, List.mem_singleton] at hid'
    exact hnew run hrun (heq.trans hid')
  · have hsame : RestoreWorld.produced codec { s with
        runs := s.runs ++ [{ broadcast := .init runId, startedAt := startedAt }] } = s.produced codec := by
      unfold RestoreWorld.produced
      rw [List.flatMap_append]
      exact List.append_nil _
    rw [hsame]
    exact h.distinct
  · have hrestored := h.restored
    dsimp only
    cases hrestore : s.restore with
    | idle => trivial
    | listed run => trivial
    | hydrated runId rows sinceSeq =>
      rw [hrestore] at hrestored
      obtain ⟨i, run, hrun, hid, hcov⟩ := hrestored
      exact ⟨i, run, hold i run hrun, hid, hcovers i run hrun rows sinceSeq hcov⟩
    | attached i runId rows sinceSeq =>
      rw [hrestore] at hrestored
      obtain ⟨run, hrun, hcov, hrest⟩ := hrestored
      exact ⟨run, hold i run hrun, hcovers i run hrun rows sinceSeq hcov, hrest⟩
    | refused rows =>
      rw [hrestore] at hrestored
      exact hrestored

private theorem RestoreInv.attach (h : RestoreInv codec s) {runId : String} {rows : List Row}
    (hrestore : s.restore = .hydrated runId rows sinceSeq) (hlast : s.runs.getLast? = some run)
    (hid : run.record.runId = runId) (hgap : run.record.hasReplayGap sinceSeq = false) {broadcast : Broadcast Data}
    (hs : run.broadcast.step codec.toCodec (.attach 0 sinceSeq true []) = some broadcast) :
    RestoreInv codec { s.setRun (s.runs.length - 1) { run with broadcast := broadcast } with
      restore := .attached (s.runs.length - 1) runId rows sinceSeq } := by
  have hi := getLast?_getElem? hlast
  have hmem := List.mem_of_getElem? hi
  have hinv : broadcast.Inv := (h.runs run hmem).step (e := .attach 0 sinceSeq true []) trivial hs
  have hbroadcast : broadcast = run.broadcast.setFollower 0 (.attach run.record sinceSeq true []) := by
    simp only [Broadcast.step] at hs
    split at hs <;> cases hs
    rfl
  have hfollower : broadcast.followers 0 = .attach run.record sinceSeq true [] := by
    rw [hbroadcast]
    simp [Broadcast.setFollower]
  have hsame : broadcast.history = run.broadcast.history ∧ broadcast.record = run.record := by
    rw [hbroadcast]
    exact ⟨rfl, rfl⟩
  -- the run of the rows is the last one
  have hrestored := h.restored
  rw [hrestore] at hrestored
  obtain ⟨i, found, hfound, hfoundId, hcovers⟩ := hrestored
  have hlt : i < s.runs.length := (List.getElem?_eq_some_iff.mp hfound).1
  have hindex : i = s.runs.length - 1 := by
    have hkeys (k : Nat) (other : SessionRun Data) (hother : s.runs[k]? = some other) :
        (s.runs.map (·.record.runId))[k]? = some other.record.runId := by
      rw [List.getElem?_map, hother]
      rfl
    refine (List.getElem?_inj (by rw [List.length_map]; exact hlt) h.runIds).mp ?_
    rw [hkeys i found hfound, hkeys _ run hi, hfoundId, hid]
  subst hindex
  obtain rfl := Option.some.inj (hi.symm.trans hfound)
  have hj : (s.setRun (s.runs.length - 1) { run with broadcast := broadcast }).runs[s.runs.length - 1]? =
      some { run with broadcast := broadcast } := List.getElem?_set_self hlt
  refine ⟨?_, ?_, ?_, ?_, ⟨{ run with broadcast := broadcast }, hj, ⟨?_, ?_⟩, ?_, ?_⟩⟩
  · intro other hother
    rcases Program.mem_set_cases hother with rfl | hother
    · exact hinv
    · exact h.runs other hother
  · intro other hother
    rcases Program.mem_set_cases hother with rfl | hother
    · unfold SessionRun.record
      dsimp only
      rw [hsame.1, hsame.2]
      exact h.positive run hmem
    · exact h.positive other hother
  · have hids : (s.runs.set (s.runs.length - 1) { run with broadcast := broadcast }).map (·.record.runId) =
        s.runs.map (·.record.runId) := by
      have hrecord : ({ run with broadcast := broadcast } : SessionRun Data).record.runId = run.record.runId :=
        congrArg RunRecord.runId hsame.2
      have hself := List.set_getElem_self (show s.runs.length - 1 < (s.runs.map (·.record.runId)).length by
        rw [List.length_map]
        exact hlt)
      rw [List.getElem_map, (List.getElem?_eq_some_iff.mp hi).2] at hself
      rw [List.map_set, hrecord, hself]
    change ((s.runs.set (s.runs.length - 1) { run with broadcast := broadcast }).map (·.record.runId)).Nodup
    rw [hids]
    exact h.runIds
  · have hproduced : (s.setRun (s.runs.length - 1) { run with broadcast := broadcast }).produced codec =
        s.produced codec := by
      refine produced_set hi ?_
      unfold SessionRun.rows
      dsimp only
      rw [hsame.1]
    change (((s.setRun (s.runs.length - 1) { run with broadcast := broadcast }).produced codec).map Row.uuid).Nodup
    rw [hproduced]
    exact h.distinct
  · change sinceSeq < broadcast.record.nextSeq
    rw [hsame.2]
    exact hcovers.1
  · change rows.Perm ((s.setRun (s.runs.length - 1) { run with broadcast := broadcast }).earlierRows codec _ ++
      codec.rows (broadcast.history.filter _))
    rw [earlierRows_set (Nat.le_refl _), hsame.1]
    exact hcovers.2
  · dsimp only
    rw [hfollower]
    rfl
  · dsimp only
    rw [hfollower]
    change some (run.record.hasReplayGap sinceSeq) = some false
    rw [hgap]

private theorem lookup_attachFrame (s : RestoreWorld Data) (sinceSeq : Nat) (hlast : s.runs.getLast? = some run)
    (hretained : run.retained = true) : s.lookup (s.attachFrame sinceSeq) = some (s.runs.length - 1) := by
  have hframe : s.attachFrame sinceSeq = .attach (truthy (some s.sessionId)) none sinceSeq := rfl
  rw [hframe]
  unfold RestoreWorld.lookup
  rw [hlast]
  simp [Option.filter, hretained]

private theorem restore_step {s' : RestoreWorld Data} {event : RestoreEvent Data} (h : RestoreInv codec s)
    (hbounded : Bounded codec s event) (hs : s.step codec event = some s') : RestoreInv codec s' := by
  cases event with
  | start runId startedAt =>
    simp only [RestoreWorld.step] at hs
    split at hs <;> cases hs
    rename_i hguard
    refine h.start startedAt ?_
    intro run hrun
    exact of_decide_eq_true (List.all_eq_true.mp hguard.2 run hrun)
  | record t d =>
    simp only [RestoreWorld.step] at hs
    split at hs
    · rename_i run hlive
      split at hs <;> cases hs
      rename_i hguard
      obtain ⟨hlast, -⟩ := liveRun_some hlive
      have hmem := List.mem_of_getElem? (getLast?_getElem? hlast)
      refine h.records hlast (continues_publish (h.runs run hmem) t d) ?_
      intro new hhistory
      have hrows : codec.rows new = (codec.row t d).toList := by
        by_cases ht : t = .keepalive
        · have hsame : new = [] := by
            unfold RestoreWorld.publish Broadcast.publish at hhistory
            rw [if_pos ht] at hhistory
            exact List.self_eq_append_right.mp hhistory
          rw [hsame, codec.internal t (by simp [ht])]
          rfl
        · have hone : new = [⟨run.record.nextSeq, t, d⟩] := by
            unfold RestoreWorld.publish Broadcast.publish at hhistory
            rw [if_neg ht] at hhistory
            exact (List.append_cancel_left hhistory).symm
          rw [hone]
          unfold RowCodec.rows
          cases hrow : codec.row t d with
          | none => simp [hrow]
          | some row => simp [hrow]
      rw [hrows, List.map_append]
      refine List.nodup_append.mpr ⟨h.distinct, ?_, ?_⟩
      · grind
      · intro uuid huuid uuid' huuid' heq
        obtain ⟨old, hold, rfl⟩ := List.mem_map.mp huuid
        obtain ⟨row, hrow, rfl⟩ := List.mem_map.mp huuid'
        have hfresh := hguard.2
        unfold RestoreWorld.fresh at hfresh
        grind
    · cases hs
  | finish status d =>
    simp only [RestoreWorld.step] at hs
    split at hs
    · rename_i run hlive
      split at hs <;> cases hs
      obtain ⟨hlast, -⟩ := liveRun_some hlive
      have hmem := List.mem_of_getElem? (getLast?_getElem? hlast)
      refine h.records hlast (continues_ended (h.runs run hmem) status d) ?_
      intro new hhistory
      have hone : new = [⟨run.record.nextSeq, .runEnd, d⟩] := (List.append_cancel_left hhistory).symm
      have hnone : codec.rows new = [] := by
        rw [hone]
        unfold RowCodec.rows
        simp [codec.internal .runEnd (by simp)]
      rw [hnone, List.append_nil]
      exact h.distinct
    · cases hs
  | sweep =>
    simp only [RestoreWorld.step] at hs
    split at hs
    · rename_i run hlast
      split at hs <;> cases hs
      have hi := getLast?_getElem? hlast
      have hmem := List.mem_of_getElem? hi
      have hcont : Continues run { run with retained := false } :=
        ⟨h.runs run hmem, rfl, ⟨[], (List.append_nil _).symm, by rintro _ ⟨⟩⟩, Nat.le_refl _, rfl, rfl⟩
      refine h.continues hi hcont (h.positive run hmem).2 ?_ (.inl fun i hi => Nat.le_sub_one_of_lt hi)
      rw [produced_set hi (show ({ run with retained := false } : SessionRun Data).rows codec = run.rows codec from rfl)]
      exact h.distinct
    · cases hs
  | list =>
    simp only [RestoreWorld.step] at hs
    split at hs <;> cases hs
    exact h.setRestore trivial
  | read =>
    simp only [RestoreWorld.step] at hs
    split at hs
    · rename_i listed hrestore
      split at hs
      · rename_i rows sinceSeq hreconcile
        cases hs
        simp only [Bounded, hrestore] at hbounded
        exact h.setRestore (covers_reconcile h hbounded hreconcile)
      · cases hs
        exact h.setRestore trivial
    · cases hs
  | attach =>
    simp only [RestoreWorld.step] at hs
    split at hs
    · rename_i runId rows sinceSeq hrestore
      simp only [Bounded, hrestore] at hbounded
      obtain ⟨run, hlast, hretained, hid, hgap⟩ := hbounded
      rw [lookup_attachFrame s sinceSeq hlast hretained] at hs
      dsimp only at hs
      rw [getLast?_getElem? hlast] at hs
      obtain ⟨broadcast, hstep, rfl⟩ := Option.map_eq_some_iff.mp hs
      exact h.attach hrestore hlast hid hgap hstep
    · cases hs
  | follow event =>
    simp only [RestoreWorld.step] at hs
    split at hs
    · rename_i i runId rows sinceSeq hrestore
      split at hs
      · rename_i run hrun
        split at hs
        · rename_i hown
          obtain ⟨broadcast, hstep, rfl⟩ := Option.map_eq_some_iff.mp hs
          simp only [Bounded, hrestore] at hbounded
          have hmem := List.mem_of_getElem? hrun
          obtain ⟨hrecord, hhistory, hcursor, hgap⟩ := own_keeps hown hstep
          have hcont : Continues run { run with broadcast := broadcast } := by
            refine ⟨(h.runs run hmem).step (hbounded run hrun) hstep, ?_, ⟨[], ?_, by rintro _ ⟨⟩⟩, ?_, hcursor, hgap⟩
            · exact congrArg RunRecord.runId hrecord
            · exact hhistory.trans (List.append_nil _).symm
            · exact (congrArg RunRecord.nextSeq hrecord).ge
          refine h.continues hrun hcont ?_ ?_ (.inr ⟨runId, rows, sinceSeq, hrestore⟩)
          · dsimp only
            rw [hhistory]
            exact (h.positive run hmem).2
          · rw [produced_set hrun (by unfold SessionRun.rows; dsimp only; rw [hhistory])]
            exact h.distinct
        · cases hs
      · cases hs
    · cases hs

private theorem exactlyOnce_of_inv (h : RestoreInv codec s) : ExactlyOnce codec s := by
  intro hcaught
  have hrestored := h.restored
  unfold CaughtUp at hcaught
  unfold shown
  split at hcaught
  · rename_i i runId rows sinceSeq hrestore
    obtain ⟨run, hrun, hi, hend⟩ := hcaught
    rw [hrestore] at hrestored
    obtain ⟨found, hfound, ⟨-, hcovers⟩, hcursor, hgap⟩ := hrestored
    obtain rfl := Option.some.inj (hrun.symm.trans hfound)
    rw [hrun, Option.map_some, Option.getD_some]
    have hlast : s.runs.getLast? = some run := by
      rw [List.getLast?_eq_getElem?, ← hi, Nat.add_sub_cancel]
      exact hrun
    have hinv := h.runs run (List.mem_of_getElem? hrun)
    -- the follower has sent all that was recorded after the cursor
    have hsent : codec.rows (run.broadcast.followers 0).sent =
        codec.rows (run.broadcast.history.filter fun e => sinceSeq < e.seq) := by
      rw [(hinv.exact 0 hgap).sent]
      unfold Follower.owed
      rw [rows_filter_sends, hcursor]
      congr 1
      apply List.filter_congr
      intro e he
      have hlt : e.seq < run.record.nextSeq := hinv.logs.below e he
      have hle : e.seq ≤ (run.broadcast.followers 0).sentThrough := by omega
      simp [hle]
    rw [hsent, earlierRows_last hlast]
    have hindex : s.runs.length - 1 = i := by omega
    rw [hindex]
    refine (hcovers.append_right _).trans ?_
    rw [List.append_assoc]
    exact (rows_split codec run.broadcast.history sinceSeq).append_left _
  · rename_i rows hrestore
    rw [hrestore] at hrestored
    exact hrestored.elim
  · exact hcaught.elim
  · exact hcaught.elim
  · exact hcaught.elim

theorem cursorOwn_of_bounded {event : RestoreEvent Data} (hbounded : Bounded codec s event) : CursorOwn s event := by
  rintro runId rows sinceSeq rfl hrestore - i hi run hrun
  simp only [Bounded, hrestore] at hbounded
  obtain ⟨last, hlast, hretained, hid, -⟩ := hbounded
  have hfound := lookup_attachFrame s sinceSeq hlast hretained
  grind

end Moves

def newSession (sessionId : String) : RestoreWorld Data := { sessionId := sessionId }

private theorem restoreInv_newSession (sessionId : String) : RestoreInv codec (newSession sessionId) := by
  refine ⟨?_, ?_, List.nodup_nil, List.nodup_nil, trivial⟩
  · rintro run ⟨⟩
  · rintro run ⟨⟩

/-- Along every bounded run, a client that has caught up has every complete message of the session once, and
a cursor is used for the run for which it was captured. -/
theorem exactlyOnce_of_bounded {sessionId : String} {events : List (RestoreEvent Data)} {s' : RestoreWorld Data}
    (hbounded : RunMeets (RestoreWorld.step codec) (Bounded codec) (newSession sessionId) events)
    (hrun : run (RestoreWorld.step codec) (newSession sessionId) events = some s') :
    ExactlyOnce codec s' ∧ RunMeets (RestoreWorld.step codec) CursorOwn (newSession sessionId) events := by
  have hstep (s : RestoreWorld Data) (event : RestoreEvent Data) (next : RestoreWorld Data) (hi : RestoreInv codec s)
      (hc : Bounded codec s event) (hs : s.step codec event = some next) : RestoreInv codec next := restore_step hi hc hs
  have hinit := restoreInv_newSession codec sessionId
  exact ⟨exactlyOnce_of_inv (run_invariant hstep hinit hbounded hrun),
    runMeets_of_invariant hstep (fun _ _ _ hc => cursorOwn_of_bounded hc) hinit hbounded⟩

/-- Payloads by their row and the size of the rest. -/
def plainCodec : RowCodec (Option Row × Nat) where
  eventSize t d := 20 + t.name.utf8ByteSize + d.2
  approximateSize _ t d := 20 + t.name.utf8ByteSize + d.2
  uuid d := d.1.map Row.uuid
  emptyObject := (none, 0)
  row t d := if t ∈ [EventType.keepalive, .permissionRequest, .runEnd, .subscriberOverflow] then none else d.1
  internal _ ht _ := if_pos ht

abbrev PlainEvent : Type := RestoreEvent (Option Row × Nat)

def writes (eventType : EventType) (uuid : String) : PlainEvent := .record eventType (some { uuid := uuid }, 0)

def endedRun (runId uuid : String) : List PlainEvent :=
  [.start runId 1, writes .userMessage uuid, .finish .completed (none, 0)]

/-- The attach and its replay of some events, up to the live events. -/
def replays (n : Nat) : List PlainEvent :=
  .attach :: .follow (.attachOkSent 0 []) :: List.replicate (n + 1) (.follow (.replayNext 0)) ++
    [.follow (.restoreNext 0)]

def refreshedPage : List PlainEvent :=
  endedRun "p" "a" ++ [.start "r" 2, writes .userMessage "b", writes (.other "assistant") "c", .list,
    writes (.other "assistant") "d", .read] ++ replays 3 ++ [writes (.other "assistant") "e", .follow (.followNext 0)]

theorem exactlyOnce_refreshedPage :
    RunMeets (RestoreWorld.step plainCodec) (Bounded plainCodec) (newSession "s") refreshedPage ∧
      ∃ s', run (RestoreWorld.step plainCodec) (newSession "s") refreshedPage = some s' ∧ CaughtUp s' ∧
        ExactlyOnce plainCodec s' ∧
        RunMeets (RestoreWorld.step plainCodec) CursorOwn (newSession "s") refreshedPage := by
  have hbounded : RunMeets (RestoreWorld.step plainCodec) (Bounded plainCodec) (newSession "s") refreshedPage := by
    decide
  obtain ⟨s', hrun, hcaught⟩ := exists_run_of_map (RestoreWorld.step plainCodec) (newSession "s") refreshedPage
    (fun s => decide (CaughtUp s)) (by decide)
  exact ⟨hbounded, s', hrun, of_decide_eq_true hcaught, exactlyOnce_of_bounded plainCodec hbounded hrun⟩

def listedEarly : List PlainEvent :=
  [.start "r" 1, .list, writes .userMessage "a", .read] ++ replays 1

def subagentRow : List PlainEvent :=
  [.start "p" 1, writes .userMessage "a", .record (.other "assistant") (some { uuid := "b", parentToolUseId := some "t" }, 0),
    .finish .completed (none, 0), .start "r" 2, writes .userMessage "c", .list, .read] ++ replays 1

/-- The run that was listed ends, and another one has begun when the attach comes in; the buffer of the first
one has been trimmed. -/
def overtakenRun : List PlainEvent :=
  [.start "r" 1, writes .userMessage "a", .record (.other "assistant") (some { uuid := "b" }, maxBufferedBytes), .list,
    .read, .finish .completed (none, 0), .start "q" 2, writes .userMessage "c"]

theorem refresh_not_exactlyOnce :
    (∃ s', run (RestoreWorld.step plainCodec) (newSession "s") listedEarly = some s' ∧ ¬ ExactlyOnce plainCodec s') ∧
      (∃ s', run (RestoreWorld.step plainCodec) (newSession "s") subagentRow = some s' ∧ ¬ ExactlyOnce plainCodec s') ∧
      ∃ s', run (RestoreWorld.step plainCodec) (newSession "s") overtakenRun = some s' ∧ ¬ CursorOwn s' .attach := by
  have hfails (events : List PlainEvent)
      (htest : (run (RestoreWorld.step plainCodec) (newSession "s") events).map
        (fun s => decide (CaughtUp s ∧ ¬ (shown plainCodec s).Perm (s.produced plainCodec))) = some true) :
      ∃ s', run (RestoreWorld.step plainCodec) (newSession "s") events = some s' ∧ ¬ ExactlyOnce plainCodec s' := by
    obtain ⟨s', hrun, htest⟩ := exists_run_of_map (RestoreWorld.step plainCodec) (newSession "s") events _ htest
    obtain ⟨hcaught, hnot⟩ := of_decide_eq_true htest
    exact ⟨s', hrun, fun honce => hnot (honce hcaught)⟩
  refine ⟨hfails listedEarly (by decide), hfails subagentRow (by decide), ?_⟩
  obtain ⟨s', hrun, htest⟩ := exists_run_of_map (RestoreWorld.step plainCodec) (newSession "s") overtakenRun
    (fun s => decide (s.restore = .hydrated "r" [{ uuid := "a" }, { uuid := "b" }] 2 ∧
      s.lookup (s.attachFrame 2) = some 1 ∧ s.runs[1]?.map (·.record.runId) = some "q")) (by decide)
  obtain ⟨hrestore, hlookup, hid⟩ := of_decide_eq_true htest
  refine ⟨s', hrun, ?_⟩
  intro hown
  obtain ⟨other, hother, hq⟩ := Option.map_eq_some_iff.mp hid
  have hsame := hown "r" _ 2 rfl hrestore (by decide) 1 hlookup other hother
  rw [hq] at hsame
  exact absurd hsame (by decide)

end PrivaCloud.Web
