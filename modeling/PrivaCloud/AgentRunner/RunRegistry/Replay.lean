import PrivaCloud.AgentRunner.RunRegistry.Follow

/-!
# What a follower receives

The buffer of a record is the tail of its history from `first_seq` on, and a follower sends increasing
sequence numbers. If `attach_ok` reported no gap and no needed event was trimmed meanwhile, it sends exactly
the recorded events after its cursor, except the permission requests of the snapshot and the run-end marker.
-/

namespace PrivaCloud.AgentRunner

open Framework

variable {Data : Type}

structure RunRecord.Logs (r : RunRecord Data) (history : List (RunEvent Data)) : Prop where
  keyed : Keyed RunEvent.seq history
  below : ∀ e ∈ history, e.seq < r.nextSeq
  first : r.firstSeq ≤ r.nextSeq
  tail : r.events = history.filter (fun e => r.firstSeq ≤ e.seq)

private theorem RunRecord.Logs.init (runId : String) : RunRecord.Logs ({ runId := runId } : RunRecord Data) [] :=
  ⟨List.Pairwise.nil, by simp, le_refl _, rfl⟩

theorem RunRecord.recordEvent_nextSeq (codec : Codec Data) (r : RunRecord Data) {t : EventType}
    (ht : t ≠ .keepalive) (d : Data) :
    (r.recordEvent codec t d).nextSeq = r.nextSeq + 1 := by
  rw [recordEvent, if_neg ht]

/-- The buffer after `record_event` is what the trim loop leaves, and `first_seq` is the number of
its first event, or `next_seq` if nothing is left. -/
theorem RunRecord.recordEvent_trim (codec : Codec Data) (r : RunRecord Data) {t : EventType}
    (ht : t ≠ .keepalive) (d : Data) :
    ∃ n, (r.recordEvent codec t d).events = List.drop n (r.events ++ [⟨r.nextSeq, t, d⟩]) ∧
      (n = 0 ∧ (r.recordEvent codec t d).firstSeq = r.firstSeq ∨
        (∃ e rest, (r.recordEvent codec t d).events = e :: rest ∧ (r.recordEvent codec t d).firstSeq = e.seq) ∨
        (r.recordEvent codec t d).events = [] ∧ (r.recordEvent codec t d).firstSeq = r.nextSeq + 1) := by
  rw [recordEvent, if_neg ht]
  refine ⟨_, rfl, ?_⟩
  dsimp only
  split
  · exact .inl ⟨‹_›, rfl⟩
  · right
    cases hd : (r.events ++ [(⟨r.nextSeq, t, d⟩ : RunEvent Data)]).drop
        (trim (r.events ++ [(⟨r.nextSeq, t, d⟩ : RunEvent Data)]).length
          (r.eventBytes + codec.eventSize t d) (r.eventSizes ++ [codec.eventSize t d])) with
    | nil => exact .inr ⟨rfl, rfl⟩
    | cons e rest => exact .inl ⟨e, rest, rfl, rfl⟩

variable {r : RunRecord Data} {history : List (RunEvent Data)} {f : Follower Data}

private theorem RunRecord.Logs.recordEvent
    (h : r.Logs history) (codec : Codec Data) {t : EventType} (ht : t ≠ .keepalive) (d : Data) :
    (r.recordEvent codec t d).Logs (history ++ [⟨r.nextSeq, t, d⟩]) := by
  obtain ⟨n, hevents, hcase⟩ := r.recordEvent_trim codec ht d
  have hnext := r.recordEvent_nextSeq codec ht d
  have hkeyed : Keyed RunEvent.seq (history ++ [⟨r.nextSeq, t, d⟩]) :=
    h.keyed.append_singleton h.below
  have hbelow : ∀ x ∈ history ++ [(⟨r.nextSeq, t, d⟩ : RunEvent Data)], x.seq < r.nextSeq + 1 := by
    intro x hx
    rcases List.mem_append.mp hx with hx | hx
    · have := h.below x hx
      omega
    · rw [List.mem_singleton.mp hx]
      exact Nat.lt_succ_self _
  have hfull : r.events ++ [⟨r.nextSeq, t, d⟩] =
      List.filter (fun x => r.firstSeq ≤ x.seq) (history ++ [⟨r.nextSeq, t, d⟩]) := by
    rw [h.tail, List.filter_append, List.filter_cons_of_pos (by simpa using h.first)]
    rfl
  rcases hcase with ⟨rfl, hfirst⟩ | ⟨e, rest, hcons, hfirst⟩ | ⟨hnil, hfirst⟩
  · refine ⟨hkeyed, by rwa [hnext], ?_, ?_⟩
    · have := h.first
      omega
    · rw [hevents, List.drop_zero, hfull, hfirst]
  · have hk : Keyed RunEvent.seq (r.events ++ [⟨r.nextSeq, t, d⟩]) := hfull ▸ hkeyed.filter _
    have hm : e ∈ r.events ++ [⟨r.nextSeq, t, d⟩] :=
      List.mem_of_mem_drop (by rw [← hevents, hcons]; simp)
    rw [hfull] at hm
    obtain ⟨hmem, hle⟩ := List.mem_filter.mp hm
    have hle : r.firstSeq ≤ e.seq := by simpa using hle
    refine ⟨hkeyed, by rwa [hnext], ?_, ?_⟩
    · have := hbelow e hmem
      omega
    · rw [hevents, hk.drop_eq_filter (hevents ▸ hcons), hfull, List.filter_filter, hfirst]
      apply List.filter_congr
      intro x _
      by_cases hx : e.seq ≤ x.seq
      · have : r.firstSeq ≤ x.seq := by omega
        simp [hx, this]
      · simp [hx]
  · refine ⟨hkeyed, by rwa [hnext], by omega, ?_⟩
    rw [hnil, hfirst, eq_comm, List.filter_eq_nil_iff]
    intro x hx
    have := hbelow x hx
    simp; omega

private theorem RunRecord.Logs.replaySince
    (h : r.Logs history) {sinceSeq : Nat} (hg : r.hasReplayGap sinceSeq = false) :
    r.replaySince sinceSeq = history.filter (fun e => sinceSeq < e.seq) := by
  have hle : r.firstSeq ≤ sinceSeq + 1 := by simpa [hasReplayGap] using hg
  rw [RunRecord.replaySince, h.tail, List.filter_filter]
  apply List.filter_congr
  intro e _
  by_cases he : sinceSeq < e.seq
  · have : r.firstSeq ≤ e.seq := by omega
    simp [he, this]
  · simp [he]

namespace Follower

structure Increasing (f : Follower Data) : Prop where
  keyed : Keyed RunEvent.seq f.sent
  through : ∀ e ∈ f.sent, e.seq ≤ f.sentThrough
  cursor : f.state = .attaching → f.sentThrough = f.sinceSeq
  rest : ∀ rest out, f.state = .replaying rest out → Keyed RunEvent.seq rest ∧ ∀ e ∈ rest, f.sentThrough < e.seq

private theorem Increasing.offer (h : Increasing f) (codec : Codec Data)
    (e : RunEvent Data) : Increasing (f.offer codec e) := by
  unfold Follower.offer
  split
  · split
    · exact ⟨h.keyed, h.through, h.cursor, h.rest⟩
    · exact ⟨h.keyed, h.through, h.cursor, h.rest⟩
  · exact h

private theorem Increasing.finish (h : Increasing f) : Increasing f.finish :=
  ⟨h.keyed, h.through, nofun, nofun⟩

variable {e : RunEvent Data}

private theorem Increasing.send (h : Increasing f) (he : f.sentThrough < e.seq) :
    Keyed RunEvent.seq (f.sent ++ [e]) ∧ ∀ x ∈ f.sent ++ [e], x.seq ≤ e.seq := by
  have hlt : ∀ x ∈ f.sent, x.seq < e.seq := fun x hx => (h.through x hx).trans_lt he
  refine ⟨h.keyed.append_singleton hlt, ?_⟩
  intro x hx
  rcases List.mem_append.mp hx with hx | hx
  · exact (hlt x hx).le
  · rw [List.mem_singleton.mp hx]

private theorem Increasing.advance (h : Increasing f)
    (he : f.sentThrough < e.seq) : ∀ x ∈ f.sent, x.seq ≤ e.seq :=
  fun x hx => ((h.through x hx).trans_lt he).le

variable {out : List Data}

private theorem Increasing.replay (h : Increasing f)
    {rest : List (RunEvent Data)} (hs : f.state = .replaying (e :: rest) out) :
    Increasing (f.replay e rest out) := by
  obtain ⟨hk, hgt⟩ := h.rest _ _ hs
  have he : f.sentThrough < e.seq := hgt e (by simp)
  have hstate : ∀ r o, FollowerState.replaying rest out = .replaying r o →
      Keyed RunEvent.seq r ∧ ∀ x ∈ r, e.seq < x.seq := by
    intro r o hro
    cases hro
    exact ⟨(List.pairwise_cons.mp hk).2, fun x hx => hk.head_lt hx⟩
  simp only [Follower.replay]
  split
  · exact ⟨h.keyed, h.advance he, nofun, nofun⟩
  · split
    · exact ⟨h.keyed, h.advance he, nofun, hstate⟩
    · exact ⟨(h.send he).1, (h.send he).2, nofun, hstate⟩

private theorem Increasing.follow (h : Increasing f) (hs : f.state = .following)
    (e : RunEvent Data) (q : BoundedAsyncQueue (RunEvent Data)) : Increasing (f.follow e q) := by
  have hcursor : ∀ n : Nat, f.state = .attaching → n = f.sinceSeq := by
    intro n ha
    rw [hs] at ha
    cases ha
  have hstate : ∀ n : Nat, ∀ r o, f.state = .replaying r o → Keyed RunEvent.seq r ∧ ∀ x ∈ r, n < x.seq := by
    intro n r o hro
    rw [hs] at hro
    cases hro
  simp only [Follower.follow]
  split
  · exact ⟨h.keyed, h.through, nofun, nofun⟩
  · split
    · exact ⟨h.keyed, h.through, h.cursor, h.rest⟩
    · rename_i hle
      have he : f.sentThrough < e.seq := by omega
      split
      · exact ⟨h.keyed, h.advance he, nofun, nofun⟩
      · exact ⟨(h.send he).1, (h.send he).2, hcursor _, hstate _⟩

private theorem Increasing.snapshot (h : Increasing f) (hl : r.Logs history) (out : List Data)
    (hc : f.sentThrough = f.sinceSeq) : Increasing (f.snapshot r out) := by
  refine ⟨h.keyed, h.through, nofun, ?_⟩
  intro rest o hro
  cases hro
  have hk : Keyed RunEvent.seq r.events := hl.tail ▸ hl.keyed.filter _
  refine ⟨hk.filter _, ?_⟩
  intro e he
  have hgt : f.sinceSeq < e.seq := by simpa using (List.mem_filter.mp he).2
  show f.sentThrough < e.seq
  omega

private theorem Increasing.attach
    (hl : r.Logs history) (sinceSeq : Nat) (sendAttachOk : Bool) (out : List Data) :
    Increasing (Follower.attach r sinceSeq sendAttachOk out) := by
  unfold Follower.attach
  split
  · exact ⟨List.Pairwise.nil, by simp, fun _ => rfl, nofun⟩
  · refine Increasing.snapshot ?_ hl out rfl
    exact ⟨List.Pairwise.nil, by simp, nofun, nofun⟩

/-- An event that a follower sends: not the run-end marker, and not a permission request that was
already there when the snapshot was taken. -/
def sends (f : Follower Data) (e : RunEvent Data) : Bool :=
  e.eventType ≠ .runEnd && !(e.eventType = .permissionRequest && e.seq < f.snapshotNext)

/-- What the follower owes its client up to a sequence number. -/
def owed (f : Follower Data) (history : List (RunEvent Data)) (upTo : Nat) : List (RunEvent Data) :=
  history.filter (fun e => f.sinceSeq < e.seq && e.seq ≤ upTo && f.sends e)

/-- Where the events after `sentThrough` are still to come from. -/
def Source (r : RunRecord Data) (history : List (RunEvent Data)) (f : Follower Data) : Prop :=
  match f.state with
  | .detached | .ended => True
  | .attaching => f.sentThrough = f.sinceSeq ∧ ∃ n ≤ r.nextSeq,
      f.subscribed → f.queue.contents = history.filter (fun e => n ≤ e.seq)
  | .replaying rest _ => f.snapshotNext ≤ r.nextSeq ∧
      rest = (history.filter (fun e => e.seq < f.snapshotNext)).filter
        (fun e => f.sentThrough < e.seq) ∧ ∃ n ≤ f.snapshotNext,
      f.subscribed → f.queue.contents = history.filter (fun e => n ≤ e.seq)
  | .restoring _ | .following => f.snapshotNext ≤ r.nextSeq ∧
      (∀ e ∈ history, f.sentThrough < e.seq → f.snapshotNext ≤ e.seq) ∧
      (f.subscribed → f.queue.contents.filter (fun e => f.sentThrough < e.seq) =
        history.filter (fun e => f.sentThrough < e.seq))

structure Exact (r : RunRecord Data) (history : List (RunEvent Data)) (f : Follower Data) :
    Prop where
  cursor : f.sentThrough = f.sinceSeq ∨ f.sinceSeq ≤ f.sentThrough ∧ f.sentThrough < r.nextSeq
  sent : f.sent = f.owed history f.sentThrough
  marker : f.state ≠ .ended → f.subscribed = false → ∀ e ∈ f.queue.contents, e.eventType = .subscriberOverflow
  source : Source r history f

private theorem owed_self (f : Follower Data) (history : List (RunEvent Data)) : f.owed history f.sinceSeq = [] := by
  rw [owed, List.filter_eq_nil_iff]
  intro e _
  simp only [Bool.and_eq_true, decide_eq_true_eq]
  omega

private theorem owed_append (f : Follower Data) (history : List (RunEvent Data)) {e : RunEvent Data}
    {upTo : Nat} (h : upTo = f.sinceSeq ∨ upTo < e.seq) :
    f.owed (history ++ [e]) upTo = f.owed history upTo := by
  rw [owed, List.filter_append, List.filter_cons_of_neg]
  · simp [owed]
  · simp only [Bool.and_eq_true, decide_eq_true_eq]
    omega

private theorem owed_advance
    {a : Nat} (hk : Keyed RunEvent.seq history) (hs : f.sinceSeq ≤ a) (ha : a < e.seq)
    (hw : history.filter (fun x => a < x.seq && x.seq ≤ e.seq) = [e]) :
    f.owed history e.seq = f.owed history a ++ if f.sends e then [e] else [] := by
  rw [owed, ← hk.filter_join f.sends hs ha.le]
  congr 1
  have hcut : history.filter (fun x => a < x.seq && x.seq ≤ e.seq && f.sends x) =
      (history.filter (fun x => a < x.seq && x.seq ≤ e.seq)).filter f.sends := by
    rw [List.filter_filter]
    apply List.filter_congr
    intro x _
    exact Bool.and_comm _ _
  rw [hcut, hw]
  cases hse : f.sends e <;> simp [hse]

private theorem Exact.since_le (h : Exact r history f) : f.sinceSeq ≤ f.sentThrough := by
  rcases h.cursor with hc | hc
  · exact hc.ge
  · exact hc.1

private theorem Exact.pass (h : Exact r history f) (hl : r.Logs history) (hgt : f.sentThrough < e.seq)
    (hw : history.filter (fun x => f.sentThrough < x.seq && x.seq ≤ e.seq) = [e]) :
    (f.sends e = false → f.sent = f.owed history e.seq) ∧
      (f.sends e = true → f.sent ++ [e] = f.owed history e.seq) := by
  have howed := owed_advance hl.keyed h.since_le hgt hw
  constructor
  · intro hno
    rw [howed, h.sent, hno]
    simp
  · intro hyes
    rw [howed, h.sent, hyes]
    simp

private theorem Exact.finish (h : Exact r history f) : Exact r history f.finish :=
  ⟨h.cursor, h.sent, fun hne => absurd rfl hne, trivial⟩

section Offer

variable (codec : Codec Data) (e : RunEvent Data) (f : Follower Data)

@[simp] theorem offer_state : (f.offer codec e).state = f.state := by
  unfold offer; split <;> [split <;> rfl; rfl]
@[simp] theorem offer_sinceSeq : (f.offer codec e).sinceSeq = f.sinceSeq := by
  unfold offer; split <;> [split <;> rfl; rfl]
@[simp] theorem offer_sentThrough : (f.offer codec e).sentThrough = f.sentThrough := by
  unfold offer; split <;> [split <;> rfl; rfl]
@[simp] theorem offer_sent : (f.offer codec e).sent = f.sent := by
  unfold offer; split <;> [split <;> rfl; rfl]
@[simp] theorem offer_snapshotNext : (f.offer codec e).snapshotNext = f.snapshotNext := by
  unfold offer; split <;> [split <;> rfl; rfl]
@[simp] theorem offer_replayGap : (f.offer codec e).replayGap = f.replayGap := by
  unfold offer; split <;> [split <;> rfl; rfl]

@[simp] theorem offer_owed (history : List (RunEvent Data)) (upTo : Nat) :
    (f.offer codec e).owed history upTo = f.owed history upTo := by
  simp [owed, sends]

variable {codec e f}

private theorem offer_subscribed (h : (f.offer codec e).subscribed) :
    f.subscribed ∧ (f.offer codec e).queue.contents = f.queue.contents ++ [e] := by
  unfold offer at h ⊢
  split at h
  · rename_i hsub
    split at h
    · rename_i q hq
      refine ⟨hsub, ?_⟩
      rw [if_pos hsub]
      exact BoundedAsyncQueue.contents_putNowait hq
    · cases h
  · rename_i hsub
    exact absurd h hsub

private theorem offer_marker (hm : f.subscribed = false → ∀ x ∈ f.queue.contents, x.eventType = .subscriberOverflow)
    (h : (f.offer codec e).subscribed = false) :
    ∀ x ∈ (f.offer codec e).queue.contents, x.eventType = .subscriberOverflow := by
  unfold offer at h ⊢
  split at h
  · rename_i hsub
    split at h
    · exact absurd (hsub.symm.trans h) (by simp)
    · rw [if_pos hsub]
      simp
  · rename_i hsub
    rw [if_neg hsub]
    exact hm h

end Offer

private theorem Source.offer {r' : RunRecord Data}
    (h : Source r history f) (codec : Codec Data) (he : e.seq = r.nextSeq)
    (hn : r'.nextSeq = r.nextSeq + 1) : Source r' (history ++ [e]) (f.offer codec e) := by
  have htail : ∀ n ≤ r.nextSeq, (history ++ [e]).filter (fun x => n ≤ x.seq) =
      history.filter (fun x => n ≤ x.seq) ++ [e] := by
    intro n hle
    rw [List.filter_append, List.filter_cons_of_pos (by simp; omega)]
    rfl
  unfold Source at h ⊢
  simp only [offer_state, offer_sinceSeq, offer_sentThrough, offer_snapshotNext]
  split
  · trivial
  · trivial
  · rename_i hs
    rw [hs] at h
    obtain ⟨hc, n, hle, hq⟩ := h
    refine ⟨hc, n, by omega, ?_⟩
    intro hsub
    obtain ⟨hsub, hcont⟩ := offer_subscribed hsub
    rw [hcont, hq hsub, htail n hle]
  · rename_i rest out hs
    rw [hs] at h
    obtain ⟨hsnap, hrest, n, hle, hq⟩ := h
    refine ⟨by omega, ?_, n, hle, ?_⟩
    · rw [hrest, List.filter_append, List.filter_cons_of_neg (by simp; omega)]
      simp
    · intro hsub
      obtain ⟨hsub, hcont⟩ := offer_subscribed hsub
      rw [hcont, hq hsub, htail n (by omega)]
  all_goals
    rename_i hs
    rw [hs] at h
    obtain ⟨hsnap, hall, hq⟩ := h
    refine ⟨by omega, ?_, ?_⟩
    · intro x hx hlt
      rcases List.mem_append.mp hx with hx | hx
      · exact hall x hx hlt
      · rw [List.mem_singleton.mp hx]
        omega
    · intro hsub
      obtain ⟨hsub, hcont⟩ := offer_subscribed hsub
      rw [hcont, List.filter_append, List.filter_append, hq hsub]

private theorem Exact.offer {r' : RunRecord Data}
    (h : Exact r history f) (codec : Codec Data) (he : e.seq = r.nextSeq)
    (hn : r'.nextSeq = r.nextSeq + 1) : Exact r' (history ++ [e]) (f.offer codec e) := by
  refine ⟨?_, ?_, ?_, h.source.offer codec he hn⟩
  · have := h.cursor
    simp only [offer_sentThrough, offer_sinceSeq]
    omega
  · rw [offer_sent, offer_owed, offer_sentThrough, owed_append, h.sent]
    have := h.cursor
    omega
  · intro hne
    rw [offer_state] at hne
    exact offer_marker (h.marker hne)

theorem replay_replayGap (f : Follower Data) (e : RunEvent Data) (rest : List (RunEvent Data))
    (out : List Data) : (f.replay e rest out).replayGap = f.replayGap := by
  simp only [Follower.replay]
  split <;> [rfl; split <;> rfl]

theorem follow_replayGap (f : Follower Data) (e : RunEvent Data)
    (q : BoundedAsyncQueue (RunEvent Data)) : (f.follow e q).replayGap = f.replayGap := by
  simp only [Follower.follow]
  split <;> [rfl; split <;> [rfl; split <;> rfl]]

private theorem Exact.attach (hl : r.Logs history)
    (sinceSeq : Nat) (out : List Data) : Exact r history (.attach r sinceSeq true out) := by
  refine ⟨.inl rfl, (owed_self _ history).symm, nofun, rfl, r.nextSeq, le_refl _, fun _ => ?_⟩
  symm
  show history.filter _ = []
  rw [List.filter_eq_nil_iff]
  intro e he
  have := hl.below e he
  simp; omega

private theorem Exact.snapshot (h : Exact r history f) (hl : r.Logs history) (hs : f.state = .attaching)
    (hg : r.hasReplayGap f.sinceSeq = false) (out : List Data) :
    Exact r history (f.snapshot r out) := by
  have hsource := h.source
  rw [Source, hs] at hsource
  obtain ⟨hc, n, hle, hq⟩ := hsource
  have hsent : f.sent = [] := by rw [h.sent, hc, owed_self]
  refine ⟨.inl hc, ?_, fun _ => h.marker (by rw [hs]; nofun), le_refl _, ?_, n, hle, hq⟩
  · show f.sent = (f.snapshot r out).owed history f.sentThrough
    rw [hsent, hc]
    exact (owed_self (f.snapshot r out) history).symm
  · show r.replaySince f.sinceSeq = _
    rw [hl.replaySince hg, List.filter_filter]
    apply List.filter_congr
    intro e he
    have : e.seq < (f.snapshot r out).snapshotNext := hl.below e he
    rw [decide_eq_true this, Bool.and_true, show (f.snapshot r out).sentThrough = f.sinceSeq from hc]

private theorem Exact.replay (h : Exact r history f) (hl : r.Logs history)
    {rest : List (RunEvent Data)} (hs : f.state = .replaying (e :: rest) out) :
    Exact r history (f.replay e rest out) := by
  have hsource := h.source
  rw [Source, hs] at hsource
  obtain ⟨hsnap, hrest, n, hle, hq⟩ := hsource
  have hm : e ∈ (history.filter (fun e => e.seq < f.snapshotNext)).filter
      (fun e => f.sentThrough < e.seq) := by rw [← hrest]; simp
  obtain ⟨hmem, hgt⟩ := List.mem_filter.mp hm
  have hgt : f.sentThrough < e.seq := by simpa using hgt
  have hlt : e.seq < f.snapshotNext := by simpa using (List.mem_filter.mp hmem).2
  obtain ⟨hone, htail⟩ := (hl.keyed.filter _).filter_gt_cons hrest.symm
  have hwindow : history.filter (fun x => f.sentThrough < x.seq && x.seq ≤ e.seq) = [e] := by
    rw [← hone, List.filter_filter]
    apply List.filter_congr
    intro x _
    by_cases hx : x.seq ≤ e.seq
    · have : x.seq < f.snapshotNext := by omega
      simp [hx, this]
    · simp [hx]
  obtain ⟨hskip, hsend⟩ := h.pass hl hgt hwindow
  have hcursor : e.seq = f.sinceSeq ∨ f.sinceSeq ≤ e.seq ∧ e.seq < r.nextSeq := by
    have := h.since_le
    omega
  have hmarker : f.subscribed = false → ∀ x ∈ f.queue.contents, x.eventType = .subscriberOverflow :=
    h.marker (by rw [hs]; nofun)
  simp only [Follower.replay]
  split
  · rename_i hend
    have hno : f.sends e = false := by simp [sends, hend]
    exact Exact.finish ⟨hcursor, hskip hno, fun _ => hmarker, hsnap, htail.symm, n, hle, hq⟩
  · rename_i hend
    split
    · rename_i hperm
      have hno : f.sends e = false := by simp [sends, hperm, hlt]
      exact ⟨hcursor, hskip hno, fun _ => hmarker, hsnap, htail.symm, n, hle, hq⟩
    · rename_i hperm
      have hyes : f.sends e = true := by simp [sends, hend, hperm]
      exact ⟨hcursor, hsend hyes, fun _ => hmarker, hsnap, htail.symm, n, hle, hq⟩

/-- The snapshot is used up: what is newer than the cursor is newer than the snapshot. -/
theorem Exact.replayed (h : Exact r history f) (hs : f.state = .replaying [] out) :
    Exact r history { f with state := .restoring out } := by
  have hsource := h.source
  rw [Source, hs] at hsource
  obtain ⟨hsnap, hrest, n, hle, hq⟩ := hsource
  have hall : ∀ e ∈ history, f.sentThrough < e.seq → f.snapshotNext ≤ e.seq := by
    intro e he hgt
    by_contra hlt
    have hm : e ∈ (history.filter (fun e => e.seq < f.snapshotNext)).filter
        (fun e => f.sentThrough < e.seq) := by
      rw [List.filter_filter, List.mem_filter]
      refine ⟨he, ?_⟩
      simp; omega
    rw [← hrest] at hm
    cases hm
  refine ⟨h.cursor, h.sent, fun _ => h.marker (by rw [hs]; nofun), hsnap, hall, ?_⟩
  intro hsub
  show List.filter _ f.queue.contents = _
  rw [hq hsub, List.filter_filter]
  apply List.filter_congr
  intro e he
  by_cases hgt : f.sentThrough < e.seq
  · have := hall e he hgt
    have : n ≤ e.seq := by omega
    simp [hgt, this]
  · simp [hgt]

private theorem Exact.restore
    (h : Exact r history f) (hs : f.state = .restoring out) (st : FollowerState Data)
    (hst : st = .following ∨ ∃ rest, st = .restoring rest) :
    Exact r history { f with state := st } := by
  have hsource := h.source
  rw [Source, hs] at hsource
  have hmarker := h.marker (by rw [hs]; nofun)
  rcases hst with rfl | ⟨rest, rfl⟩
  · exact ⟨h.cursor, h.sent, fun _ => hmarker, hsource⟩
  · exact ⟨h.cursor, h.sent, fun _ => hmarker, hsource⟩

private theorem Exact.follow (h : Exact r history f) (hl : r.Logs history) (hs : f.state = .following)
    {q : BoundedAsyncQueue (RunEvent Data)} (hget : f.queue.getNowait = some (e, q)) :
    Exact r history (f.follow e q) := by
  have hsource := h.source
  rw [Source, hs] at hsource
  obtain ⟨hsnap, hall, hq⟩ := hsource
  have hcontents := BoundedAsyncQueue.contents_getNowait hget
  have hmarker := h.marker (by rw [hs]; nofun)
  rw [hcontents] at hmarker hq
  have hmarker' : f.subscribed = false → ∀ x ∈ q.contents, x.eventType = .subscriberOverflow :=
    fun hsub x hx => hmarker hsub x (List.mem_cons_of_mem e hx)
  simp only [Follower.follow]
  split
  · exact ⟨h.cursor, h.sent, fun hne => absurd rfl hne, trivial⟩
  · rename_i hover
    split
    · rename_i hle
      refine ⟨h.cursor, h.sent, fun _ => hmarker', ?_⟩
      rw [Source]
      simp only [hs]
      refine ⟨hsnap, hall, fun hsub => ?_⟩
      rw [← hq hsub, List.filter_cons_of_neg (by simpa using hle)]
    · rename_i hle
      have hgt : f.sentThrough < e.seq := by omega
      have hsub : f.subscribed := by
        by_contra hsub
        exact hover (hmarker (by simpa using hsub) e (by simp))
      have hqueue := hq hsub
      rw [List.filter_cons_of_pos (by simpa using hgt)] at hqueue
      obtain ⟨hwindow, htail⟩ := hl.keyed.filter_gt_cons hqueue.symm
      have hmem : e ∈ history := by
        have hm : e ∈ history.filter (fun x => f.sentThrough < x.seq) := by rw [← hqueue]; simp
        exact (List.mem_filter.mp hm).1
      obtain ⟨hskip, hsend⟩ := h.pass hl hgt hwindow
      have hcursor : e.seq = f.sinceSeq ∨ f.sinceSeq ≤ e.seq ∧ e.seq < r.nextSeq := by
        have := h.since_le
        have := hl.below e hmem
        omega
      split
      · rename_i hend
        have hno : f.sends e = false := by simp [sends, hend]
        exact ⟨hcursor, hskip hno, fun hne => absurd rfl hne, trivial⟩
      · rename_i hend
        have hyes : f.sends e = true := by
          have := hall e hmem hgt
          simp [sends, hend, this]
        refine ⟨hcursor, hsend hyes, fun _ => hmarker', ?_⟩
        rw [Source]
        simp only [hs]
        refine ⟨hsnap, fun x hx hlt => hall x hx (by omega), fun _ => ?_⟩
        -- the queue after the old cursor is already the history after the new one
        have hcut : q.contents.filter (fun x => e.seq < x.seq) =
            (q.contents.filter (fun x => f.sentThrough < x.seq)).filter
              (fun x => e.seq < x.seq) := by
          rw [List.filter_filter]
          apply List.filter_congr
          intro x _
          by_cases hx : e.seq < x.seq
          · have : f.sentThrough < x.seq := by omega
            simp [hx, this]
          · simp [hx]
        rw [hcut, ← htail, List.filter_filter]
        simp

/-- The number of the last sequenced event on the socket, or the cursor it attached with. -/
def lastSent (f : Follower Data) : Nat :=
  match f.sent.getLast? with
  | some e => e.seq
  | none => f.sinceSeq

/-- The sequenced events on the socket increase strictly, and unless a gap was announced they are
the recorded events after the cursor, up to the last one sent. -/
def ReplaySound (history : List (RunEvent Data)) (f : Follower Data) : Prop :=
  Keyed RunEvent.seq f.sent ∧ (f.replayGap = some false → f.sent = f.owed history f.lastSent)

private theorem Exact.sent_eq_owed (h : Exact r history f) (hi : Increasing f) :
    f.sent = f.owed history f.lastSent := by
  unfold lastSent
  cases hlast : f.sent.getLast? with
  | none =>
    rw [List.getLast?_eq_none_iff.mp hlast]
    exact (owed_self f history).symm
  | some e =>
    have hle : e.seq ≤ f.sentThrough := hi.through e (List.mem_of_getLast? hlast)
    have hcut : f.owed history e.seq = (f.owed history f.sentThrough).filter (fun x => x.seq ≤ e.seq) := by
      rw [owed, owed, List.filter_filter]
      apply List.filter_congr
      intro x _
      by_cases hx : x.seq ≤ e.seq
      · have : x.seq ≤ f.sentThrough := by omega
        simp [hx, this]
      · simp [hx]
    show f.sent = f.owed history e.seq
    rw [hcut, ← h.sent, eq_comm, List.filter_eq_self]
    intro x hx
    simpa using hi.keyed.le_getLast hlast hx

end Follower

namespace Broadcast

/-- No event that a client still needs is trimmed while its `attach_ok` is being sent: a gap flag
reported as false is still right when the snapshot is taken. -/
def KeepsReplayTail (s : Broadcast Data) : BroadcastEvent Data → Prop
  | .attachOkSent i _ => (s.followers i).replayGap = some false →
      s.record.hasReplayGap (s.followers i).sinceSeq = false
  | _ => True

instance (s : Broadcast Data) (e : BroadcastEvent Data) : Decidable (s.KeepsReplayTail e) := by
  cases e <;> dsimp only [KeepsReplayTail] <;> infer_instance

structure Inv (s : Broadcast Data) : Prop where
  logs : s.record.Logs s.history
  increasing : ∀ i, (s.followers i).Increasing
  exact : ∀ i, (s.followers i).replayGap = some false → (s.followers i).Exact s.record s.history

theorem Inv.init (runId : String) : Inv (init runId : Broadcast Data) where
  logs := .init runId
  increasing _ := ⟨List.Pairwise.nil, nofun, nofun, nofun⟩
  exact _ := nofun

private theorem Inv.setFollower {s : Broadcast Data} (h : Inv s) (i : Nat)
    (hi : f.Increasing) (he : f.replayGap = some false → f.Exact s.record s.history) :
    Inv (s.setFollower i f) := by
  refine ⟨h.logs, ?_, ?_⟩
  · intro j
    by_cases hj : j = i
    · subst hj
      simpa [Broadcast.setFollower] using hi
    · simpa [Broadcast.setFollower, hj] using h.increasing j
  · intro j
    by_cases hj : j = i
    · subst hj
      simpa [Broadcast.setFollower] using he
    · simpa [Broadcast.setFollower, hj] using h.exact j

theorem Inv.publish {s : Broadcast Data} (h : Inv s) (codec : Codec Data) (t : EventType)
    (d : Data) : Inv (s.publish codec t d) := by
  unfold Broadcast.publish
  split
  · exact h
  · rename_i ht
    refine ⟨h.logs.recordEvent codec ht d, fun i => (h.increasing i).offer codec _, ?_⟩
    intro i hg
    rw [Follower.offer_replayGap] at hg
    exact (h.exact i hg).offer codec rfl (s.record.recordEvent_nextSeq codec ht d)

theorem Inv.step {codec : Codec Data} {s s' : Broadcast Data} {e : BroadcastEvent Data}
    (h : Inv s) (hk : s.KeepsReplayTail e) (hs : s.step codec e = some s') : Inv s' := by
  cases e with
  | record t d =>
    cases hs
    exact h.publish codec t d
  | attach i sinceSeq sendAttachOk out =>
    simp only [Broadcast.step] at hs
    split at hs <;> cases hs
    refine h.setFollower i (.attach h.logs sinceSeq sendAttachOk out) ?_
    intro hg
    cases sendAttachOk with
    | false => cases hg
    | true => exact .attach h.logs sinceSeq out
  | attachOkSent i out =>
    simp only [Broadcast.step] at hs
    split at hs <;> cases hs
    rename_i hstate
    have hi := h.increasing i
    refine h.setFollower i (hi.snapshot h.logs out (hi.cursor hstate)) ?_
    intro hg
    exact (h.exact i hg).snapshot h.logs hstate (hk hg) out
  | replayNext i =>
    simp only [Broadcast.step] at hs
    split at hs
    · rename_i e rest out hstate
      cases hs
      refine h.setFollower i ((h.increasing i).replay hstate) ?_
      intro hg
      rw [Follower.replay_replayGap] at hg
      exact (h.exact i hg).replay h.logs hstate
    · rename_i out hstate
      cases hs
      have hi := h.increasing i
      refine h.setFollower i ⟨hi.keyed, hi.through, nofun, nofun⟩ ?_
      intro hg
      exact (h.exact i hg).replayed hstate
    · cases hs
  | restoreNext i =>
    have hi := h.increasing i
    simp only [Broadcast.step] at hs
    split at hs
    · rename_i out rest hstate
      cases hs
      refine h.setFollower i ⟨hi.keyed, hi.through, nofun, nofun⟩ ?_
      intro hg
      exact (h.exact i hg).restore hstate _ (.inr ⟨rest, rfl⟩)
    · rename_i hstate
      cases hs
      refine h.setFollower i ⟨hi.keyed, hi.through, nofun, nofun⟩ ?_
      intro hg
      exact (h.exact i hg).restore hstate _ (.inl rfl)
    · cases hs
  | followNext i =>
    simp only [Broadcast.step] at hs
    split at hs <;> cases hs
    rename_i e q hstate hget
    refine h.setFollower i ((h.increasing i).follow hstate e q) ?_
    intro hg
    rw [Follower.follow_replayGap] at hg
    exact (h.exact i hg).follow h.logs hstate hget
  | keepalive i =>
    simp only [Broadcast.step] at hs
    split at hs <;> cases hs
    exact h
  | disconnect i =>
    simp only [Broadcast.step] at hs
    split at hs
    · cases hs
    · cases hs
    · cases hs
      refine h.setFollower i (h.increasing i).finish ?_
      intro hg
      exact (h.exact i hg).finish

/-- A client that was told of no gap receives, in order, every recorded event after its cursor,
provided that no such event is trimmed between the `attach_ok` frame and the snapshot. -/
theorem replaySound_of_keepsReplayTail (codec : Codec Data) (runId : String)
    (es : List (BroadcastEvent Data)) (s : Broadcast Data)
    (hm : RunMeets (step codec) KeepsReplayTail (init runId) es)
    (hr : run (step codec) (init runId) es = some s) (i : Nat) :
    (s.followers i).ReplaySound s.history := by
  have hinv : Inv s := run_invariant (fun _ _ _ hi hc hs => Inv.step hi hc hs)
    (Inv.init runId) hm hr
  refine ⟨(hinv.increasing i).keyed, ?_⟩
  intro hg
  exact (hinv.exact i hg).sent_eq_owed (hinv.increasing i)

/-- Payloads that are empty or hold one ASCII text of the given length, `{"text":"xx.."}`. -/
def textSize : Option Nat → Nat
  | none => 2
  | some n => 11 + n

def textCodec : Codec (Option Nat) where
  eventSize t d := 20 + t.name.utf8ByteSize + textSize d
  approximateSize seq t d := 6 + (Nat.toDigits 10 seq).length + t.name.utf8ByteSize + textSize d
  uuid _ := none
  emptyObject := none

/-- A client attaches at 0 to a buffer of one event that is exactly as large as the buffer may be,
and one more event is recorded before the snapshot is taken. -/
def trimDuringAttach : List (BroadcastEvent (Option Nat)) :=
  [.record (.other "assistant") (some (maxBufferedBytes - 40)), .attach 0 0 true [],
    .record (.other "result") (some 1), .attachOkSent 0 [], .replayNext 0]

/-- The same events in an order in which nothing needed is trimmed. -/
def attachBeforeTrim : List (BroadcastEvent (Option Nat)) :=
  [.record (.other "assistant") (some 5), .attach 0 0 true [], .record .permissionRequest (some 3),
    .attachOkSent 0 [], .replayNext 0, .replayNext 0, .replayNext 0, .restoreNext 0,
    .record (.other "result") (some 1), .followNext 0, .followNext 0]

theorem replaySound_attachBeforeTrim : ∃ s, run (step textCodec) (init "r") attachBeforeTrim = some s ∧
      (s.followers 0).sent.map RunEvent.seq = [1, 3] ∧
      (s.followers 0).ReplaySound s.history := by
  obtain ⟨s, hr, ht⟩ := exists_run_of_map (step textCodec) (init "r") attachBeforeTrim
    (fun s : Broadcast (Option Nat) => (s.followers 0).sent.map RunEvent.seq = [1, 3])
    (by decide)
  refine ⟨s, hr, by simpa using ht, ?_⟩
  exact replaySound_of_keepsReplayTail textCodec "r" attachBeforeTrim s (by decide) hr 0

/-- Event 1 is trimmed after the gap flag was computed, so the client that was told of no gap never
receives it. -/
theorem trimDuringAttach_skips_event : ∃ s, run (step textCodec) (init "r") trimDuringAttach = some s ∧
      (s.followers 0).replayGap = some false ∧
      (s.followers 0).sent.map RunEvent.seq = [2] ∧ s.history.map RunEvent.seq = [1, 2] ∧
      ¬(s.followers 0).ReplaySound s.history := by
  obtain ⟨s, hr, ht⟩ := exists_run_of_map (step textCodec) (init "r") trimDuringAttach
    (fun s : Broadcast (Option Nat) => (s.followers 0).replayGap = some false ∧
      (s.followers 0).sent.map RunEvent.seq = [2] ∧ s.history.map RunEvent.seq = [1, 2] ∧
      (s.followers 0).sent ≠ (s.followers 0).owed s.history (s.followers 0).lastSent)
    (by decide)
  obtain ⟨hg, hsent, hhist, hne⟩ := of_decide_eq_true ht
  exact ⟨s, hr, hg, hsent, hhist, fun hsound => hne (hsound.2 hg)⟩

end Broadcast

end PrivaCloud.AgentRunner
