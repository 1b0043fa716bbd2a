import PrivaCloud.AgentRunner.RunRegistry.Record

/-!
# The buffer of a run and its readers

A record keeps the longest end of its history that the limits allow, so a reader that comes back with the number
of its last event has missed something just when `has_replay_gap` says so.
-/

namespace PrivaCloud.AgentRunner

variable {Data : Type}

namespace RunRecord

def WithinLimits (sizes : List Nat) : Prop := sizes.length ≤ maxBufferedEvents ∧ sizes.sum ≤ maxBufferedBytes

theorem WithinLimits.init {sizes : List Nat} {size : Nat} (h : WithinLimits (sizes ++ [size])) :
    WithinLimits sizes := by
  obtain ⟨hcount, hbytes⟩ := h
  rw [List.length_append] at hcount
  rw [List.sum_append] at hbytes
  exact ⟨by omega, by omega⟩

theorem trim_spec (sizes : List Nat) : trim sizes.length sizes.sum sizes ≤ sizes.length ∧
      WithinLimits (sizes.drop (trim sizes.length sizes.sum sizes)) ∧
      ∀ n < trim sizes.length sizes.sum sizes, ¬ WithinLimits (sizes.drop n) := by
  induction sizes with
  | nil => exact ⟨Nat.le_refl _, ⟨Nat.zero_le _, Nat.zero_le _⟩, fun n hn => absurd hn (Nat.not_lt_zero n)⟩
  | cons size sizes ih =>
    rw [trim]
    split
    · rename_i hover
      rw [List.length_cons, List.sum_cons, Nat.add_sub_cancel, Nat.add_sub_cancel_left]
      refine ⟨Nat.succ_le_succ ih.1, ih.2.1, ?_⟩
      intro n hn hwithin
      cases n with
      | zero =>
        have hcount : (size :: sizes).length ≤ maxBufferedEvents := hwithin.1
        have hbytes : (size :: sizes).sum ≤ maxBufferedBytes := hwithin.2
        omega
      | succ n => exact ih.2.2 n (Nat.lt_of_succ_lt_succ hn) hwithin
    · rename_i hfits
      rw [not_or, Nat.not_lt, Nat.not_lt] at hfits
      exact ⟨Nat.zero_le _, hfits, fun n hn => absurd hn (Nat.not_lt_zero n)⟩

end RunRecord

/-- A record with all that was ever recorded in it, and a reader that comes back from time to time. -/
structure Recording (Data : Type) where
  record : RunRecord Data
  history : List (RunEvent Data) := []
  received : List (RunEvent Data) := []
  gap : Bool := false

inductive RecordingEvent (Data : Type)
  | record (eventType : EventType) (data : Data)
  | reconnect

namespace Recording

/-- The `since_seq` of the reader -/
def sinceSeq (s : Recording Data) : Nat := (s.received.getLast?.map RunEvent.seq).getD 0

def reconnect (s : Recording Data) : Recording Data :=
  { s with
    received := s.received ++ s.record.replaySince s.sinceSeq
    gap := s.gap || s.record.hasReplayGap s.sinceSeq }

def step (codec : Codec Data) (s : Recording Data) : RecordingEvent Data → Recording Data
  | .record eventType data =>
    { s with
      record := s.record.recordEvent codec eventType data
      history := if eventType = .keepalive then s.history
        else s.history ++ [⟨s.history.length + 1, eventType, data⟩] }
  | .reconnect => s.reconnect

def after (codec : Codec Data) (runId : String) (es : List (RecordingEvent Data)) : Recording Data :=
  es.foldl (step codec) { record := { runId := runId } }

def sizes (codec : Codec Data) (events : List (RunEvent Data)) : List Nat :=
  events.map fun e => codec.eventSize e.eventType e.data

/-- The buffer is the longest tail of the history within the limits. -/
structure Buffered (codec : Codec Data) (r : RunRecord Data) (history : List (RunEvent Data)) (k : Nat) : Prop where
  le : k ≤ history.length
  events : r.events = history.drop k
  firstSeq : r.firstSeq = k + 1
  bytes : r.bufferedBytes = (sizes codec r.events).sum
  within : RunRecord.WithinLimits (sizes codec (history.drop k))
  longest : ∀ n < k, ¬ RunRecord.WithinLimits (sizes codec (history.drop n))

/-- With the numbers of the events, and what the reader has by now: all up to its last event, or not all. -/
structure Inv (codec : Codec Data) (s : Recording Data) (k : Nat) : Prop
    extends Buffered codec s.record s.history k where
  eventSizes : s.record.eventSizes = sizes codec s.record.events
  nextSeq : s.record.nextSeq = s.history.length + 1
  numbered : ∀ n (h : n < s.history.length), s.history[n].seq = n + 1
  received : s.gap = false → ∃ n ≤ s.history.length, s.received = s.history.take n
  missed : s.gap = true → ∃ e ∈ s.history, e.seq ≤ k ∧ e ∉ s.received

variable {codec : Codec Data} {s : Recording Data} {k : Nat}

theorem Inv.record (h : Inv codec s k) (eventType : EventType) (data : Data) :
    ∃ k', Inv codec (s.step codec (.record eventType data)) k' := by
  by_cases hkeepalive : eventType = .keepalive
  · refine ⟨k, ?_⟩
    simp only [step, RunRecord.recordEvent, if_pos hkeepalive]
    exact h
  obtain ⟨⟨runId, sessionId, cancelled, events, eventSizes, eventBytes, firstSeq, nextSeq, status, endedAt, uuid⟩,
    history, received, gap⟩ := s
  obtain ⟨⟨hle, hevents, hfirst, hbytes, -, hlongest⟩, hsizes, hnext, hnumbered, hreceived, hmissed⟩ := h
  dsimp only [RunRecord.bufferedBytes] at *
  subst hevents hfirst hsizes hnext hbytes
  let e : RunEvent Data := ⟨history.length + 1, eventType, data⟩
  let tail := (history ++ [e]).drop k
  have htail : history.drop k ++ [e] = tail := (List.drop_append_of_le_length hle).symm
  have hsizes : sizes codec (history.drop k) ++ [codec.eventSize eventType data] = sizes codec tail := by
    rw [← htail, sizes, sizes, List.map_append]
    rfl
  have hsum : (sizes codec (history.drop k)).sum + codec.eventSize eventType data = (sizes codec tail).sum := by
    rw [← hsizes, List.sum_append, List.sum_singleton]
  have hlength : tail.length = (sizes codec tail).length := (List.length_map _).symm
  obtain ⟨hn, hwithin, hleast⟩ := RunRecord.trim_spec (sizes codec tail)
  simp only [step, RunRecord.recordEvent, if_neg hkeepalive]
  rw [htail, hsizes, hsum, hlength]
  generalize RunRecord.trim (sizes codec tail).length (sizes codec tail).sum (sizes codec tail) = n
    at hn hwithin hleast
  have hdrop : tail.drop n = (history ++ [e]).drop (k + n) := List.drop_drop
  have hcut (m : Nat) : (sizes codec tail).drop m = sizes codec ((history ++ [e]).drop (k + m)) := by
    rw [← List.drop_drop]
    exact (List.map_drop ..).symm
  have htailSizes : (sizes codec tail).drop n = sizes codec (tail.drop n) := by rw [hcut, hdrop]
  have hnumbered' : ∀ m (hm : m < (history ++ [e]).length), (history ++ [e])[m].seq = m + 1 := by
    intro m hm
    by_cases hold : m < history.length
    · rw [List.getElem_append_left hold]
      exact hnumbered m hold
    · rw [List.getElem_append_right (Nat.le_of_not_lt hold)]
      simp only [List.length_append, List.length_singleton] at hm
      simp [e]
      omega
  refine ⟨k + n, ⟨?_, hdrop, ?_, ?_, ?_, ?_⟩, ?_, ?_, hnumbered', ?_, ?_⟩
  · rw [← hlength, List.length_drop] at hn
    change k + n ≤ (history ++ [e]).length
    have hlast : (history ++ [e]).length = history.length + 1 := List.length_append
    omega
  · split
    · rename_i hzero
      rw [hzero]
    · rw [hdrop]
      cases hhead : ((history ++ [e]).drop (k + n)).head? with
      | none =>
        have hend : (history ++ [e]).length ≤ k + n := by simpa using hhead
        rw [← hlength, List.length_drop] at hn
        simp only [List.length_append, List.length_singleton] at hn hend ⊢
        omega
      | some first =>
        rw [List.head?_drop] at hhead
        obtain ⟨hm, rfl⟩ := List.getElem?_eq_some_iff.mp hhead
        exact hnumbered' (k + n) hm
  · change RunRecord.bytesAfter n (sizes codec tail).sum (sizes codec tail) = (sizes codec (tail.drop n)).sum
    rw [RunRecord.bytesAfter_sum, htailSizes]
  · rw [← hcut]
    exact hwithin
  · intro m hm hfits
    by_cases hold : m < k
    · rw [List.drop_append_of_le_length (by omega), sizes, List.map_append] at hfits
      exact hlongest m hold hfits.init
    · obtain ⟨d, rfl⟩ := Nat.exists_eq_add_of_le (Nat.le_of_not_lt hold)
      rw [← hcut] at hfits
      exact hleast d (by omega) hfits
  · exact htailSizes
  · simp
  · intro hgap
    obtain ⟨m, hm, hreceived⟩ := hreceived hgap
    exact ⟨m, by simp; omega, by rw [hreceived, List.take_append_of_le_length hm]⟩
  · intro hgap
    obtain ⟨missing, hmem, hseq, hnot⟩ := hmissed hgap
    exact ⟨missing, List.mem_append_left _ hmem, by omega, hnot⟩

theorem Buffered.replaySince (h : Buffered codec s.record s.history k)
    (hnumbered : ∀ n (h : n < s.history.length), s.history[n].seq = n + 1) {n : Nat} (hk : k ≤ n) :
    s.record.replaySince n = s.history.drop n := by
  have hsplit : s.history.drop k = (s.history.drop k).take (n - k) ++ s.history.drop n := by
    have hcut := (List.take_append_drop (n - k) (s.history.drop k)).symm
    rwa [List.drop_drop, Nat.add_sub_cancel' hk] at hcut
  rw [RunRecord.replaySince, h.events, hsplit, List.filter_append]
  have hold : ((s.history.drop k).take (n - k)).filter (fun e => n < e.seq) = [] := by
    rw [List.filter_eq_nil_iff]
    intro e he
    obtain ⟨m, hm, rfl⟩ := List.mem_iff_getElem.mp he
    simp only [List.length_take, List.length_drop] at hm
    simp only [List.getElem_take, List.getElem_drop, hnumbered, decide_eq_true_eq]
    omega
  have hnew : (s.history.drop n).filter (fun e => n < e.seq) = s.history.drop n := by
    rw [List.filter_eq_self]
    intro e he
    obtain ⟨m, hm, rfl⟩ := List.mem_iff_getElem.mp he
    simp only [List.getElem_drop, hnumbered, decide_eq_true_eq]
    omega
  rw [hold, hnew, List.nil_append]

theorem Inv.lt_seq (h : Inv codec s k) {n : Nat} {e : RunEvent Data} (he : e ∈ s.record.replaySince n) :
    k < e.seq := by
  have hmem := (List.mem_filter.mp he).1
  rw [h.events] at hmem
  obtain ⟨m, hm, rfl⟩ := List.mem_iff_getElem.mp hmem
  rw [List.getElem_drop, h.numbered]
  omega

theorem Inv.sinceSeq_take (h : Inv codec s k) {n : Nat} (hn : n ≤ s.history.length)
    (hreceived : s.received = s.history.take n) : s.sinceSeq = n := by
  rw [sinceSeq, hreceived]
  cases n with
  | zero => rfl
  | succ n => simp [List.getLast?_take, List.getElem?_eq_getElem hn, h.numbered n hn]

theorem Inv.received_reconnect (h : Inv codec s k) (hgap : s.reconnect.gap = false) :
    s.reconnect.received = s.history := by
  obtain ⟨hold, hnow⟩ := Bool.or_eq_false_iff.mp hgap
  obtain ⟨n, hn, hreceived⟩ := h.received hold
  rw [h.sinceSeq_take hn hreceived, RunRecord.hasReplayGap, h.firstSeq] at hnow
  change s.received ++ s.record.replaySince s.sinceSeq = s.history
  rw [h.sinceSeq_take hn hreceived, h.toBuffered.replaySince h.numbered (by simpa using hnow), hreceived,
    List.take_append_drop]

theorem Inv.reconnect (h : Inv codec s k) : Inv codec s.reconnect k := by
  refine ⟨h.toBuffered, h.eventSizes, h.nextSeq, h.numbered, ?_, ?_⟩
  · intro hgap
    exact ⟨s.history.length, Nat.le_refl _, (h.received_reconnect hgap).trans List.take_length.symm⟩
  · intro hgap
    suffices ∃ e ∈ s.history, e.seq ≤ k ∧ e ∉ s.received by
      obtain ⟨e, hmem, hseq, hnot⟩ := this
      refine ⟨e, hmem, hseq, fun hin => ?_⟩
      rcases List.mem_append.mp hin with hin | hin
      · exact hnot hin
      · exact absurd (h.lt_seq hin) (Nat.not_lt.mpr hseq)
    by_cases hold : s.gap = true
    · exact h.missed hold
    · obtain ⟨n, hn, hreceived⟩ := h.received (by simpa using hold)
      have hnow : s.record.hasReplayGap s.sinceSeq = true := (Bool.or_eq_true_iff.mp hgap).resolve_left hold
      rw [h.sinceSeq_take hn hreceived, RunRecord.hasReplayGap, h.firstSeq, decide_eq_true_eq] at hnow
      have hlt : n < s.history.length := by have := h.le; omega
      refine ⟨s.history[n], List.getElem_mem hlt, by rw [h.numbered]; omega, fun hin => ?_⟩
      rw [hreceived] at hin
      obtain ⟨m, hm, heq⟩ := List.mem_iff_getElem.mp hin
      have hseq := congrArg RunEvent.seq heq
      rw [List.getElem_take, h.numbered, h.numbered] at hseq
      rw [List.length_take] at hm
      omega

theorem inv_after (codec : Codec Data) (runId : String) (es : List (RecordingEvent Data)) :
    ∃ k, Inv codec (after codec runId es) k := by
  refine List.foldlRecOn (motive := fun s => ∃ k, Inv codec s k) es (step codec) ⟨0, ?_⟩ ?_
  · exact ⟨⟨Nat.le_refl _, rfl, rfl, rfl, ⟨Nat.zero_le _, Nat.zero_le _⟩, fun n hn => absurd hn (Nat.not_lt_zero n)⟩,
      rfl, rfl, fun n hn => absurd hn (Nat.not_lt_zero n), fun _ => ⟨0, Nat.le_refl _, rfl⟩, by rintro ⟨⟩⟩
  · rintro s ⟨k, h⟩ e -
    cases e with
    | record eventType data => exact h.record eventType data
    | reconnect => exact ⟨k, h.reconnect⟩

/-- Whatever is recorded, the buffer is the longest tail of the history within the limits, and `first_seq` the
number of its first event. -/
theorem buffer_longest (codec : Codec Data) (runId : String) (es : List (RecordingEvent Data)) :
    ∃ k, Buffered codec (after codec runId es).record (after codec runId es).history k :=
  (inv_after codec runId es).imp fun _ h => h.toBuffered

/-- A reader that comes back from time to time has received every event in order and once, unless one of its attaches
has reported a gap; after a gap it has not received all. -/
theorem reconnect_complete (codec : Codec Data) (runId : String) (es : List (RecordingEvent Data)) :
    (after codec runId es).reconnect.received = (after codec runId es).history ↔
      (after codec runId es).reconnect.gap = false := by
  obtain ⟨k, h⟩ := inv_after codec runId es
  generalize after codec runId es = s at h
  cases hgap : s.reconnect.gap with
  | true =>
    obtain ⟨e, hmem, -, hnot⟩ := h.reconnect.missed hgap
    refine iff_of_false (fun hall => hnot ?_) (by decide)
    rw [hall]
    exact hmem
  | false => exact iff_of_true (h.received_reconnect hgap) rfl

end Recording

end PrivaCloud.AgentRunner
