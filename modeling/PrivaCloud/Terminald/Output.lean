import PrivaCloud.Framework.Run
import PrivaCloud.Framework.Utf8

/-!
# The output of a terminal

The goroutines of a session that move output, from the PTY through a bounded queue to the client, and the
ends of a session. The output rate only delays the writer, which may wait as long as it likes here.
-/

namespace PrivaCloud.Terminald

open Framework Framework.Utf8

abbrev Bytes := List UInt8

def ptyReadChunkSize : Nat := 4096

/-- One scalar value at the front, with its width -/
def decodeRune (bytes : Bytes) : Option (Char × Nat) :=
  [1, 2, 3, 4].findSome? fun width =>
    match decodeChars (bytes.take width) with
    | some [c] => some (c, width)
    | _ => none

/-- `strings.ToValidUTF8(text, "\uFFFD")`: one replacement for a run of bytes that belong to no scalar value -/
def toValidUTF8 (skip : Nat) (invalid : Bool) : Bytes → List Char
  | [] => []
  | b :: bytes =>
    match skip with
    | skip + 1 => toValidUTF8 skip invalid bytes
    | 0 =>
      match decodeRune (b :: bytes) with
      | some (c, width) => c :: toValidUTF8 (width - 1) false bytes
      | none => (if invalid then [] else ['\uFFFD']) ++ toValidUTF8 0 true bytes

def outputText (chunk : Bytes) : List Char := (decodeChars chunk).getD (toValidUTF8 0 false chunk)

inductive Reason
  | processExit
  | clientClose
  | outputOverflow
  | inputOverflow
  | idleTimeout
  | absoluteTimeout
  deriving DecidableEq

/-- Where the reader or the writer is -/
inductive Stage
  | idle
  | holding (chunk : Bytes)
  | stopped
  deriving DecidableEq

def Stage.chunks : Stage → List Bytes
  | .holding chunk => [chunk]
  | .idle | .stopped => []

structure Terminal where
  queueSize : Nat
  /-- What the PTY has produced by the end and the reader has not read -/
  unread : Bytes
  reader : Stage := .idle
  output : List Bytes := []
  writer : Stage := .idle
  /-- The data fields of the output messages -/
  sent : List Char := []
  /-- The first reason that was given to `finish`, which also cancels the context -/
  reason : Option Reason := none
  closed : Bool := false

inductive TerminalEvent
  | read (n : Nat)
  | push
  | readError
  | readerReturns
  | take
  | writerReturns
  | write (ok : Bool)
  /-- `finish` by another goroutine, such as the one that waits for the process -/
  | finish (reason : Reason)
  | close

namespace Terminal

variable (t : Terminal)

def finish (reason : Reason) : Terminal := { t with reason := t.reason <|> some reason }

def step : TerminalEvent → Option Terminal
  | .read n =>
    if t.reader = .idle ∧ 1 ≤ n ∧ n ≤ ptyReadChunkSize ∧ n ≤ t.unread.length then
      some { t with reader := .holding (t.unread.take n), unread := t.unread.drop n }
    else none
  | .push =>
    match t.reader with
    | .holding chunk =>
      if t.output.length < t.queueSize then some { t with reader := .idle, output := t.output ++ [chunk] }
      else if t.reason = none then some { t.finish .outputOverflow with reader := .stopped }
      else none
    | _ => none
  | .readError => if t.reader = .idle then some { t.finish .processExit with reader := .stopped } else none
  | .readerReturns =>
    if t.reader.chunks ≠ [] ∧ t.reason ≠ none then some { t with reader := .stopped } else none
  | .take =>
    match t.output with
    | chunk :: output =>
      if t.writer = .idle then some { t with writer := .holding chunk, output := output } else none
    | [] => none
  | .writerReturns =>
    if t.writer ≠ .stopped ∧ t.reason ≠ none then some { t with writer := .stopped } else none
  | .write ok =>
    match t.writer with
    | .holding chunk =>
      some (if ok then { t with writer := .idle, sent := t.sent ++ outputText chunk }
        else { t.finish .clientClose with writer := .stopped })
    | _ => none
  | .finish reason => some (t.finish reason)
  | .close => if t.reason ≠ none ∧ t.closed = false then some { t with closed := true } else none

/-- All that the PTY produced has been sent. -/
def Drained : Prop := t.unread = [] ∧ t.reader.chunks = [] ∧ t.output = [] ∧ t.writer.chunks = []

instance : Decidable t.Drained := inferInstanceAs (Decidable (_ ∧ _))

/-- Each read ends between two characters, and the exit of the process ends a session only when all is sent. -/
def Careful : TerminalEvent → Prop
  | .read n => (decodeChars (t.unread.take n)).isSome = true
  | .readError | .finish .processExit => t.reason ≠ none ∨ t.Drained
  | _ => True

instance (e : TerminalEvent) : Decidable (t.Careful e) := by
  unfold Careful
  split <;> infer_instance

def chunks : List Bytes := t.writer.chunks ++ t.output ++ t.reader.chunks

/-- What is still on its way to the client -/
def pipeline : Bytes :=
  if t.writer = .stopped then []
  else (t.writer.chunks ++ t.output).flatten ++
    (if t.reader = .stopped then [] else t.reader.chunks.flatten ++ t.unread)

structure Inv (stream : Bytes) (t : Terminal) : Prop where
  flow : encodeChars t.sent ++ t.pipeline <+: stream
  live : t.reason = none → encodeChars t.sent ++ t.pipeline = stream
  valid : ∀ chunk ∈ t.chunks, (decodeChars chunk).isSome = true
  exit : t.reason = some .processExit → encodeChars t.sent = stream

variable {t} {t' : Terminal} {stream : Bytes}

theorem pipeline_of_drained (h : t.Drained) : t.pipeline = [] := by
  obtain ⟨hunread, hreader, houtput, hwriter⟩ := h
  simp [pipeline, hunread, hreader, houtput, hwriter]

theorem finish_reason (reason : Reason) : (t.finish reason).reason ≠ none := by
  unfold finish
  cases t.reason <;> simp

theorem encodeChars_outputText {chunk : Bytes} (h : (decodeChars chunk).isSome = true) :
    encodeChars (outputText chunk) = chunk := by
  obtain ⟨text, htext⟩ := Option.isSome_iff_exists.mp h
  rw [outputText, htext, Option.getD_some, encodeChars_of_decodeChars htext]

/-- A step moves bytes on or, when the session ends, drops the rest of them. -/
structure Moves (t t' : Terminal) : Prop where
  flow : encodeChars t'.sent ++ t'.pipeline <+: encodeChars t.sent ++ t.pipeline
  live : t'.reason = none →
    t.reason = none ∧ encodeChars t'.sent ++ t'.pipeline = encodeChars t.sent ++ t.pipeline
  sent : t.sent <+: t'.sent

theorem Moves.of_kept (hreason : t'.reason = t.reason) (hsent : t'.sent = t.sent)
    (hpipe : t'.pipeline = t.pipeline) : Moves t t' :=
  ⟨by simp [hsent, hpipe], fun hnone => ⟨hreason ▸ hnone, by simp [hsent, hpipe]⟩, by simp [hsent]⟩

theorem Moves.of_ended (hreason : t'.reason ≠ none) (hsent : t'.sent = t.sent)
    (hpipe : t'.pipeline <+: t.pipeline) : Moves t t' := by
  refine ⟨?_, fun hnone => absurd hnone hreason, by simp [hsent]⟩
  rw [hsent]
  exact (List.prefix_append_right_inj _).mpr hpipe

theorem step_moves (hvalid : ∀ chunk ∈ t.writer.chunks, (decodeChars chunk).isSome = true) {e : TerminalEvent}
    (hs : t.step e = some t') : Moves t t' := by
  -- a reader that stops takes what it holds and what is unread with it
  have hreader : ∀ {t' : Terminal}, t'.writer = t.writer → t'.output = t.output → t'.reader = .stopped →
      t'.pipeline <+: t.pipeline := by
    intro t' hwriter houtput hstopped
    unfold pipeline
    rw [hwriter, houtput, hstopped]
    split
    · exact List.prefix_rfl
    · rw [if_pos rfl, List.append_nil]
      exact List.prefix_append _ _
  cases e with
  | read n =>
    simp only [step] at hs
    split at hs <;> cases hs
    rename_i hidle
    refine .of_kept rfl rfl ?_
    simp [pipeline, hidle.1, Stage.chunks]
  | push =>
    simp only [step] at hs
    split at hs
    · rename_i chunk hholding
      split at hs
      · cases hs
        refine .of_kept rfl rfl ?_
        simp [pipeline, hholding, Stage.chunks]
      · split at hs <;> cases hs
        exact .of_ended (finish_reason _) rfl (hreader rfl rfl rfl)
    · cases hs
  | readError =>
    simp only [step] at hs
    split at hs <;> cases hs
    exact .of_ended (finish_reason _) rfl (hreader rfl rfl rfl)
  | readerReturns =>
    simp only [step] at hs
    split at hs <;> cases hs
    rename_i hdone
    exact .of_ended hdone.2 rfl (hreader rfl rfl rfl)
  | take =>
    simp only [step] at hs
    split at hs
    · rename_i chunk output houtput
      split at hs <;> cases hs
      rename_i hidle
      refine .of_kept rfl rfl ?_
      simp [pipeline, houtput, hidle, Stage.chunks]
    · cases hs
  | writerReturns =>
    simp only [step] at hs
    split at hs <;> cases hs
    rename_i hdone
    exact .of_ended hdone.2 rfl (by simp [pipeline])
  | write ok =>
    simp only [step] at hs
    split at hs
    · rename_i chunk hholding
      cases ok with
      | false =>
        cases hs
        exact .of_ended (finish_reason _) rfl (by simp [pipeline])
      | true =>
        cases hs
        have htext := encodeChars_outputText (hvalid chunk (by simp [hholding, Stage.chunks]))
        have hsame : encodeChars (t.sent ++ outputText chunk) ++
            { t with writer := .idle, sent := t.sent ++ outputText chunk }.pipeline =
            encodeChars t.sent ++ t.pipeline := by
          rw [encodeChars_append, htext]
          simp [pipeline, hholding, Stage.chunks]
        exact ⟨hsame ▸ List.prefix_rfl, fun hnone => ⟨hnone, hsame⟩, List.prefix_append _ _⟩
    · cases hs
  | finish reason =>
    cases hs
    exact .of_ended (finish_reason _) rfl List.prefix_rfl
  | close =>
    simp only [step] at hs
    split at hs <;> cases hs
    exact .of_kept rfl rfl rfl

theorem step_valid (hvalid : ∀ chunk ∈ t.chunks, (decodeChars chunk).isSome = true) {e : TerminalEvent}
    (hc : t.Careful e) (hs : t.step e = some t') : ∀ chunk ∈ t'.chunks, (decodeChars chunk).isSome = true := by
  unfold chunks at hvalid ⊢
  cases e with
  | read n =>
    simp only [step] at hs
    split at hs <;> cases hs
    simp only [Careful] at hc
    simp only [List.mem_append, Stage.chunks, List.mem_singleton] at hvalid ⊢
    rintro chunk ((hwriter | houtput) | rfl)
    · exact hvalid chunk (.inl (.inl hwriter))
    · exact hvalid chunk (.inl (.inr houtput))
    · exact hc
  | push | readError | readerReturns | take | writerReturns | write _ | finish _ | close =>
    simp only [step] at hs
    repeat' split at hs
    all_goals cases hs
    all_goals
      intro chunk hchunk
      refine hvalid chunk ?_
      grind [Stage.chunks, Terminal.finish]

/-- The process is what ends a session only when a step of its exit does. -/
theorem exit_of_step {e : TerminalEvent} (hs : t.step e = some t') (hexit : t'.reason = some .processExit) :
    t.reason = some .processExit ∨
      t.reason = none ∧ t'.sent = t.sent ∧ (e = .readError ∨ e = .finish .processExit) := by
  have hfinish : ∀ reason, (t.finish reason).reason = some .processExit →
      t.reason = some .processExit ∨ t.reason = none ∧ reason = .processExit := by
    intro reason h
    unfold finish at h
    cases hreason : t.reason with
    | some first =>
      rw [hreason] at h
      exact .inl h
    | none =>
      rw [hreason] at h
      exact .inr ⟨rfl, Option.some.inj h⟩
  cases e with
  | finish reason =>
    cases hs
    exact (hfinish reason hexit).imp_right fun ⟨hnone, hreason⟩ => ⟨hnone, rfl, .inr (by rw [hreason])⟩
  | readError =>
    simp only [step] at hs
    split at hs <;> cases hs
    exact (hfinish _ hexit).imp_right fun ⟨hnone, _⟩ => ⟨hnone, rfl, .inl rfl⟩
  | read _ | push | readerReturns | take | writerReturns | write _ | close =>
    simp only [step] at hs
    repeat' split at hs
    all_goals cases hs
    all_goals first
      | exact .inl hexit
      | exact (hfinish _ hexit).imp_right fun ⟨_, h⟩ => by cases h

theorem Inv.step (h : Inv stream t) {e : TerminalEvent} (hc : t.Careful e) (hs : t.step e = some t') :
    Inv stream t' := by
  obtain ⟨hflow, hlive, hsent⟩ :=
    step_moves (fun chunk hchunk => h.valid chunk (List.mem_append_left _ (List.mem_append_left _ hchunk))) hs
  have hnext := hflow.trans h.flow
  refine ⟨hnext, fun hnone => ?_, step_valid h.valid hc hs, fun hexit => ?_⟩
  · obtain ⟨hbefore, hsame⟩ := hlive hnone
    rw [hsame, h.live hbefore]
  · rcases exit_of_step hs hexit with hbefore | ⟨hnone, hkept, hevent⟩
    · -- what was the whole stream cannot grow
      refine ((List.prefix_append _ _).trans hnext).eq_of_length_le ?_
      rw [← h.exit hbefore]
      obtain ⟨more, hmore⟩ := hsent
      rw [← hmore, encodeChars_append, List.length_append]
      exact Nat.le_add_right _ _
    · have hdrained : t.Drained := by
        rcases hevent with rfl | rfl
        · exact hc.resolve_left (not_not.mpr hnone)
        · exact hc.resolve_left (not_not.mpr hnone)
      have hwhole := h.live hnone
      rwa [pipeline_of_drained hdrained, List.append_nil, ← hkept] at hwhole

/-- What the client has been sent is a beginning of the stream, and the whole of it when the exit of the process
ends the session. -/
theorem sent_of_careful {queueSize : Nat} {text : List Char} (htext : decodeChars stream = some text)
    {es : List TerminalEvent} (hm : RunMeets step Careful { queueSize := queueSize, unread := stream } es)
    (hr : run step { queueSize := queueSize, unread := stream } es = some t) :
    t.sent <+: text ∧ (t.closed = true → t.reason = some .processExit → t.sent = text) := by
  have hinit : Inv stream { queueSize := queueSize, unread := stream } := by
    have hwhole : encodeChars [] ++ pipeline { queueSize := queueSize, unread := stream } = stream := by
      simp [pipeline, Stage.chunks]
    exact ⟨hwhole ▸ List.prefix_rfl, fun _ => hwhole, by simp [chunks, Stage.chunks], nofun⟩
  have h := run_invariant (fun _ _ _ hi hc hs => Inv.step hi hc hs) hinit hm hr
  have hstream := encodeChars_of_decodeChars htext
  refine ⟨prefix_of_encodeChars ?_, fun _ hexit => ?_⟩
  · rw [hstream]
    exact (List.prefix_append _ _).trans h.flow
  · have hsame := decodeChars_encodeChars t.sent
    rw [h.exit hexit, htext] at hsame
    exact (Option.some.inj hsame).symm

/-- `é` and a line end, read as a whole and sent before the process ends -/
def sentInTime : List TerminalEvent :=
  [.read 3, .push, .take, .write true, .readError, .close]

def eAcute : Bytes := [0xc3, 0xa9, 0x0a]

theorem sent_sentInTime : ∃ t, run step { queueSize := 4, unread := eAcute } sentInTime = some t ∧
    t.sent = ['é', '\n'] ∧ t.closed = true := by
  obtain ⟨t, hr, hclosed⟩ := exists_run_of_decide step { queueSize := 4, unread := eAcute } sentInTime
    (p := fun t => t.closed = true ∧ t.reason = some .processExit) (fun _ h => h) (by decide)
  exact ⟨t, hr, (sent_of_careful (by decide) (by decide) hr).2 hclosed.1 hclosed.2, hclosed.1⟩

-- A read that ends inside a character, and a process that ends while its last output is queued.
theorem not_sent :
    (∃ t, run step { queueSize := 4, unread := eAcute } [.read 1, .push, .take, .write true] = some t ∧
      ¬ t.sent <+: ['é', '\n']) ∧
    ∃ t, run step { queueSize := 4, unread := eAcute }
      [.read 3, .push, .finish .processExit, .writerReturns, .close] = some t ∧
      t.closed = true ∧ t.reason = some .processExit ∧ t.sent = [] :=
  ⟨exists_run_of_decide _ _ _ (p := fun t => ¬ t.sent <+: ['é', '\n']) (fun _ h => h) (by decide),
    exists_run_of_decide _ _ _ (p := fun t => t.closed = true ∧ t.reason = some .processExit ∧ t.sent = [])
      (fun _ h => h) (by decide)⟩

end Terminal

end PrivaCloud.Terminald
