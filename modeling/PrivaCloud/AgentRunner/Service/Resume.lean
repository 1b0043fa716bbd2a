import PrivaCloud.AgentRunner.Service.Attempts

/-!
# Retries and the session they resume

Every attempt should resume a session that exists, and the prompt should be submitted once. The loop
rewrites the options from `current_resume_id`, which is assigned before the session exists: a retry is
sound exactly if an earlier attempt brought the prompt into the session, or the session is the caller's
own.
-/

namespace PrivaCloud.AgentRunner

open Framework

structure SessionSound (call : RunCall) (trace : List Attempt) : Prop where
  /-- A resumed session is the caller's, or holds the prompt of an earlier attempt. -/
  resumes : ∀ pre a post, trace = pre ++ a :: post → ∀ id, a.start.resume = some id →
    call.sessionId = some id ∨ ∃ b ∈ pre, b.submitted = some id
  /-- The attempt after a reset starts the fresh session. -/
  restarts : ∀ pre a b post, trace = pre ++ a :: b :: post → ∀ id, a.reset = some id →
    b.start.sessionId = some id ∧ b.start.resume = none
  /-- A fork whose prompt is not yet submitted still forks its source. -/
  forks : ∀ source, call.sessionId = some source → call.forkSession → ∀ pre a post, trace = pre ++ a :: post →
      (∀ b ∈ pre, b.submitted = none ∧ b.reset = none) →
      a.start.resume = some source ∧ a.start.forkSession
  once : (trace.filterMap Attempt.submitted).Nodup

/-- Ids from `uuid4` are non-empty, the caller's session id names a session, and the id of a new or
forked session is not the caller's. -/
structure FreshIds (uuid4 : Nat → String) (call : RunCall) : Prop where
  nonempty : ∀ n, uuid4 n ≠ ""
  existing : call.sessionId ≠ some ""
  preassigned : call.preassigned → call.sessionId ≠ some (call.targetSessionId uuid4)

namespace AttemptOutcome

def retried (o : AttemptOutcome) : Bool :=
  match o.ending with
  | .synthetic => true
  | .receive e => shouldRetryException e
  | .connect (.exception e) | .query (.exception e) | .body (.exception e) =>
    shouldRetryException e
  | _ => false

def losesTarget (entry : EntryPoint) (start : SessionOptions) (o : AttemptOutcome) : Bool :=
  entry = .agentRunEvents && o.targetMissing &&
    (match o.ending with
    | .connect (.exception _) => (truthy start.resume).isSome
    | .query (.exception _) | .body (.exception _) =>
      (truthy (o.reused.getD start).resume).isSome
    | .receive e => !shouldRetryException e && (truthy (o.reused.getD start).resume).isSome
    | _ => false)

end AttemptOutcome

/-- The options that an attempt of the call starts with as long as nothing is reset. -/
def RunCall.optionsAt (uuid4 : Nat → String) (call : RunCall) (attempt : Nat) : SessionOptions :=
  if 1 < attempt then { resume := some (call.targetSessionId uuid4) } else call.options uuid4

/-- No attempt is followed by another one after it lost the session that it resumes, and the first
attempt of a new or forked session is not followed by another one before its prompt is in. -/
def keepsSession (entry : EntryPoint) (uuid4 : Nat → String) (call : RunCall) : Nat → List AttemptOutcome → Bool
  | attempt, o :: o' :: os =>
    maxAttempts ≤ attempt ||
      !o.losesTarget entry (call.optionsAt uuid4 attempt) &&
        (!o.retried ||
          (1 < attempt || !call.preassigned || o.ending.queried) &&
            keepsSession entry uuid4 call (attempt + 1) (o' :: os))
  | _, _ => true

variable {entry : EntryPoint} {id : String} {o : AttemptOutcome} {attempt : Nat} {st : AttemptState}
variable {uuid4 : Nat → String} {call : RunCall}

namespace AttemptState

def Resets (entry : EntryPoint) (uuid4 : Nat → String) (st : AttemptState) (o : AttemptOutcome) : Prop :=
  ∃ st', st.next entry uuid4 o = some (st', some (uuid4 st.drawn)) ∧ st'.currentResumeId = uuid4 st.drawn

/-- The loop goes on with the same session, in place if the prompt is in its transcript. -/
def Retries (entry : EntryPoint) (uuid4 : Nat → String) (st : AttemptState) (o : AttemptOutcome) : Prop :=
  ∃ st', st.next entry uuid4 o = some (st', none) ∧
    st'.currentResumeId = st.currentResumeId ∧ st'.resumeFallbackUsed = false ∧
    st'.resumeInPlace = ((truthy (some st.currentResumeId)).isSome &&
      (st.resumeInPlace || o.ending.queried))

theorem handle_exception (hf : st.resumeFallbackUsed = false) (missing : Bool) (e : RunException) :
    st.handle entry uuid4 missing (.failure (.exception e)) =
      if entry = .agentRunEvents && missing && (truthy st.options.resume).isSome then
        some (st.resetToFreshSession uuid4, some (uuid4 st.drawn))
      else if shouldRetryException e then some (st.retry, none) else none := by
  cases missing <;> simp [handle, hf]

inductive NextCase (entry : EntryPoint) (uuid4 : Nat → String) (st : AttemptState)
    (o : AttemptOutcome) : Prop
  | reset (lost : o.losesTarget entry st.options = true) (h : st.Resets entry uuid4 o)
  | retry (kept : o.losesTarget entry st.options = false) (again : o.retried = true)
      (h : st.Retries entry uuid4 o)
  | leave (kept : o.losesTarget entry st.options = false) (done : o.retried = false)
      (h : st.next entry uuid4 o = none)

theorem nextCase_of_exception {e : RunException} (hf : st.resumeFallbackUsed = false)
    (hraised : st.runOneAttempt entry o = some (.failure (.exception e)))
    (hlost : o.losesTarget entry st.options =
      (entry = .agentRunEvents && o.targetMissing && (truthy (st.assign o).options.resume).isSome))
    (hretry : o.retried = shouldRetryException e) : NextCase entry uuid4 st o := by
  have hnext : st.next entry uuid4 o =
      (st.assign o).handle entry uuid4 o.targetMissing (.failure (.exception e)) := by
    rw [next, hraised, Option.bind_some]
  rw [handle_exception (by exact hf), ← hlost] at hnext
  by_cases hl : o.losesTarget entry st.options
  · rw [if_pos hl] at hnext
    exact .reset hl ⟨_, hnext, rfl⟩
  · rw [if_neg hl] at hnext
    have hl : o.losesTarget entry st.options = false := by simpa using hl
    by_cases hs : shouldRetryException e
    · rw [if_pos hs] at hnext
      exact .retry hl (hretry.trans hs) ⟨_, hnext, rfl, hf, rfl⟩
    · rw [if_neg hs] at hnext
      exact .leave hl (hretry.trans (by simpa using hs)) hnext

theorem next_cases (entry : EntryPoint) (uuid4 : Nat → String)
    (hf : st.resumeFallbackUsed = false) (o : AttemptOutcome) : NextCase entry uuid4 st o := by
  obtain ⟨ending, reused, missing⟩ := o
  cases ending with
  | connect failure =>
    cases failure with
    | exception e => exact nextCase_of_exception hf rfl rfl rfl
    | cancelled => exact .leave (by simp [AttemptOutcome.losesTarget]) rfl rfl
  | query failure =>
    cases failure with
    | exception e => exact nextCase_of_exception hf rfl rfl rfl
    | cancelled => exact .leave (by simp [AttemptOutcome.losesTarget]) rfl rfl
  | body failure =>
    cases failure with
    | exception e => exact nextCase_of_exception hf rfl rfl rfl
    | cancelled => exact .leave (by simp [AttemptOutcome.losesTarget]) rfl rfl
  | synthetic =>
    exact .retry (by simp [AttemptOutcome.losesTarget]) rfl ⟨_, rfl, rfl, hf, rfl⟩
  | completed => exact .leave (by simp [AttemptOutcome.losesTarget]) rfl rfl
  | receive e =>
    cases entry with
    | agentRun => exact nextCase_of_exception hf rfl (by simp [AttemptOutcome.losesTarget]) rfl
    | agentRunEvents =>
      -- the pump turns the exception into a signal, which is fatal unless it is retryable
      have hraised : st.runOneAttempt .agentRunEvents ⟨.receive e, reused, missing⟩ =
          if shouldRetryException e then some .retryableSynthetic
          else if (truthy (reused.getD st.options).resume).isSome && missing then
            some .resumeTargetLost
          else none := rfl
      by_cases hs : shouldRetryException e
      · rw [if_pos hs] at hraised
        exact .retry (by simp [AttemptOutcome.losesTarget, hs]) hs
          ⟨(st.assign _).retry, by rw [next, hraised]; rfl, rfl, hf, rfl⟩
      · rw [if_neg hs] at hraised
        have hs : shouldRetryException e = false := by simpa using hs
        have hlost : AttemptOutcome.losesTarget .agentRunEvents st.options
            ⟨.receive e, reused, missing⟩ =
            ((truthy (reused.getD st.options).resume).isSome && missing) := by
          simp [AttemptOutcome.losesTarget, hs, Bool.and_comm]
        by_cases hl : (truthy (reused.getD st.options).resume).isSome && missing
        · rw [if_pos hl] at hraised
          refine .reset (hlost.trans hl)
            ⟨(st.assign ⟨.receive e, reused, missing⟩).resetToFreshSession uuid4, ?_, rfl⟩
          rw [next, hraised, Option.bind_some, handle, if_neg (by simp [assign, hf])]
          rfl
        · rw [if_neg hl] at hraised
          refine .leave (hlost.trans (by simpa using hl)) hs ?_
          rw [next, hraised, Option.bind_none]

/-- The loop is in session `id` and has not reset it. -/
structure In (id : String) (st : AttemptState) : Prop where
  current : st.currentResumeId = id
  unused : st.resumeFallbackUsed = false

theorem In.beginAttempt (h : In id st) (hid : id ≠ "")
    (ha : 1 < attempt) :
    In id (st.beginAttempt attempt) ∧ (st.beginAttempt attempt).options = { resume := some id } ∧
      (st.beginAttempt attempt).resumeInPlace = st.resumeInPlace := by
  have hb : st.beginAttempt attempt = { st with options := { resume := some id } } := by
    rw [AttemptState.beginAttempt, if_pos ha, rotate, h.current, truthy_some hid]
  rw [hb]
  exact ⟨⟨h.current, h.unused⟩, rfl, rfl⟩

theorem In.retried (h : In id st) (hid : id ≠ "") (hr : st.Retries entry uuid4 o) :
    ∃ st', st.next entry uuid4 o = some (st', none) ∧ In id st' ∧
      st'.resumeInPlace = (st.resumeInPlace || o.ending.queried) := by
  obtain ⟨st', hnext, hc, hu, hp⟩ := hr
  refine ⟨st', hnext, ⟨hc.trans h.current, hu⟩, ?_⟩
  rw [hp, h.current, truthy_some hid]
  simp

theorem attempts_leave (ha : attempt ≤ maxAttempts)
    (h : (st.beginAttempt attempt).next entry uuid4 o = none) (os : List AttemptOutcome) :
    st.attempts entry uuid4 attempt (o :: os) =
      [⟨(st.beginAttempt attempt).options, (st.beginAttempt attempt).submits o, none⟩] := by
  rw [attempts, if_neg (by omega)]
  simp only [h]

private theorem attempts_next {st' : AttemptState} {reset : Option String} (ha : attempt ≤ maxAttempts)
    (h : (st.beginAttempt attempt).next entry uuid4 o = some (st', reset))
    (os : List AttemptOutcome) : st.attempts entry uuid4 attempt (o :: os) =
      ⟨(st.beginAttempt attempt).options, (st.beginAttempt attempt).submits o, reset⟩ ::
        st'.attempts entry uuid4 (attempt + 1) os := by
  rw [attempts, if_neg (by omega)]
  simp only [h]

theorem attempts_over
    {os : List AttemptOutcome} (h : os = [] ∨ maxAttempts ≤ attempt) (st : AttemptState) :
    st.attempts entry uuid4 (attempt + 1) os = [] := by
  cases os with
  | nil => rfl
  | cons o os =>
    rcases h with h | h
    · cases h
    · rw [attempts, if_pos (by omega)]

theorem attempts_head (entry : EntryPoint) (uuid4 : Nat → String)
    (h : st.currentResumeId = id) (hid : id ≠ "")
    (h1 : 1 < attempt) (ha : attempt ≤ maxAttempts) (o : AttemptOutcome)
    (os : List AttemptOutcome) :
    ∃ b post, st.attempts entry uuid4 attempt (o :: os) = b :: post ∧ b.start.resume = some id := by
  have hb : (st.beginAttempt attempt).options = { resume := some id } := by
    rw [AttemptState.beginAttempt, if_pos h1, rotate, h, truthy_some hid]
  cases hn : (st.beginAttempt attempt).next entry uuid4 o with
  | none => exact ⟨_, _, attempts_leave ha hn os, by rw [hb]⟩
  | some p => exact ⟨_, _, attempts_next ha hn os, by rw [hb]⟩

end AttemptState

open AttemptState

/-- The later attempts of a call that keeps its session all resume it, submit the prompt at most
once, and not at all if the turn is already pending there. -/
structure Continues (id : String) (inPlace : Bool) (trace : List Attempt) : Prop where
  start : ∀ a ∈ trace, a.start = { resume := some id }
  submitted : trace.filterMap Attempt.submitted = [] ∨
    inPlace = false ∧ trace.filterMap Attempt.submitted = [id]
  reset : ∀ a ∈ trace.dropLast, a.reset = none

private theorem Continues.nil (id : String) (inPlace : Bool) : Continues id inPlace [] :=
  ⟨by simp, .inl rfl, by simp⟩

theorem Continues.cons {inPlace queried : Bool} {a : Attempt} {rest : List Attempt}
    (hs : a.start = { resume := some id })
    (hsub : a.submitted = if queried && !inPlace then some id else none)
    (hreset : a.reset = none ∨ rest = []) (hrest : Continues id (inPlace || queried) rest) :
    Continues id inPlace (a :: rest) := by
  refine ⟨?_, ?_, ?_⟩
  · intro b hb
    rcases List.mem_cons.mp hb with rfl | hb
    · exact hs
    · exact hrest.start b hb
  · rw [List.filterMap_cons, hsub]
    cases queried <;> cases inPlace <;> simpa using hrest.submitted
  · rcases hreset with hreset | rfl
    · cases rest with
      | nil => simp
      | cons b rest =>
        intro c hc
        rcases List.mem_cons.mp hc with rfl | hc
        · exact hreset
        · exact hrest.reset c hc
    · simp

private theorem submits_resumed
    (ho : st.options = { resume := some id }) (o : AttemptOutcome) :
    st.submits o = if o.ending.queried && !st.resumeInPlace then some id else none := by
  rw [submits, ho]
  rfl

theorem keepsSession_cons {os : List AttemptOutcome} :
    keepsSession entry uuid4 call attempt (o :: os) = true ↔ (os = [] ∨ maxAttempts ≤ attempt) ∨
      o.losesTarget entry (call.optionsAt uuid4 attempt) = false ∧
        (o.retried = true → (1 < attempt ∨ call.preassigned = false ∨ o.ending.queried = true) ∧
          keepsSession entry uuid4 call (attempt + 1) os = true) := by
  cases os with
  | nil => simp [keepsSession]
  | cons o' os =>
    rw [keepsSession]
    cases o.losesTarget entry (call.optionsAt uuid4 attempt) <;> cases o.retried <;>
      simp [or_assoc]

theorem continues_attempts (hcall : call.targetSessionId uuid4 = id) (hid : id ≠ "")
    (os : List AttemptOutcome) (h1 : 1 < attempt)
    (h : st.In id) (hk : keepsSession entry uuid4 call attempt os) :
    Continues id st.resumeInPlace (st.attempts entry uuid4 attempt os) := by
  induction os generalizing attempt st with
  | nil => exact .nil id _
  | cons o os ih =>
    by_cases ha : attempt ≤ maxAttempts
    · obtain ⟨hin, hopt, hplace⟩ := h.beginAttempt hid h1
      have hat : call.optionsAt uuid4 attempt = (st.beginAttempt attempt).options := by
        rw [RunCall.optionsAt, if_pos h1, hcall, hopt]
      have hsub := submits_resumed hopt o
      rw [hplace] at hsub
      rw [keepsSession_cons, hat] at hk
      cases next_cases entry uuid4 hin.unused o with
      | leave _ _ hn =>
        rw [attempts_leave ha hn]
        exact .cons hopt hsub (.inl rfl) (.nil id _)
      | reset hlost hn =>
        obtain ⟨st', hn, -⟩ := hn
        rw [attempts_next ha hn]
        rcases hk with hover | ⟨hkeep, -⟩
        · rw [attempts_over hover]
          exact .cons hopt hsub (.inr rfl) (.nil id _)
        · rw [hlost] at hkeep
          cases hkeep
      | retry _ hagain hn =>
        obtain ⟨st', hn, hin', hplace'⟩ := hin.retried hid hn
        rw [attempts_next ha hn]
        rcases hk with hover | ⟨-, hk⟩
        · rw [attempts_over hover]
          exact .cons hopt hsub (.inr rfl) (.nil id _)
        · have hrest := ih (by omega) hin' (hk hagain).2
          rw [hplace', hplace] at hrest
          exact .cons hopt hsub (.inl rfl) hrest
    · rw [attempts, if_pos (by omega)]
      exact .nil id _

theorem resumes_fresh_id (hu : ∀ n, uuid4 n ≠ "") (hcall : call.targetSessionId uuid4 = id)
    (hid : id ≠ "") (os : List AttemptOutcome)
    (h1 : 1 < attempt) (ha : attempt ≤ maxAttempts) (h : st.In id)
    (hk : keepsSession entry uuid4 call attempt os = false) :
    ∃ pre a b post fresh, st.attempts entry uuid4 attempt os = pre ++ a :: b :: post ∧
      a.reset = some fresh ∧ b.start.resume = some fresh := by
  induction os generalizing attempt st with
  | nil => simp [keepsSession] at hk
  | cons o os ih =>
    obtain ⟨hin, hopt, hplace⟩ := h.beginAttempt hid h1
    have hat : call.optionsAt uuid4 attempt = (st.beginAttempt attempt).options := by
      rw [RunCall.optionsAt, if_pos h1, hcall, hopt]
    have hk := mt keepsSession_cons.mpr (Bool.eq_false_iff.mp hk)
    rw [hat, not_or, not_or, not_le] at hk
    obtain ⟨⟨hne, hlt⟩, hk⟩ := hk
    obtain ⟨o', os, rfl⟩ := List.exists_cons_of_ne_nil hne
    cases next_cases entry uuid4 hin.unused o with
    | leave hkept hover hn => exact absurd ⟨hkept, by simp [hover]⟩ hk
    | reset hlost hn =>
      obtain ⟨st', hn, hc⟩ := hn
      obtain ⟨b, post, hb, hr⟩ := attempts_head entry uuid4 hc (hu _)
        (by omega : 1 < attempt + 1) (by omega) o' os
      exact ⟨[], _, b, post, _, by rw [attempts_next ha hn, hb]; rfl, rfl, hr⟩
    | retry hkept hagain hn =>
      obtain ⟨st', hn, hin', -⟩ := hin.retried hid hn
      have hrest : keepsSession entry uuid4 call (attempt + 1) (o' :: os) = false := by
        by_contra hne
        exact hk ⟨hkept, fun _ => ⟨.inl h1, by simpa using hne⟩⟩
      obtain ⟨pre, a, b, post, fresh, heq, hreset⟩ := ih (by omega) (by omega) hin' hrest
      exact ⟨_ :: pre, a, b, post, fresh, by rw [attempts_next ha hn, heq]; rfl, hreset⟩

namespace RunCall

variable {uuid4 : Nat → String} {call : RunCall}

theorem start_in (uuid4 : Nat → String) (call : RunCall) :
    (call.start uuid4).In (call.targetSessionId uuid4) := ⟨rfl, rfl⟩

theorem target_ne_empty (hf : FreshIds uuid4 call) : call.targetSessionId uuid4 ≠ "" := by
  unfold targetSessionId
  cases hn : truthy call.newSessionId with
  | some id => exact truthy_ne_empty hn
  | none =>
    dsimp only
    split
    · exact hf.nonempty 0
    · rename_i hp
      cases hs : call.sessionId with
      | none => simp [preassigned, hs] at hp
      | some id =>
        have := hf.existing
        rw [hs] at this
        simpa using this

/-- `new_session_id` is only accepted for a new or forked session. -/
def Accepted (call : RunCall) : Prop := truthy call.newSessionId = none ∨ call.preassigned

theorem target_of_resumed (uuid4 : Nat → String) (ha : call.Accepted) (hp : call.preassigned = false) :
    call.sessionId = some (call.targetSessionId uuid4) := by
  rcases ha with ha | ha
  · rw [targetSessionId, ha, hp]
    cases hs : call.sessionId with
    | none => simp [preassigned, hs] at hp
    | some id => rfl
  · rw [hp] at ha
    cases ha

theorem options_transcript (hf : FreshIds uuid4 call) (ha : call.Accepted) :
    (call.options uuid4).transcript = some (call.targetSessionId uuid4) := by
  cases hp : call.preassigned with
  | true => simp [options, SessionOptions.transcript, hp]
  | false =>
    have hs := target_of_resumed uuid4 ha hp
    simp only [options, SessionOptions.transcript, hp, Bool.false_eq_true, if_false]
    rw [hs, truthy_some (target_ne_empty hf)]

end RunCall

theorem sessionSound_cons (hf : FreshIds uuid4 call)
    (hc : call.Accepted) {queried : Bool} {a : Attempt} {rest : List Attempt}
    (hs : a.start = call.options uuid4)
    (hsub : a.submitted = if queried then some (call.targetSessionId uuid4) else none)
    (hreset : a.reset = none ∨ rest = [])
    (hrest : Continues (call.targetSessionId uuid4) queried rest)
    (hq : rest = [] ∨ call.preassigned = false ∨ queried) : SessionSound call (a :: rest) := by
  refine ⟨?_, ?_, ?_, ?_⟩
  · intro pre b post heq id hid
    cases pre with
    | nil =>
      obtain ⟨rfl, -⟩ := List.cons.inj heq
      rw [hs] at hid
      left
      cases hsid : call.sessionId with
      | none => simp [RunCall.options, hsid] at hid
      | some s =>
        have hne : s ≠ "" := by
          have := hf.existing
          rw [hsid] at this
          simpa using this
        simpa [RunCall.options, hsid, truthy_some hne] using hid
    | cons b' pre =>
      obtain ⟨rfl, hrest'⟩ := List.cons.inj heq
      have hb : b ∈ rest := by rw [hrest']; simp
      have htarget : call.targetSessionId uuid4 = id := by
        rw [hrest.start b hb] at hid
        exact Option.some.inj hid
      rcases hq with rfl | hp | hq
      · cases hb
      · exact .inl (htarget ▸ RunCall.target_of_resumed uuid4 hc hp)
      · exact .inr ⟨a, by simp, by rw [hsub, hq, ← htarget]; rfl⟩
  · intro pre b c post heq id hid
    -- a reset that is followed by an attempt contradicts both `hreset` and `hrest.reset`
    exfalso
    cases pre with
    | nil =>
      obtain ⟨rfl, rfl⟩ := List.cons.inj heq
      rcases hreset with hreset | hreset
      · rw [hid] at hreset
        cases hreset
      · cases hreset
    | cons b' pre =>
      obtain ⟨rfl, rfl⟩ := List.cons.inj heq
      have hb : b ∈ (pre ++ b :: c :: post).dropLast := by
        rw [List.dropLast_append_of_ne_nil (by simp)]
        simp
      have := hrest.reset b hb
      rw [hid] at this
      cases this
  · intro source hsource hfork pre b post heq hnone
    have hp : call.preassigned = true := by simp [RunCall.preassigned, hfork]
    have hne : source ≠ "" := by
      have := hf.existing
      rw [hsource] at this
      simpa using this
    cases pre with
    | nil =>
      obtain ⟨rfl, -⟩ := List.cons.inj heq
      rw [hs]
      simp [RunCall.options, hsource, truthy_some hne, hfork]
    | cons b' pre =>
      obtain ⟨rfl, hrest'⟩ := List.cons.inj heq
      rcases hq with rfl | hp' | hq
      · simp at hrest'
      · rw [hp] at hp'
        cases hp'
      · have := (hnone a (by simp)).1
        rw [hsub, hq] at this
        cases this
  · rw [List.filterMap_cons, hsub]
    rcases hrest.submitted with hnone | ⟨hplace, hone⟩
    · cases queried <;> simp [hnone]
    · simp [hplace, hone]

theorem SessionSound.nil (call : RunCall) : SessionSound call [] := by
  refine ⟨?_, ?_, ?_, List.nodup_nil⟩
  · intro pre a post heq
    simp at heq
  · intro pre a b post heq
    simp at heq
  · intro source _ _ pre a post heq
    simp at heq

theorem sessionSound_iff
    (hf : FreshIds uuid4 call) (hc : call.Accepted) (os : List AttemptOutcome) :
    SessionSound call ((call.start uuid4).attempts entry uuid4 1 os) ↔
      keepsSession entry uuid4 call 1 os = true := by
  cases os with
  | nil => exact ⟨fun _ => rfl, fun _ => .nil call⟩
  | cons o os =>
    have h1 : 1 ≤ maxAttempts := by decide
    have hid := RunCall.target_ne_empty hf
    have hin := RunCall.start_in uuid4 call
    have hbegin : (call.start uuid4).beginAttempt 1 = call.start uuid4 := rfl
    have hat : call.optionsAt uuid4 1 = (call.start uuid4).options := rfl
    have hsub : (call.start uuid4).submits o =
        if o.ending.queried then some (call.targetSessionId uuid4) else none := by
      rw [submits]
      show (if o.ending.queried && !false then (call.options uuid4).transcript else none) = _
      rw [RunCall.options_transcript hf hc]
      simp
    rw [keepsSession_cons, hat]
    cases next_cases entry uuid4 hin.unused o with
    | leave hkept hover hn =>
      rw [← hbegin] at hn
      rw [attempts_leave h1 hn]
      refine ⟨fun _ => .inr ⟨hkept, by simp [hover]⟩, fun _ => ?_⟩
      exact sessionSound_cons hf hc rfl hsub (.inl rfl) (.nil _ _) (.inl rfl)
    | reset hlost hn =>
      obtain ⟨st', hn, hcur⟩ := hn
      rw [← hbegin] at hn
      rw [attempts_next h1 hn]
      constructor
      · intro hsound
        left
        by_contra hmore
        rw [not_or, not_le] at hmore
        obtain ⟨o', os, rfl⟩ := List.exists_cons_of_ne_nil hmore.1
        obtain ⟨b, post, hb, hr⟩ := attempts_head entry uuid4 hcur (hf.nonempty _)
          (by omega : 1 < 1 + 1) (by omega) o' os
        rw [hb] at hsound
        have hnone := (hsound.restarts [] _ b post rfl _ rfl).2
        rw [hr] at hnone
        cases hnone
      · rintro (hover | ⟨hkept, -⟩)
        · rw [attempts_over hover]
          exact sessionSound_cons hf hc rfl hsub (.inr rfl) (.nil _ _) (.inl rfl)
        · rw [hlost] at hkept
          cases hkept
    | retry hkept hagain hn =>
      obtain ⟨st', hn, hin', hplace⟩ := hin.retried hid hn
      have hplace : st'.resumeInPlace = o.ending.queried := hplace
      rw [← hbegin] at hn
      rw [attempts_next h1 hn]
      constructor
      · intro hsound
        by_contra hmore
        rw [not_or, not_or, not_le] at hmore
        obtain ⟨⟨hne, hlt⟩, hmore⟩ := hmore
        obtain ⟨o', os, rfl⟩ := List.exists_cons_of_ne_nil hne
        -- the retry resumes the target, so that session must exist by now
        have hcond : call.preassigned = false ∨ o.ending.queried = true := by
          obtain ⟨b, post, hb, hr⟩ := attempts_head entry uuid4 hin'.current hid
            (by omega : 1 < 1 + 1) (by omega) o' os
          rw [hb] at hsound
          rcases hsound.resumes [_] b post rfl _ hr with hs | ⟨a, ha, hs⟩
          · left
            by_contra hp
            exact hf.preassigned (by simpa using hp) hs
          · right
            rw [List.mem_singleton.mp ha] at hs
            by_contra hq
            simp [hbegin, hsub, hq] at hs
        have hrest : keepsSession entry uuid4 call (1 + 1) (o' :: os) = false := by
          by_contra hk
          exact hmore ⟨hkept, fun _ => ⟨.inr hcond, by simpa using hk⟩⟩
        obtain ⟨pre, a, b, post, fresh, heq, hreset, hr⟩ := resumes_fresh_id hf.nonempty rfl hid
          (o' :: os) (by omega) (by omega) hin' hrest
        rw [heq] at hsound
        have hnone := (hsound.restarts (_ :: pre) a b post rfl _ hreset).2
        rw [hr] at hnone
        cases hnone
      · rintro (hover | ⟨-, hk⟩)
        · rw [attempts_over hover]
          exact sessionSound_cons hf hc rfl hsub (.inl rfl) (.nil _ _) (.inl rfl)
        · obtain ⟨hq, hk⟩ := hk hagain
          have hrest := continues_attempts rfl hid os (by omega) hin' hk
          rw [hplace] at hrest
          refine sessionSound_cons hf hc rfl hsub (.inl rfl) hrest (.inr ?_)
          rcases hq with hq | hq
          · omega
          · exact hq

/-- The attempts of a call are sound exactly if its session is kept. -/
theorem sessionSound_iff_keepsSession (uuid4 : Nat → String) (call : RunCall)
    (os : List AttemptOutcome) (hf : FreshIds uuid4 call) :
    (∀ trace, agentRunEvents uuid4 call os = .ok trace →
      (SessionSound call trace ↔ keepsSession .agentRunEvents uuid4 call 1 os = true)) ∧
    (call.newSessionId = none → (SessionSound call (agentRun uuid4 call.sessionId call.forkSession os) ↔
        keepsSession .agentRun uuid4 call 1 os = true)) := by
  constructor
  · intro trace htrace
    unfold agentRunEvents at htrace
    split at htrace <;> cases htrace
    rename_i hreject
    refine sessionSound_iff hf ?_ os
    cases hn : truthy call.newSessionId with
    | none => exact .inl hn
    | some id =>
      right
      cases hs : call.sessionId with
      | none => simp [RunCall.preassigned, hs]
      | some s =>
        have hne : s ≠ "" := by
          have := hf.existing
          rw [hs] at this
          simpa using this
        simpa [RunCall.preassigned, hn, hs, truthy_some hne] using hreject
  · intro hnew
    have hcall : call = { sessionId := call.sessionId, forkSession := call.forkSession } := by
      cases call
      cases hnew
      rfl
    have hc : call.Accepted := .inl (by rw [hnew]; rfl)
    rw [agentRun, ← hcall]
    exact sessionSound_iff hf hc os

def sampleUuid4 : Nat → String
  | 0 => "1b4e28ba-2fa1-41d2-883f-0016d3cca427"
  | _ => "6fa459ea-ee8a-4ca4-894e-db77e160355e"

/-- The CLI process does not come up, and the next attempt is a clean turn. -/
def reconnect : List AttemptOutcome :=
  [{ ending := .connect (.exception (.other "ProcessError")) }, { ending := .completed }]

/-- A resumed session survives a failed connect. -/
theorem sessionSound_reconnect :
    keepsSession .agentRunEvents sampleUuid4 { sessionId := some "s1" } 1 reconnect = true ∧
      SessionSound { sessionId := some "s1" } (agentRun sampleUuid4 (some "s1") false reconnect) := by
  have hf : FreshIds sampleUuid4 { sessionId := some "s1" } := by
    refine ⟨?_, by decide, by decide⟩
    intro n
    cases n with
    | zero => decide
    | succ n => simp [sampleUuid4]
  have h := sessionSound_iff_keepsSession sampleUuid4 { sessionId := some "s1" } reconnect hf
  exact ⟨by decide, (h.2 rfl).mpr (by decide)⟩

/-- A new session whose first connect fails is resumed although it was never created. -/
theorem reconnect_resumes_missing_session :
    ∃ trace, agentRunEvents sampleUuid4 {} reconnect = .ok trace ∧ ¬SessionSound {} trace := by
  refine ⟨_, rfl, ?_⟩
  intro h
  have hr := h.resumes [_] _ [] rfl (sampleUuid4 0) rfl
  simp at hr
  cases hr

end PrivaCloud.AgentRunner
