import Mathlib.Logic.Function.Basic
import PrivaCloud.Framework.Run

/-!
# Dry runs of hooks

`test_hook` and `_communicate_bounded`: a feeder and two drains share the pipes of a child process, under a
limit on the output and a timeout. Durations are left out.
-/

namespace PrivaCloud.AgentRunner.HookDryRun

open Framework

abbrev Bytes := List UInt8
abbrev Text := List Char

def defaultHookTimeout : Nat := 30
def maxHookTimeout : Nat := 300
def maxHookOutputBytes : Nat := 256 * 1024

inductive HandlerType
  | command
  | http
  | mcpTool
  deriving DecidableEq

def HandlerType.repr : HandlerType → String
  | .command => "'command'"
  | .http => "'http'"
  | .mcpTool => "'mcp_tool'"

structure HookHandler where
  type : HandlerType
  command : Option String
  timeout : Nat

structure HookTestResponse where
  exitCode : Int
  stdout : Text
  stderr : Text
  deriving DecidableEq

inductive Child
  | absent
  | running
  /-- by itself -/
  | exited (code : Int)
  | killed
  deriving DecidableEq

/-- What the loop reports for a child that is gone -/
def Child.status : Child → Option Int
  | .absent | .running => none
  | .exited code => some code
  | .killed => some (-9)

inductive Stream
  | stdout
  | stderr
  deriving DecidableEq

/-- A pipe from the child and its `_drain` -/
structure Drain where
  /-- written by the child, not yet read -/
  pipe : Bytes := []
  written : Nat := 0
  closed : Bool := false
  out : Bytes := []
  done : Bool := false

structure DryRun where
  timeout : Nat
  child : Child
  returncode : Option Int := none
  /-- The child has read so much of its input that `drain` returns, or has closed it. -/
  stdinTaken : Bool := false
  fed : Bool := false
  drains : Stream → Drain := fun _ => {}
  /-- `asyncio.gather` has returned and `_kill` has been called. -/
  gathered : Bool := false
  response : Option HookTestResponse := none

inductive DryRunEvent
  | write (stream : Stream) (chunk : Bytes)
  | close (stream : Stream)
  | takeStdin
  | exit (code : Int)
  | feed
  /-- `stream.read(8192)` returns `n` bytes, or none at the end of the file. -/
  | read (stream : Stream) (n : Nat)
  | gather
  /-- The loop learns of the end of the child. -/
  | reap
  | finish
  | timeout

/-- The steps of `test_hook` and of the loop, the timeout apart -/
def DryRunEvent.isOwn : DryRunEvent → Bool
  | .feed | .read .. | .gather | .reap | .finish => true
  | .write .. | .close _ | .takeStdin | .exit _ | .timeout => false

namespace DryRun

def failed (stderr : String) : DryRun :=
  { timeout := 0, child := .absent, response := some ⟨-1, [], stderr.toList⟩ }

/-- Up to the call of `_communicate_bounded`; the command may fail to start. -/
def testHook (handler : HookHandler) (spawn : Except String Unit) : DryRun :=
  if handler.type ≠ .command then
    failed ("Dry-run is only supported for command hooks (got type=" ++ handler.type.repr ++ ")")
  else if (handler.command.getD "") = "" then failed "No command specified"
  else
    match spawn with
    | .error exc => failed exc
    | .ok () =>
      { timeout := min (if handler.timeout = 0 then defaultHookTimeout else handler.timeout) maxHookTimeout
        child := .running }

variable (decode : Bytes → Text) (s : DryRun)

def kill : DryRun :=
  if s.returncode = none ∧ s.child = .running then { s with child := .killed } else s

def setDrain (stream : Stream) (d : Drain) : DryRun := { s with drains := Function.update s.drains stream d }

/-- One turn of the loop of `_drain`, and what follows the loop -/
def readChunk (stream : Stream) (n : Nat) : Option DryRun :=
  let d := s.drains stream
  if d.pipe = [] then
    if d.closed ∨ s.child ≠ .running then some (s.setDrain stream { d with done := true }) else none
  else if 1 ≤ n ∧ n ≤ 8192 ∧ n ≤ d.pipe.length then
    let out := d.out ++ d.pipe.take n
    let d' := { d with pipe := d.pipe.drop n, out := out, done := maxHookOutputBytes < out.length }
    some (if maxHookOutputBytes < out.length then (s.setDrain stream d').kill else s.setDrain stream d')
  else none

def output (stream : Stream) : Text := (decode ((s.drains stream).out.take (maxHookOutputBytes + 1))).take 10000

def step (s : DryRun) : DryRunEvent → Option DryRun
  | .write stream chunk =>
    let d := s.drains stream
    if s.child = .running ∧ d.closed = false then
      some (s.setDrain stream { d with pipe := d.pipe ++ chunk, written := d.written + chunk.length })
    else none
  | .close stream =>
    if s.child = .running then some (s.setDrain stream { s.drains stream with closed := true }) else none
  | .takeStdin => if s.child = .running then some { s with stdinTaken := true } else none
  | .exit code => if s.child = .running then some { s with child := .exited code } else none
  | .feed =>
    if s.response = none ∧ s.fed = false ∧ (s.stdinTaken ∨ s.child ≠ .running) then some { s with fed := true } else none
  | .read stream n => if s.response = none ∧ (s.drains stream).done = false then s.readChunk stream n else none
  | .gather =>
    if s.response = none ∧ s.gathered = false ∧ s.fed ∧ (s.drains .stdout).done ∧ (s.drains .stderr).done then
      some { s.kill with gathered := true }
    else none
  | .reap =>
    if s.returncode = none ∧ s.child.status ≠ none then some { s with returncode := s.child.status } else none
  | .finish =>
    if s.response = none ∧ s.gathered then
      s.returncode.map fun code =>
        { s with response := some ⟨code, s.output decode .stdout, s.output decode .stderr⟩ }
    else none
  | .timeout =>
    if s.response = none then
      some { s with response := some ⟨-1, [], ("Hook timed out after " ++ toString s.timeout ++ "s").toList⟩ }
    else none

def Exceeded : Prop := ∃ stream, maxHookOutputBytes < (s.drains stream).written

instance : Decidable s.Exceeded :=
  decidable_of_iff
    (maxHookOutputBytes < (s.drains .stdout).written ∨ maxHookOutputBytes < (s.drains .stderr).written)
    ⟨fun h => h.elim (fun h => ⟨_, h⟩) fun h => ⟨_, h⟩, fun ⟨stream, h⟩ => by
      cases stream with
      | stdout => exact .inl h
      | stderr => exact .inr h⟩

/-- When the code returns the child is gone, and one that went by itself within the limit is reported. -/
structure Ended (s : DryRun) : Prop where
  gone : s.response ≠ none → s.child ≠ .running
  buffered : ∀ stream, (s.drains stream).out.length ≤ maxHookOutputBytes + 8192
  reported : ∀ r code, s.response = some r → s.child = .exited code → ¬ s.Exceeded → r.exitCode = code

/-- The timeout makes the code return; once the child is gone or has written too much, the code has a step to take
until it returns. -/
def Proceeds : Prop :=
  s.response = none → (∃ s', step decode s .timeout = some s' ∧ s'.response ≠ none) ∧
    (s.child ≠ .running ∨ s.Exceeded → ∃ e : DryRunEvent, e.isOwn = true ∧ ∃ s', step decode s e = some s')

/-- The timeout fires only when the child has been killed, or is gone after it wrote too much. -/
def Careful : DryRunEvent → Prop
  | .timeout => s.child = .killed ∨ s.child ≠ .running ∧ s.Exceeded
  | _ => True

instance (e : DryRunEvent) : Decidable (s.Careful e) := by
  cases e <;> unfold Careful <;> infer_instance

variable {s s' : DryRun} {decode : Bytes → Text}

/-- What was written is read or still in the pipe, and a drain that is done has killed the child or has come to the
end of the file. -/
structure Tidy (running : Prop) (d : Drain) : Prop where
  counted : d.out.length + d.pipe.length = d.written
  short : d.done = false → d.out.length ≤ maxHookOutputBytes
  bounded : d.out.length ≤ maxHookOutputBytes + 8192
  ended : d.done = true → maxHookOutputBytes < d.out.length ∧ ¬ running ∨
    d.out.length ≤ maxHookOutputBytes ∧ d.pipe = [] ∧ (d.closed = true ∨ ¬ running)

theorem Tidy.mono {running running' : Prop} {d : Drain} (h : Tidy running d) (himp : running' → running) :
    Tidy running' d := by
  refine ⟨h.counted, h.short, h.bounded, fun hdone => ?_⟩
  rcases h.ended hdone with ⟨hover, hdead⟩ | ⟨hunder, hempty, hend⟩
  · exact .inl ⟨hover, fun hrun => hdead (himp hrun)⟩
  · exact .inr ⟨hunder, hempty, hend.imp_right fun hdead hrun => hdead (himp hrun)⟩

structure Inv (s : DryRun) : Prop where
  drains : ∀ stream, Tidy (s.child = .running) (s.drains stream)
  gathered : s.gathered = true → s.fed = true ∧ (∀ stream, (s.drains stream).done = true) ∧ s.child ≠ .running
  reaped : ∀ code, s.returncode = some code → s.child.status = some code
  answered : ∀ r, s.response = some r → s.child ≠ .running ∧
    ∀ code, s.child = .exited code → ¬ s.Exceeded → r.exitCode = code
  present : s.child = .absent → s.response ≠ none

theorem Inv.kill_child (h : s.Inv) : s.kill.child ≠ .running := by
  unfold kill
  split
  · simp
  · rename_i hnot
    intro hrun
    refine hnot ⟨Option.eq_none_iff_forall_ne_some.mpr fun code hcode => ?_, hrun⟩
    have hstatus := h.reaped code hcode
    rw [hrun] at hstatus
    cases hstatus

theorem Inv.over (h : s.Inv) (hrun : s.child = .running) {child : Child} (hchild : child.status ≠ none) :
    Inv { s with child := child } := by
  have hgone : child ≠ .running := by
    rintro rfl
    exact hchild rfl
  refine ⟨fun stream => (h.drains stream).mono fun h => absurd h hgone, fun hg => absurd hrun (h.gathered hg).2.2,
    fun code hcode => ?_, fun r hr => absurd hrun (h.answered r hr).1, ?_⟩
  swap
  · rintro rfl
    exact absurd rfl hchild
  have hstatus := h.reaped code hcode
  rw [hrun] at hstatus
  cases hstatus

theorem Inv.kill (h : s.Inv) : s.kill.Inv := by
  unfold DryRun.kill
  split
  · rename_i hlive
    exact h.over hlive.2 nofun
  · exact h

theorem Inv.setDrain (h : s.Inv) {stream : Stream} {d : Drain} (hd : Tidy (s.child = .running) d)
    (hg : s.gathered = true → d.done = true) (hanswer : s.response = none ∨ s.child = .running) :
    (s.setDrain stream d).Inv := by
  refine ⟨fun other => ?_, fun hgathered => ?_, h.reaped, fun r hr => ?_, h.present⟩
  · by_cases hother : other = stream
    · rw [hother]
      simpa [DryRun.setDrain] using hd
    · simpa [DryRun.setDrain, hother] using h.drains other
  · obtain ⟨hfed, hdone, hchild⟩ := h.gathered hgathered
    refine ⟨hfed, fun other => ?_, hchild⟩
    by_cases hother : other = stream
    · rw [hother]
      simpa [DryRun.setDrain] using hg hgathered
    · simpa [DryRun.setDrain, hother] using hdone other
  · rcases hanswer with hnone | hrun
    · cases hnone.symm.trans hr
    · exact absurd hrun (h.answered r hr).1

/-- How many more steps the code can take for a drain -/
def left (d : Drain) : Nat := if d.done then 0 else maxHookOutputBytes + 2 - d.out.length

/-- The steps to take that are no reads -/
def phases (s : DryRun) : Nat :=
  (if s.fed then 0 else 1) + (if s.gathered then 0 else 1) + (if s.returncode = none then 1 else 0) +
    (if s.response = none then 1 else 0)

def work (s : DryRun) : Nat := s.phases + left (s.drains .stdout) + left (s.drains .stderr)

theorem kill_eq (s : DryRun) : s.kill = { s with child := s.kill.child } := by
  unfold kill
  split
  · rfl
  · rfl

@[simp] theorem kill_fed : s.kill.fed = s.fed := by rw [kill_eq]
@[simp] theorem kill_drains : s.kill.drains = s.drains := by rw [kill_eq]
@[simp] theorem kill_returncode : s.kill.returncode = s.returncode := by rw [kill_eq]
@[simp] theorem kill_gathered : s.kill.gathered = s.gathered := by rw [kill_eq]
@[simp] theorem kill_response : s.kill.response = s.response := by rw [kill_eq]

theorem work_kill : s.kill.work = s.work := by
  rw [kill_eq]
  rfl

theorem kill_setDrain (stream : Stream) (d : Drain) : (s.setDrain stream d).kill = s.kill.setDrain stream d := by
  by_cases hlive : s.returncode = none ∧ s.child = .running
  · rw [show s.kill = _ from if_pos hlive]
    exact if_pos hlive
  · rw [show s.kill = _ from if_neg hlive]
    exact if_neg hlive

theorem work_setDrain (stream : Stream) (d : Drain) :
    (s.setDrain stream d).work + left (s.drains stream) = s.work + left d := by
  have hphases : (s.setDrain stream d).phases = s.phases := rfl
  rw [work, work, hphases]
  cases stream with
  | stdout =>
    simp [setDrain]
    omega
  | stderr =>
    simp [setDrain]
    omega

theorem Inv.readChunk (h : s.Inv) {stream : Stream} {n : Nat} (hopen : (s.drains stream).done = false)
    (hnone : s.response = none) (hs : s.readChunk stream n = some s') : s'.Inv ∧ s'.work < s.work := by
  have htidy := h.drains stream
  have hshort := htidy.short hopen
  have hcounted := htidy.counted
  have hleft : left (s.drains stream) = maxHookOutputBytes + 2 - (s.drains stream).out.length := by simp [left, hopen]
  have hlive : ∀ d : Drain, s.gathered = true → d.done = true := fun d hg => by
    have hdone := (h.gathered hg).2.1 stream
    rw [hopen] at hdone
    cases hdone
  simp only [DryRun.readChunk] at hs
  split at hs
  · rename_i hempty
    split at hs <;> cases hs
    rename_i hend
    refine ⟨h.setDrain ⟨hcounted, nofun, htidy.bounded, fun _ => .inr ⟨hshort, hempty, hend⟩⟩ (hlive _) (.inl hnone), ?_⟩
    have hwork := work_setDrain (s := s) stream { s.drains stream with done := true }
    simp only [left, if_true] at hwork hleft
    omega
  · split at hs <;> cases hs
    rename_i hn
    generalize hd' : ({ pipe := _, written := _, closed := _, out := _, done := _ } : Drain) = d'
    have hout : d'.out.length = (s.drains stream).out.length + n := by
      rw [← hd', List.length_append, List.length_take]
      omega
    have hpipe : d'.pipe.length = (s.drains stream).pipe.length - n := by
      rw [← hd', List.length_drop]
    have hwritten : d'.written = (s.drains stream).written := by rw [← hd']
    have hdone : d'.done = decide (maxHookOutputBytes < d'.out.length) := by rw [← hd']
    have heq : (s.drains stream).out ++ (s.drains stream).pipe.take n = d'.out := by rw [← hd']
    have htidy' : ∀ running : Prop, (maxHookOutputBytes < d'.out.length → ¬ running) → Tidy running d' := by
      intro running hdead
      refine ⟨by omega, fun hd => ?_, by omega, fun hd => .inl ?_⟩
      · rw [hdone, decide_eq_false_iff_not] at hd
        omega
      · rw [hdone, decide_eq_true_iff] at hd
        exact ⟨hd, hdead hd⟩
    have hwork := work_setDrain (s := s) stream d'
    rw [hleft, left, hdone] at hwork
    rw [heq]
    split
    · rename_i hover
      simp only [hover, decide_true, if_true] at hwork
      refine ⟨?_, by rw [work_kill]; omega⟩
      rw [kill_setDrain]
      exact h.kill.setDrain (htidy' _ fun _ => h.kill_child) (fun hg => hlive _ (kill_gathered ▸ hg))
        (.inl (kill_response.trans hnone))
    · rename_i hunder
      simp only [hunder, decide_false, Bool.false_eq_true, if_false] at hwork
      exact ⟨h.setDrain (htidy' _ fun hover => absurd hover hunder) (hlive _) (.inl hnone), by omega⟩

theorem Inv.step (h : s.Inv) {e : DryRunEvent} (hc : s.Careful e) (hs : step decode s e = some s') :
    s'.Inv ∧ s'.work + (if e.isOwn then 1 else 0) ≤ s.work := by
  cases e with
  | write stream chunk =>
    simp only [DryRun.step] at hs
    split at hs <;> cases hs
    rename_i hlive
    have htidy := h.drains stream
    have hwork := work_setDrain (s := s) stream
      { s.drains stream with pipe := (s.drains stream).pipe ++ chunk,
                             written := (s.drains stream).written + chunk.length }
    refine ⟨h.setDrain ⟨?_, htidy.short, htidy.bounded, fun hdone => ?_⟩ (fun hg => (h.gathered hg).2.1 stream)
      (.inr hlive.1), ?_⟩
    · have hcounted := htidy.counted
      simp only [List.length_append]
      omega
    · -- a drain whose pipe is open and whose child lives is not done
      rcases htidy.ended hdone with ⟨-, hdead⟩ | ⟨-, -, hclosed | hdead⟩
      · exact absurd hlive.1 hdead
      · rw [hlive.2] at hclosed
        cases hclosed
      · exact absurd hlive.1 hdead
    · simp only [left, DryRunEvent.isOwn] at hwork ⊢
      simp only [Bool.false_eq_true, if_false]
      omega
  | close stream =>
    simp only [DryRun.step] at hs
    split at hs <;> cases hs
    rename_i hlive
    have htidy := h.drains stream
    have hwork := work_setDrain (s := s) stream { s.drains stream with closed := true }
    refine ⟨h.setDrain ⟨htidy.counted, htidy.short, htidy.bounded, fun hdone => ?_⟩
      (fun hg => (h.gathered hg).2.1 stream) (.inr hlive), ?_⟩
    · exact (htidy.ended hdone).imp_right fun ⟨hunder, hempty, _⟩ => ⟨hunder, hempty, .inl rfl⟩
    · simp only [left, DryRunEvent.isOwn] at hwork ⊢
      simp only [Bool.false_eq_true, if_false]
      omega
  | takeStdin =>
    simp only [DryRun.step] at hs
    split at hs <;> cases hs
    exact ⟨⟨h.drains, h.gathered, h.reaped, h.answered, h.present⟩, Nat.le_refl _⟩
  | exit code =>
    simp only [DryRun.step] at hs
    split at hs <;> cases hs
    rename_i hlive
    exact ⟨h.over hlive nofun, Nat.le_refl _⟩
  | feed =>
    simp only [DryRun.step] at hs
    split at hs <;> cases hs
    rename_i hopen
    refine ⟨⟨h.drains, fun hg => ⟨rfl, (h.gathered hg).2⟩, h.reaped, h.answered, h.present⟩, ?_⟩
    simp only [work, phases, ↓reduceIte, Nat.zero_add, DryRunEvent.isOwn, hopen.2.1, Bool.false_eq_true]
    omega
  | read stream n =>
    simp only [DryRun.step] at hs
    split at hs
    · rename_i hopen
      obtain ⟨hinv, hwork⟩ := h.readChunk hopen.2 hopen.1 hs
      exact ⟨hinv, hwork⟩
    · cases hs
  | gather =>
    simp only [DryRun.step] at hs
    split at hs
    · rename_i hopen
      obtain ⟨-, hgathered, hfed, hout, herr⟩ := hopen
      cases hs
      refine ⟨⟨h.kill.drains, fun _ => ⟨kill_fed.trans hfed, fun stream => ?_, h.kill_child⟩, h.kill.reaped,
        h.kill.answered, h.kill.present⟩, ?_⟩
      · change (s.kill.drains stream).done = true
        rw [kill_drains]
        cases stream with
        | stdout => exact hout
        | stderr => exact herr
      · simp only [work, phases, kill_fed, ↓reduceIte, Nat.add_zero, kill_returncode, kill_response, kill_drains,
          DryRunEvent.isOwn, hgathered, Bool.false_eq_true]
        omega
    · cases hs
  | reap =>
    simp only [DryRun.step] at hs
    split at hs <;> cases hs
    rename_i hopen
    refine ⟨⟨h.drains, h.gathered, fun code hcode => hcode, h.answered, h.present⟩, ?_⟩
    simp only [work, phases, hopen.2, ↓reduceIte, Nat.add_zero, DryRunEvent.isOwn, hopen.1]
    omega
  | finish =>
    simp only [DryRun.step] at hs
    split at hs
    · rename_i hopen
      obtain ⟨code, hcode, rfl⟩ := Option.map_eq_some_iff.mp hs
      have hstatus := h.reaped code hcode
      refine ⟨⟨h.drains, h.gathered, h.reaped, fun r hr => ⟨(h.gathered hopen.2).2.2, fun own hown _ => ?_⟩, nofun⟩, ?_⟩
      · cases hr
        rw [hown] at hstatus
        exact (Option.some.inj hstatus).symm
      · simp only [work, phases, reduceCtorEq, ↓reduceIte, Nat.add_zero, DryRunEvent.isOwn, hopen.1]
        omega
    · cases hs
  | timeout =>
    simp only [DryRun.step] at hs
    split at hs <;> cases hs
    rename_i hnone
    refine ⟨⟨h.drains, h.gathered, h.reaped, fun r hr => ?_, nofun⟩, ?_⟩
    · rcases hc with hkilled | ⟨hgone, hover⟩
      · refine ⟨by simp [hkilled], fun code hcode => ?_⟩
        cases hkilled.symm.trans hcode
      · exact ⟨hgone, fun _ _ hunder => absurd hover hunder⟩
    · simp [work, phases, hnone, DryRunEvent.isOwn]

theorem inv_testHook (handler : HookHandler) (spawn : Except String Unit) : (testHook handler spawn).Inv := by
  have htidy : ∀ running, Tidy running {} := fun _ => ⟨rfl, fun _ => Nat.zero_le _, Nat.zero_le _, nofun⟩
  have hfailed : ∀ stderr, (failed stderr).Inv := fun stderr =>
    ⟨fun _ => htidy _, nofun, nofun, fun _ _ => ⟨nofun, nofun⟩, nofun⟩
  unfold testHook
  split
  · exact hfailed _
  · split
    · exact hfailed _
    · split
      · exact hfailed _
      · exact ⟨fun _ => htidy _, nofun, nofun, nofun, nofun⟩

theorem Inv.ended (h : s.Inv) : s.Ended :=
  ⟨fun hsome => (h.answered _ (Option.some_get (Option.isSome_iff_ne_none.mpr hsome)).symm).1,
    fun stream => (h.drains stream).bounded, fun r code hr hcode hunder => (h.answered r hr).2 code hcode hunder⟩

theorem Inv.proceeds (h : s.Inv) : s.Proceeds decode := by
  intro hnone
  refine ⟨⟨_, if_pos hnone, by simp⟩, fun hend => ?_⟩
  -- a drain that is not done can read when its pipe has something or the child is gone
  have hread : ∀ stream, (s.drains stream).done = false →
      (s.child ≠ .running ∨ maxHookOutputBytes < (s.drains stream).written) →
      ∃ e : DryRunEvent, e.isOwn = true ∧ ∃ s', DryRun.step decode s e = some s' := by
    intro stream hopen hwhy
    refine ⟨.read stream 1, rfl, ?_⟩
    have hcounted := (h.drains stream).counted
    have hshort := (h.drains stream).short hopen
    simp only [DryRun.step, if_pos (And.intro hnone hopen), DryRun.readChunk]
    split
    · rename_i hempty
      rw [hempty, List.length_nil] at hcounted
      have hgone : s.child ≠ .running := hwhy.resolve_right (by omega)
      rw [if_pos (.inr hgone)]
      exact ⟨_, rfl⟩
    · rename_i hsome
      have hpos := List.length_pos_iff.mpr hsome
      rw [if_pos ⟨Nat.le_refl 1, by omega, hpos⟩]
      exact ⟨_, rfl⟩
  by_cases hchild : s.child = .running
  · obtain ⟨stream, hover⟩ := hend.resolve_left (not_not.mpr hchild)
    refine hread stream (Bool.eq_false_iff.mpr fun hdone => ?_) (.inr hover)
    have hcounted := (h.drains stream).counted
    rcases (h.drains stream).ended hdone with ⟨-, hdead⟩ | ⟨hunder, hempty, -⟩
    · exact hdead hchild
    · rw [hempty, List.length_nil] at hcounted
      omega
  · by_cases hdone : ∀ stream, (s.drains stream).done = true
    · cases hfed : s.fed with
      | false => exact ⟨.feed, rfl, _, if_pos ⟨hnone, hfed, .inr hchild⟩⟩
      | true =>
        cases hgathered : s.gathered with
        | false => exact ⟨.gather, rfl, _, if_pos ⟨hnone, hgathered, hfed, hdone _, hdone _⟩⟩
        | true =>
          cases hcode : s.returncode with
          | some code =>
            refine ⟨.finish, rfl, ?_⟩
            simp only [DryRun.step, if_pos (And.intro hnone hgathered), hcode, Option.map_some]
            exact ⟨_, rfl⟩
          | none =>
            refine ⟨.reap, rfl, _, if_pos ⟨hcode, ?_⟩⟩
            cases hc : s.child with
            | absent => exact absurd hnone (h.present hc)
            | running => exact absurd hc hchild
            | exited code => exact nofun
            | killed => exact nofun
    · obtain ⟨stream, hopen⟩ := not_forall.mp hdone
      exact hread stream (Bool.eq_false_iff.mpr hopen) (.inl hchild)

theorem countP_isOwn_le (h : s.Inv) {es : List DryRunEvent} (hm : RunMeets (step decode) Careful s es)
    (hr : run (step decode) s es = some s') : es.countP DryRunEvent.isOwn + s'.work ≤ s.work := by
  induction es generalizing s with
  | nil =>
    cases hr
    simp
  | cons e es ih =>
    obtain ⟨mid, hs, hr⟩ := run_cons_eq_some.mp hr
    obtain ⟨hc, hm⟩ := (runMeets_cons hs).mp hm
    obtain ⟨hmid, hwork⟩ := h.step hc hs
    have hrest := ih hmid hm hr
    rw [List.countP_cons]
    omega

/-- A dry run whose timeout finds no child that is still to be reported ends with no process left. -/
theorem ended_of_careful (handler : HookHandler) (spawn : Except String Unit) {es : List DryRunEvent}
    (hm : RunMeets (step decode) Careful (testHook handler spawn) es)
    (hr : run (step decode) (testHook handler spawn) es = some s) :
    s.Ended ∧ s.Proceeds decode ∧ es.countP DryRunEvent.isOwn ≤ 2 * maxHookOutputBytes + 8 := by
  have hinit := inv_testHook handler spawn
  have h := run_invariant (fun _ _ _ hi hc hs => (Inv.step hi hc hs).1) hinit hm hr
  have hcount := countP_isOwn_le hinit hm hr
  have hwork : (testHook handler spawn).work ≤ 2 * maxHookOutputBytes + 8 := by
    have hleft : ∀ d : Drain, left d ≤ maxHookOutputBytes + 2 := fun d => by
      unfold left
      split <;> omega
    have hout := hleft ((testHook handler spawn).drains .stdout)
    have herr := hleft ((testHook handler spawn).drains .stderr)
    have hphases : (testHook handler spawn).phases ≤ 4 := by
      unfold phases
      split <;> split <;> split <;> split <;> omega
    unfold work
    omega
  exact ⟨h.ended, h.proceeds, by omega⟩

def echoHandler : HookHandler := { type := .command, command := some "echo ok", timeout := 1 }

/-- The child writes, exits with 3 and is reported. -/
def reportedExit : List DryRunEvent :=
  [.takeStdin, .write .stdout [111, 107], .feed, .read .stdout 2, .exit 3, .read .stdout 0, .read .stderr 0, .reap,
    .gather, .finish]

theorem ended_reportedExit : ∃ s, run (step fun _ => []) (testHook echoHandler (.ok ())) reportedExit = some s ∧
    s.response = some ⟨3, [], []⟩ ∧ s.Ended := by
  obtain ⟨s, hr, hs⟩ := exists_run_of_decide (step fun _ => []) (testHook echoHandler (.ok ())) reportedExit
    (p := fun s => s.response = some ⟨3, [], []⟩) (fun _ h => h) (by decide)
  refine ⟨s, hr, hs, (ended_of_careful echoHandler (.ok ()) ?_ hr).1⟩
  decide

-- The timeout leaves a child that never exits, and one that has exited with 3 is reported with -1.
theorem not_ended_timeout :
    (∃ s, run (step fun _ => []) (testHook echoHandler (.ok ())) [.timeout] = some s ∧ ¬ s.Ended) ∧
    ∃ s, run (step fun _ => []) (testHook echoHandler (.ok ())) [.exit 3, .timeout] = some s ∧ ¬ s.Ended := by
  refine ⟨exists_run_of_decide _ _ _ (p := fun s => s.response ≠ none ∧ s.child = .running)
    (fun s hs h => h.gone hs.1 hs.2) (by decide), ?_⟩
  refine exists_run_of_decide _ _ _
    (p := fun s => s.response.map (·.exitCode) = some (-1) ∧ s.child = .exited 3 ∧ ¬ s.Exceeded)
    (fun s hs h => ?_) (by decide)
  obtain ⟨r, hr, hcode⟩ := Option.map_eq_some_iff.mp hs.1
  cases hcode.symm.trans (h.reported r 3 hr hs.2.1 hs.2.2)

end DryRun

end PrivaCloud.AgentRunner.HookDryRun
