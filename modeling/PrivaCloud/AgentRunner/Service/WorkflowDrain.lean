import Mathlib.Data.Finset.Card
import Mathlib.Data.List.Induction
import PrivaCloud.Framework.Dict

/-!
# Background workflows at the end of a turn

`classify_bg_task_event` and `WorkflowDrainTracker` of `service.py`. The events are folded in the order in
which the run emits them; an id that is empty counts as none.
-/

namespace PrivaCloud.AgentRunner.WorkflowDrain

structure ContentBlock where
  type : Option String := none
  name : Option String := none
  id : Option String := none
  toolUseId : Option String := none
  isError : Bool := false
  deriving DecidableEq

/-- The fields of a task event; a patch is known by its status. -/
structure TaskPayload where
  taskId : Option String := none
  toolUseId : Option String := none
  status : Option String := none
  patch : Option (Option String) := none
  deriving DecidableEq

/-- The data of a stream event, flat or with the payload under `data`. -/
structure StreamData extends TaskPayload where
  content : List (Option ContentBlock) := []
  subtype : Option String := none
  data : Option TaskPayload := none

structure StreamEvent where
  event : Option String
  data : StreamData := {}

/-- `_TERMINAL_TASK_STATUSES` -/
def terminalTaskStatuses : List String := ["completed", "failed", "stopped", "killed", "aborted", "cancelled"]

def isTerminalStatus (status : Option String) : Bool := status.any (· ∈ terminalTaskStatuses)

/-- `bool(id)` -/
def nonempty (id : Option String) : Option String := id.filter (· ≠ "")

/-- What `classify_bg_task_event` decodes. -/
structure TaskEvent where
  subtype : String
  taskId : Option String
  toolUseId : Option String
  isTerminal : Bool

/-- The subtype and the payload, nested for `system` and flat for the other labels. -/
def taskPayload (e : StreamEvent) : Option (Option String × TaskPayload) :=
  if e.event = some "system" then some (e.data.subtype, e.data.data.getD {})
  else if e.event ∈ [some "task_started", some "task_progress", some "task_notification"] then
    some (e.event, e.data.toTaskPayload)
  else none

def classifyBgTaskEvent (e : StreamEvent) : Option TaskEvent :=
  match taskPayload e with
  | some (some subtype, payload) =>
    if subtype ∈ ["task_started", "task_progress", "task_notification", "task_updated"] then
      some
        { subtype := subtype
          taskId := (nonempty payload.taskId).or (nonempty e.data.taskId)
          toolUseId := (nonempty payload.toolUseId).or (nonempty e.data.toolUseId)
          isTerminal :=
            if subtype = "task_notification" then isTerminalStatus payload.status
            else if subtype = "task_updated" then isTerminalStatus ((payload.patch.or e.data.patch).getD none)
            else false }
    else none
  | _ => none

structure WorkflowDrainTracker where
  outstanding : Finset String := ∅
  workflowToolIds : Finset String := ∅
  taskToTool : String → Option String := fun _ => none

/-- The id of the block of a `Workflow` call. -/
def ContentBlock.workflowId? (block : ContentBlock) : Option String :=
  if block.type = some "tool_use" ∧ block.name = some "Workflow" then nonempty block.id else none

def ContentBlock.errorId? (block : ContentBlock) : Option String :=
  if block.type = some "tool_result" ∧ block.isError = true then block.toolUseId else none

namespace WorkflowDrainTracker

def launch (t : WorkflowDrainTracker) (block : ContentBlock) : WorkflowDrainTracker :=
  match block.workflowId? with
  | some id => { t with workflowToolIds := insert id t.workflowToolIds, outstanding := insert id t.outstanding }
  | none => t

def refuse (t : WorkflowDrainTracker) (block : ContentBlock) : WorkflowDrainTracker :=
  match block.errorId? with
  | some id => if id ∈ t.workflowToolIds then { t with outstanding := t.outstanding.erase id } else t
  | none => t

/-- `_task_to_tool[task_id] = tool_use_id` -/
def pair (t : WorkflowDrainTracker) (task : TaskEvent) : WorkflowDrainTracker :=
  match task.taskId, task.toolUseId with
  | some taskId, some toolUseId => { t with taskToTool := Function.update t.taskToTool taskId (some toolUseId) }
  | _, _ => t

def finish (t : WorkflowDrainTracker) (task : TaskEvent) : WorkflowDrainTracker :=
  if task.isTerminal then
    match task.toolUseId.or (task.taskId.bind t.taskToTool) with
    | some id => { t with outstanding := t.outstanding.erase id }
    | none => t
  else t

def observe (t : WorkflowDrainTracker) (e : StreamEvent) : WorkflowDrainTracker :=
  if e.event = some "tool_use" then e.data.content.reduceOption.foldl launch t
  else if e.event = some "tool_result" then e.data.content.reduceOption.foldl refuse t
  else
    match classifyBgTaskEvent e with
    | some task => (t.pair task).finish task
    | none => t

end WorkflowDrainTracker

open WorkflowDrainTracker

def track (es : List StreamEvent) : WorkflowDrainTracker := es.foldl observe {}

/-- The event carries the `tool_use` block of a workflow. -/
def Launches (e : StreamEvent) (id : String) : Prop :=
  e.event = some "tool_use" ∧ ∃ block ∈ e.data.content.reduceOption, block.workflowId? = some id

def Refuses (e : StreamEvent) (id : String) : Prop :=
  e.event = some "tool_result" ∧ ∃ block ∈ e.data.content.reduceOption, block.errorId? = some id

def Pairs (e : StreamEvent) (taskId id : String) : Prop :=
  ∃ task, classifyBgTaskEvent e = some task ∧ task.taskId = some taskId ∧ task.toolUseId = some id

def LastPaired (es : List StreamEvent) (taskId id : String) : Prop :=
  ∃ front e rest, es = front ++ e :: rest ∧ Pairs e taskId id ∧ ∀ e' ∈ rest, ∀ id', ¬ Pairs e' taskId id'

/-- The event is a terminal one that names the call, or that names a task for which `paired` gives the call. -/
def Ends (paired : String → String → Prop) (e : StreamEvent) (id : String) : Prop :=
  ∃ task, classifyBgTaskEvent e = some task ∧ task.isTerminal = true ∧ (task.toolUseId = some id ∨
      (task.toolUseId = none ∧ ∃ taskId, task.taskId = some taskId ∧ paired taskId id))

def PairedIn (es : List StreamEvent) (taskId id : String) : Prop := ∃ e ∈ es, Pairs e taskId id

/-- A workflow was launched, and neither an error result nor a terminal event for it occurs. -/
def Live (es : List StreamEvent) (id : String) : Prop :=
  (∃ e ∈ es, Launches e id) ∧ (¬ ∃ e ∈ es, Refuses e id) ∧ ¬ ∃ e ∈ es, Ends (PairedIn es) e id

/-- Each workflow is launched before its task events, and each terminal event names its call or a task that
some event pairs with it. -/
structure Orderly (es : List StreamEvent) : Prop where
  launched : ∀ front e rest, es = front ++ e :: rest → ∀ task id, classifyBgTaskEvent e = some task →
    (task.toolUseId = some id ∨ ∃ taskId, task.taskId = some taskId ∧ PairedIn es taskId id) →
      (∃ e' ∈ es, Launches e' id) → ∃ e' ∈ front, Launches e' id
  named : ∀ e ∈ es, ∀ task, classifyBgTaskEvent e = some task → task.isTerminal = true →
    task.toolUseId ≠ none ∨ ∃ taskId id, task.taskId = some taskId ∧ PairedIn es taskId id

/-- After the last block that launches the workflow there is an error result for it, or a terminal event
that names it or a task whose last pairing so far is with it. -/
def ClearedLast (es : List StreamEvent) (id : String) : Prop :=
  ∃ front e rest, es = front ++ e :: rest ∧ (Refuses e id ∨ Ends (LastPaired front) e id) ∧
    ∀ e' ∈ rest, ¬ Launches e' id

section Observe

variable (t : WorkflowDrainTracker) (e : StreamEvent)

theorem foldl_launch (blocks : List ContentBlock) (t : WorkflowDrainTracker) :
    (blocks.foldl launch t).taskToTool = t.taskToTool ∧ (∀ id, id ∈ (blocks.foldl launch t).outstanding ↔
        (∃ block ∈ blocks, block.workflowId? = some id) ∨ id ∈ t.outstanding) ∧
      ∀ id, id ∈ (blocks.foldl launch t).workflowToolIds ↔
        (∃ block ∈ blocks, block.workflowId? = some id) ∨ id ∈ t.workflowToolIds := by
  induction blocks generalizing t with
  | nil => simp
  | cons block blocks ih =>
    obtain ⟨htask, hout, hids⟩ := ih (t.launch block)
    rw [List.foldl_cons]
    cases hid : block.workflowId? with
    | none =>
      have hsame : t.launch block = t := by rw [launch, hid]
      rw [hsame] at htask hout hids ⊢
      simpa [hid] using ⟨htask, hout, hids⟩
    | some new =>
      have hnew : t.launch block = { t with
          workflowToolIds := insert new t.workflowToolIds, outstanding := insert new t.outstanding } := by
        rw [launch, hid]
      refine ⟨by rw [htask, hnew], ?_, ?_⟩
      · intro id
        rw [hout, hnew]
        simp only [Finset.mem_insert, List.exists_mem_cons_iff, hid, Option.some.injEq, @eq_comm _ id new]
        rw [or_assoc, or_left_comm]
      · intro id
        rw [hids, hnew]
        simp only [Finset.mem_insert, List.exists_mem_cons_iff, hid, Option.some.injEq, @eq_comm _ id new]
        rw [or_assoc, or_left_comm]

theorem foldl_refuse (blocks : List ContentBlock) (t : WorkflowDrainTracker) :
    (blocks.foldl refuse t).taskToTool = t.taskToTool ∧
      (blocks.foldl refuse t).workflowToolIds = t.workflowToolIds ∧
      ∀ id, id ∈ (blocks.foldl refuse t).outstanding ↔
        id ∈ t.outstanding ∧ ¬ (id ∈ t.workflowToolIds ∧ ∃ block ∈ blocks, block.errorId? = some id) := by
  induction blocks generalizing t with
  | nil => simp
  | cons block blocks ih =>
    obtain ⟨htask, hids, hout⟩ := ih (t.refuse block)
    rw [List.foldl_cons]
    have hkept : (t.refuse block).taskToTool = t.taskToTool ∧
        (t.refuse block).workflowToolIds = t.workflowToolIds ∧
        ∀ id, id ∈ (t.refuse block).outstanding ↔
          id ∈ t.outstanding ∧ ¬ (id ∈ t.workflowToolIds ∧ block.errorId? = some id) := by
      unfold refuse
      split
      · rename_i gone hgone
        rw [hgone]
        split
        · rename_i hmem
          refine ⟨rfl, rfl, ?_⟩
          intro id
          simp only [Finset.mem_erase, Option.some.injEq]
          constructor
          · rintro ⟨hne, hid⟩
            exact ⟨hid, fun h => hne h.2.symm⟩
          · rintro ⟨hid, hnot⟩
            refine ⟨?_, hid⟩
            rintro rfl
            exact hnot ⟨hmem, rfl⟩
        · rename_i hmem
          refine ⟨rfl, rfl, ?_⟩
          intro id
          refine ⟨fun h => ⟨h, ?_⟩, fun h => h.1⟩
          rintro ⟨hid, heq⟩
          rw [Option.some.inj heq] at hmem
          exact hmem hid
      · rename_i hnone
        simp [hnone]
    obtain ⟨htask', hids', hout'⟩ := hkept
    refine ⟨by rw [htask, htask'], by rw [hids, hids'], ?_⟩
    intro id
    rw [hout, hout', hids']
    rw [List.exists_mem_cons_iff, and_assoc, ← not_or, ← and_or_left]

theorem classify_content (h : e.event = some "tool_use" ∨ e.event = some "tool_result") :
    classifyBgTaskEvent e = none := by
  have hpayload : taskPayload e = none := by
    rcases h with h | h
    · simp [taskPayload, h]
    · simp [taskPayload, h]
  rw [classifyBgTaskEvent, hpayload]

theorem finish_pair (task : TaskEvent) : (((t.pair task).finish task).workflowToolIds = t.workflowToolIds) ∧
      (∀ taskId id, ((t.pair task).finish task).taskToTool taskId = some id ↔
        (task.taskId = some taskId ∧ task.toolUseId = some id) ∨
          (¬ (task.taskId = some taskId ∧ task.toolUseId ≠ none) ∧ t.taskToTool taskId = some id)) ∧
      ∀ id, id ∈ ((t.pair task).finish task).outstanding ↔ id ∈ t.outstanding ∧
        ¬ (task.isTerminal = true ∧ (task.toolUseId = some id ∨
          (task.toolUseId = none ∧ ∃ taskId, task.taskId = some taskId ∧ t.taskToTool taskId = some id))) := by
  have hpair : (t.pair task).workflowToolIds = t.workflowToolIds ∧ (t.pair task).outstanding = t.outstanding ∧
      (∀ taskId id, (t.pair task).taskToTool taskId = some id ↔
        (task.taskId = some taskId ∧ task.toolUseId = some id) ∨
          (¬ (task.taskId = some taskId ∧ task.toolUseId ≠ none) ∧ t.taskToTool taskId = some id)) ∧
      (task.toolUseId = none → t.pair task = t) := by
    unfold pair
    split
    · rename_i paired call htask hcall
      refine ⟨rfl, rfl, ?_, fun h => by rw [hcall] at h; cases h⟩
      intro taskId id
      simp only [htask, hcall, Option.some.injEq]
      by_cases heq : taskId = paired
      · subst heq
        simp
      · simp [Function.update_of_ne heq, Ne.symm heq]
    · rename_i hnone
      refine ⟨rfl, rfl, ?_, fun _ => rfl⟩
      intro taskId id
      have hnot : ¬ (task.taskId = some taskId ∧ task.toolUseId ≠ none) := by
        rintro ⟨htask, hcall⟩
        obtain ⟨call, hcall⟩ := Option.ne_none_iff_exists'.mp hcall
        exact hnone taskId call htask hcall
      constructor
      · exact fun h => .inr ⟨hnot, h⟩
      · rintro (⟨htask, hcall⟩ | ⟨-, h⟩)
        · exact absurd ⟨htask, by rw [hcall]; simp⟩ hnot
        · exact h
  obtain ⟨hids, hout, htasks, hsame⟩ := hpair
  have hresolve : ∀ id, task.toolUseId.or (task.taskId.bind (t.pair task).taskToTool) = some id ↔
      (task.toolUseId = some id ∨
        (task.toolUseId = none ∧ ∃ taskId, task.taskId = some taskId ∧ t.taskToTool taskId = some id)) := by
    intro id
    cases hcall : task.toolUseId with
    | some call => simp
    | none => simp [hsame hcall, Option.bind_eq_some_iff]
  unfold finish
  split
  · rename_i hterminal
    split
    · rename_i gone hgone
      refine ⟨hids, htasks, ?_⟩
      intro id
      simp only [Finset.mem_erase, hout, hterminal, true_and]
      rw [← hresolve id, hgone, Option.some.injEq]
      constructor
      · rintro ⟨hne, hid⟩
        exact ⟨hid, Ne.symm hne⟩
      · rintro ⟨hid, hne⟩
        exact ⟨Ne.symm hne, hid⟩
    · rename_i hnone
      refine ⟨hids, htasks, ?_⟩
      intro id
      rw [hout, ← hresolve id, hnone]
      simp
  · rename_i hterminal
    refine ⟨hids, htasks, ?_⟩
    intro id
    simp [hout, hterminal]

theorem observe_spec (hsub : ∀ id ∈ t.outstanding, id ∈ t.workflowToolIds) :
    (∀ taskId id, (t.observe e).taskToTool taskId = some id ↔
      Pairs e taskId id ∨ ((∀ id', ¬ Pairs e taskId id') ∧ t.taskToTool taskId = some id)) ∧
    (∀ id, id ∈ (t.observe e).outstanding ↔ Launches e id ∨
      (id ∈ t.outstanding ∧ ¬ (Refuses e id ∨ Ends (fun taskId id => t.taskToTool taskId = some id) e id))) ∧
    ∀ id ∈ (t.observe e).outstanding, id ∈ (t.observe e).workflowToolIds := by
  unfold observe
  split
  · rename_i hevent
    have hnone := classify_content e (.inl hevent)
    obtain ⟨htask, hout, hids⟩ := foldl_launch e.data.content.reduceOption t
    refine ⟨?_, ?_, ?_⟩
    · simp [htask, Pairs, hnone]
    · intro id
      simp [hout, Launches, Refuses, Ends, hnone, hevent]
    · intro id
      rw [hout, hids]
      exact Or.imp (fun h => h) (hsub id)
  split
  · rename_i hevent
    have hnone := classify_content e (.inr hevent)
    obtain ⟨htask, hids, hout⟩ := foldl_refuse e.data.content.reduceOption t
    refine ⟨?_, ?_, ?_⟩
    · simp [htask, Pairs, hnone]
    · intro id
      rw [hout]
      simp only [Launches, Refuses, Ends, hnone, hevent]
      constructor
      · rintro ⟨hid, hnot⟩
        refine .inr ⟨hid, ?_⟩
        rintro (⟨-, hblock⟩ | ⟨task, htask, -⟩)
        · exact hnot ⟨hsub id hid, hblock⟩
        · cases htask
      · rintro (⟨hlabel, -⟩ | ⟨hid, hnot⟩)
        · simp at hlabel
        · exact ⟨hid, fun h => hnot (.inl ⟨trivial, h.2⟩)⟩
    · intro id hid
      rw [hids]
      exact hsub id ((hout id).mp hid).1
  · rename_i huse hresult
    cases hclassify : classifyBgTaskEvent e with
    | none =>
      refine ⟨?_, ?_, hsub⟩
      · simp [Pairs, hclassify]
      · intro id
        simp [Launches, Refuses, Ends, hclassify, huse, hresult]
    | some task =>
      obtain ⟨hids, htasks, hout⟩ := finish_pair t task
      refine ⟨?_, ?_, ?_⟩
      · intro taskId id
        simp only [htasks, Pairs, hclassify, Option.some.injEq, exists_eq_left']
        refine or_congr_right (and_congr_left fun _ => ?_)
        rw [Option.ne_none_iff_exists']
        simp only [not_and, not_exists]
        exact ⟨fun h id' htask => h htask id', fun h htask id' => h id' htask⟩
      · intro id
        simp only [hout, Launches, Refuses, Ends, hclassify, huse, hresult, Option.some.injEq, exists_eq_left',
          false_and, false_or]
      · intro id hid
        rw [hids]
        exact hsub id ((hout id).mp hid).1

end Observe

theorem track_concat (es : List StreamEvent) (e : StreamEvent) : track (es ++ [e]) = (track es).observe e := by
  rw [track, List.foldl_append]
  rfl

theorem exists_last_concat (marked : List StreamEvent → StreamEvent → Prop) (later : StreamEvent → Prop)
    (es : List StreamEvent) (e : StreamEvent) :
    (∃ front e' rest, es ++ [e] = front ++ e' :: rest ∧ marked front e' ∧ ∀ e'' ∈ rest, ¬ later e'') ↔
      marked es e ∨
        ((∃ front e' rest, es = front ++ e' :: rest ∧ marked front e' ∧ ∀ e'' ∈ rest, ¬ later e'') ∧ ¬ later e) := by
  constructor
  · rintro ⟨front, e', rest, hes, hmarked, hlater⟩
    rcases List.eq_nil_or_concat rest with rfl | ⟨rest, last, rfl⟩
    · obtain ⟨rfl, he⟩ := List.append_inj' hes rfl
      rw [List.singleton_inj.mp he]
      exact .inl hmarked
    · rw [List.concat_eq_append] at hes hlater
      have hsplit : es ++ [e] = (front ++ e' :: rest) ++ [last] := by rw [hes]; simp
      obtain ⟨hfront, he⟩ := List.append_inj' hsplit rfl
      rw [List.singleton_inj.mp he]
      refine .inr ⟨⟨front, e', rest, hfront, hmarked, ?_⟩, hlater last (by simp)⟩
      exact fun e'' he'' => hlater e'' (List.mem_append_left _ he'')
  · rintro (hmarked | ⟨⟨front, e', rest, rfl, hmarked, hlater⟩, hlast⟩)
    · exact ⟨es, e, [], rfl, hmarked, by simp⟩
    · refine ⟨front, e', rest ++ [e], by simp, hmarked, ?_⟩
      intro e'' he''
      rcases List.mem_append.mp he'' with he'' | he''
      · exact hlater e'' he''
      · rw [List.mem_singleton.mp he'']
        exact hlast

theorem lastPaired_concat (es : List StreamEvent) (e : StreamEvent) (taskId id : String) :
    LastPaired (es ++ [e]) taskId id ↔
      Pairs e taskId id ∨ (LastPaired es taskId id ∧ ∀ id', ¬ Pairs e taskId id') := by
  have h := exists_last_concat (fun _ e => Pairs e taskId id) (fun e => ∃ id', Pairs e taskId id') es e
  unfold LastPaired
  simpa only [not_exists] using h

theorem clearedLast_concat (es : List StreamEvent) (e : StreamEvent) (id : String) :
    ClearedLast (es ++ [e]) id ↔
      (Refuses e id ∨ Ends (LastPaired es) e id) ∨ (ClearedLast es id ∧ ¬ Launches e id) :=
  exists_last_concat (fun front e => Refuses e id ∨ Ends (LastPaired front) e id) (fun e => Launches e id) es e

theorem not_clears_of_launches {e : StreamEvent} {id : String} (h : Launches e id)
    (paired : String → String → Prop) : ¬ (Refuses e id ∨ Ends paired e id) := by
  have hnone := classify_content e (.inl h.1)
  rintro (⟨hlabel, -⟩ | ⟨task, htask, -⟩)
  · rw [h.1] at hlabel
    simp at hlabel
  · rw [hnone] at htask
    cases htask

theorem track_spec (es : List StreamEvent) :
    (∀ taskId id, (track es).taskToTool taskId = some id ↔ LastPaired es taskId id) ∧
    (∀ id, id ∈ (track es).outstanding ↔ (∃ e ∈ es, Launches e id) ∧ ¬ ClearedLast es id) ∧
    ∀ id ∈ (track es).outstanding, id ∈ (track es).workflowToolIds := by
  induction es using List.reverseRecOn with
  | nil =>
    refine ⟨?_, by simp [track], by simp [track]⟩
    intro taskId id
    simp [track, LastPaired]
  | append_singleton es e ih =>
    obtain ⟨htasks, hout, hsub⟩ := ih
    obtain ⟨htasks', hout', hsub'⟩ := observe_spec (track es) e hsub
    have hpaired : (fun taskId id => (track es).taskToTool taskId = some id) = LastPaired es := by
      funext taskId id
      exact propext (htasks taskId id)
    rw [hpaired] at hout'
    rw [track_concat]
    refine ⟨?_, ?_, hsub'⟩
    · intro taskId id
      rw [htasks', htasks, lastPaired_concat, and_comm]
    · intro id
      rw [hout', hout, clearedLast_concat]
      by_cases hlaunch : Launches e id
      · have hnot := not_clears_of_launches hlaunch (LastPaired es)
        simp only [hlaunch, hnot, not_true, and_false, or_false, true_or, not_false_eq_true, and_true, true_iff]
        exact ⟨e, by simp, hlaunch⟩
      · have hexists : (∃ e' ∈ es ++ [e], Launches e' id) ↔ ∃ e' ∈ es, Launches e' id := by
          constructor
          · rintro ⟨e', he', h⟩
            rcases List.mem_append.mp he' with he' | he'
            · exact ⟨e', he', h⟩
            · rw [List.mem_singleton.mp he'] at h
              exact absurd h hlaunch
          · rintro ⟨e', he', h⟩
            exact ⟨e', List.mem_append_left _ he', h⟩
        rw [hexists, and_iff_left hlaunch]
        simp only [hlaunch, false_or, not_or]
        rw [and_assoc]
        exact and_congr_right fun _ => and_comm

theorem refused_or_ended {es : List StreamEvent} {id : String} (h : ClearedLast es id) :
    (∃ e ∈ es, Refuses e id) ∨ ∃ e ∈ es, Ends (PairedIn es) e id := by
  obtain ⟨front, e, rest, rfl, hclear | ⟨task, htask, hterminal, hcall⟩, -⟩ := h
  · exact .inl ⟨e, by simp, hclear⟩
  · refine .inr ⟨e, by simp, task, htask, hterminal, hcall.imp (fun h => h) ?_⟩
    rintro ⟨hnone, taskId, htaskId, front', e', rest', rfl, hpairs, -⟩
    exact ⟨hnone, taskId, htaskId, e', by simp, hpairs⟩

/-- The tracker is right exactly when each workflow that failed or ended was cleared after its last launch. -/
theorem outstanding_iff_live (es : List StreamEvent) : (∀ id, id ∈ (track es).outstanding ↔ Live es id) ↔
      ∀ id, (∃ e ∈ es, Launches e id) → (∃ e ∈ es, Refuses e id) ∨ (∃ e ∈ es, Ends (PairedIn es) e id) →
        ClearedLast es id := by
  obtain ⟨-, hout, -⟩ := track_spec es
  constructor
  · intro hright id hlaunched hover
    by_contra hnot
    obtain ⟨-, hrefused, hended⟩ := (hright id).mp ((hout id).mpr ⟨hlaunched, hnot⟩)
    exact hover.elim hrefused hended
  · intro hcleared id
    rw [hout, Live]
    constructor
    · rintro ⟨hlaunched, hnot⟩
      exact ⟨hlaunched, fun h => hnot (hcleared id hlaunched (.inl h)), fun h => hnot (hcleared id hlaunched (.inr h))⟩
    · rintro ⟨hlaunched, hrefused, hended⟩
      refine ⟨hlaunched, fun h => ?_⟩
      exact (refused_or_ended h).elim hrefused hended

/-- The terminal event names the task only, and the event that pairs the task comes after it. -/
def latePairing : List StreamEvent :=
  [{ event := some "tool_use"
     data := { content := [some { type := some "tool_use", name := some "Workflow", id := some "u1" }] } },
    { event := some "system"
      data := { subtype := some "task_updated", data := some { taskId := some "t1", patch := some (some "killed") } } },
    { event := some "system"
      data := { subtype := some "task_progress", data := some { taskId := some "t1", toolUseId := some "u1" } } }]

theorem not_live_latePairing :
    Orderly latePairing ∧ "u1" ∈ (track latePairing).outstanding ∧ ¬ Live latePairing "u1" := by
  have hpaired : PairedIn latePairing "t1" "u1" := ⟨_, .tail _ (.tail _ (.head _)), _, rfl, rfl, rfl⟩
  refine ⟨⟨?_, ?_⟩, by decide, ?_⟩
  · rintro front e rest hsplit task id hclassify - ⟨e', he', hlaunch⟩
    have hfirst : latePairing.head? = some e' := by
      rcases List.mem_cons.mp he' with rfl | he'
      · rfl
      have hsystem : e'.event = some "system" := by
        rcases List.mem_cons.mp he' with rfl | he'
        · rfl
        · rw [List.mem_singleton.mp he']
      have hlabel := hlaunch.1
      rw [hsystem] at hlabel
      simp at hlabel
    rw [hsplit] at hfirst
    cases front with
    | nil =>
      obtain rfl := Option.some.inj hfirst
      rw [classify_content e (.inl hlaunch.1)] at hclassify
      cases hclassify
    | cons first front =>
      obtain rfl := Option.some.inj hfirst
      exact ⟨first, List.mem_cons_self, hlaunch⟩
  · intro e he task hclassify _
    rcases List.mem_cons.mp he with rfl | he
    · rw [classify_content _ (.inl rfl)] at hclassify
      cases hclassify
    rcases List.mem_cons.mp he with rfl | he
    · cases hclassify
      exact .inr ⟨"t1", "u1", rfl, hpaired⟩
    · rw [List.mem_singleton.mp he] at hclassify
      cases hclassify
      exact .inl (by decide)
  · rintro ⟨-, -, hended⟩
    exact hended ⟨_, .tail _ (.head _), _, rfl, by decide, .inr ⟨rfl, "t1", rfl, hpaired⟩⟩

end PrivaCloud.AgentRunner.WorkflowDrain
