import PrivaCloud.Framework.Run
import PrivaCloud.Web.AgentBlocks

/-!
# Finished background work

A workflow or an agent that has finished stays so, as long as no late event starts it again: the reducers for the start
and the progress of a workflow do not look, and a notification that something runs reaches every block.
-/

namespace PrivaCloud.Web

open Framework

namespace Work

variable (s : Work)

def workflowFinished (id : String) : Bool := (getValue s.workflows.workflows id).any (·.status.isTerminal)

/-- There is a block with the id, and each of them is finished. -/
def AgentFinished (id : String) : Prop :=
  (∃ block ∈ s.blocks, block.id = id) ∧ ∀ block ∈ s.blocks, block.id = id → block.isFinished = true

def startsNothing (notification : AgentNotification) : Bool :=
  agentLifecycleFromStatus (some (AgentBlock.notifiedStatus notification)) ≠ some .running ||
    s.blocks.all fun block => !(block.isFinished && block.isNotified notification)

/-- A tool use with the id of a block takes over a block with this id, and the block is replaced by no other. -/
def takenOver (parentToolUseId : Option String) (uses : List ToolUse) (block : AgentBlock) : Bool :=
  let current := s.currentBlocks parentToolUseId
  (uses.all fun
    | .workflow _ _ _ => true
    | .agent id streamKey => id ≠ block.id || (current.find? (ToolUse.takesOver id streamKey)).any (·.id = block.id)) &&
  (block ∉ current || !ToolUse.replaces uses (ToolUse.agentBlocks current uses) block || uses.any fun
    | .workflow _ _ _ => false
    | .agent id _ => id = block.id)

def restartsNothing : WorkEvent → Bool
  | .taskStarted id _ _ | .taskProgress id _ => !s.workflowFinished id
  | .taskNotification notification _ _ | .userNotification notification => s.startsNothing notification
  | .toolUse parent uses => s.blocks.all fun block => !block.isFinished || s.takenOver parent (s.newUses uses) block
  | _ => true

end Work

variable {endedAt : Option Int} {ν : Type} {now : Int} {parent source status summary : Option String}

section Workflows

variable {parseWorkflowMeta : String → Option ScriptMeta} {s : WorkflowStore} {id id' : String} {wf : Workflow}

def Finished (s : WorkflowStore) (id : String) : Prop :=
  ∃ wf, getValue s.workflows id = some wf ∧ wf.status.isTerminal = true

private theorem isTerminal_normalizeStatus (raw : Option String) : (normalizeStatus raw).isTerminal = true := by
  unfold normalizeStatus
  split
  · rfl
  · split <;> rfl

private theorem status_seedFromScript (wf : Workflow) : (seedFromScript parseWorkflowMeta wf).status = wf.status := by
  unfold seedFromScript
  split <;> rfl

theorem finished_put (h : Finished s id) (hwf : id = id' → wf.status.isTerminal = true) : Finished (s.put id' wf) id := by
  obtain ⟨old, hold, hterminal⟩ := h
  unfold Finished WorkflowStore.put
  rw [getValue_assign]
  split
  · rename_i hid
    exact ⟨wf, rfl, hwf hid⟩
  · exact ⟨old, hold, hterminal⟩

/-- A seed that says `pending` finishes nothing and starts nothing. -/
theorem finished_ensureWorkflow {seed : Seed} (h : Finished s id)
    (hseed : id = id' → seed.status = some .pending) : Finished (s.ensureWorkflow parseWorkflowMeta id' seed) id := by
  unfold WorkflowStore.ensureWorkflow
  split
  · exact h
  · split
    · rename_i existing hexisting
      refine finished_put h fun hid => ?_
      subst hid
      obtain ⟨old, hold, hterminal⟩ := h
      obtain rfl := Option.some.inj (hold.symm.trans hexisting)
      have hpending : old.status ≠ .pending := by
        intro hpending
        rw [hpending] at hterminal
        cases hterminal
      rw [status_seedFromScript]
      dsimp only
      rw [if_pos ⟨hseed rfl, hpending⟩]
      exact hterminal
    · rename_i hnone
      refine finished_put h fun hid => ?_
      subst hid
      obtain ⟨old, hold, -⟩ := h
      rw [hold] at hnone
      cases hnone

private theorem finished_applyStart {fields : Seed} (h : Finished s id) (hid : id' ≠ id) :
    Finished (s.applyStart parseWorkflowMeta id' fields now) id := by
  have hseeded : Finished (s.ensureWorkflow parseWorkflowMeta id' { status := some .running }) id :=
    finished_ensureWorkflow h fun heq => absurd heq.symm hid
  unfold WorkflowStore.applyStart
  dsimp only
  split
  · exact hseeded
  · exact finished_put hseeded fun heq => absurd heq.symm hid

private theorem finished_applyProgress {progress : Progress} (h : Finished s id) (hid : id' ≠ id) :
    Finished (s.applyProgress parseWorkflowMeta id' progress) id := by
  have hseeded : Finished (s.ensureWorkflow parseWorkflowMeta id' { status := some .running }) id :=
    finished_ensureWorkflow h fun heq => absurd heq.symm hid
  unfold WorkflowStore.applyProgress
  dsimp only
  split
  · exact h
  · split
    · exact hseeded
    · exact finished_put hseeded fun heq => absurd heq.symm hid

private theorem finished_hydrateFromSnapshot {snap : Snapshot} (h : Finished s id) :
    Finished (s.hydrateFromSnapshot id' snap now) id := by
  unfold WorkflowStore.hydrateFromSnapshot
  split
  · exact h
  · rename_i base hbase
    split
    · exact h
    · refine finished_put h fun hid => ?_
      subst hid
      obtain ⟨old, hold, hterminal⟩ := h
      obtain rfl := Option.some.inj (hold.symm.trans hbase)
      dsimp only
      split
      · exact isTerminal_normalizeStatus _
      · exact hterminal

private theorem finished_markCompletion {idOrTaskId : String} {raw : Option String}
    (h : Finished s id) : Finished (s.markCompletion idOrTaskId raw source endedAt summary now) id := by
  unfold WorkflowStore.markCompletion
  split
  · exact h
  · split
    · exact h
    · split
      · exact h
      · exact finished_put h fun _ => isTerminal_normalizeStatus raw

private theorem getValue_map_snd {κ : Type} [DecidableEq κ] (d : List (κ × ν)) (change : ν → ν) (k : κ) :
    getValue (d.map fun e => (e.1, change e.2)) k = (getValue d k).map change := by
  induction d with
  | nil => rfl
  | cons e rest ih =>
    rw [List.map_cons, getValue, getValue, ih]
    split <;> rfl

private theorem finished_map {change : Workflow → Workflow} (h : Finished s id)
    (hchange : ∀ wf, wf.status.isTerminal = true → change wf = wf) :
    Finished { s with workflows := s.workflows.map fun e => (e.1, change e.2) } id := by
  obtain ⟨wf, hwf, hterminal⟩ := h
  refine ⟨wf, ?_, hterminal⟩
  dsimp only
  rw [getValue_map_snd, hwf, Option.map_some, hchange wf hterminal]

private theorem finalized_of_terminal (now : Int) (wf : Workflow) (h : wf.status.isTerminal = true) :
    WorkflowStore.finalized now wf = wf := by
  unfold WorkflowStore.finalized
  rw [if_neg]
  intro hrunning
  rw [hrunning] at h
  cases h

private theorem aborted_of_terminal (now : Int) (wf : Workflow) (h : wf.status.isTerminal = true) :
    WorkflowStore.aborted now wf = wf := by
  unfold WorkflowStore.aborted
  rw [if_neg]
  rintro (hstatus | hstatus) <;>
  · rw [hstatus] at h
    cases h

private theorem finished_seedWorkflows (h : Finished s id) (uses : List ToolUse) :
    Finished (Work.seedWorkflows parseWorkflowMeta s uses) id := by
  unfold Work.seedWorkflows
  induction uses generalizing s with
  | nil => exact h
  | cons use rest ih =>
    rw [List.foldl_cons]
    cases use with
    | workflow id' script name => exact ih (finished_ensureWorkflow h fun _ => rfl)
    | agent id' streamKey => exact ih h

end Workflows

section Blocks

variable {block : AgentBlock} {s : Work} {id : String}

private theorem isFinished_iff : block.isFinished = true ↔
    (∃ lifecycle, agentLifecycleFromStatus block.agentTaskStatus = some lifecycle ∧ lifecycle ≠ .running) ∧
      ∃ status, block.status = some status ∧ status ≠ .running := by
  unfold AgentBlock.isFinished
  rw [Bool.and_eq_true, Option.any_eq_true, Option.any_eq_true]
  simp only [decide_eq_true_eq]

private theorem blockStatus_ne_running {lifecycle : AgentLifecycle} (h : lifecycle ≠ .running) :
    agentLifecycleToBlockStatus lifecycle ≠ .running := by
  cases lifecycle with
  | running => exact absurd rfl h
  | _ => exact fun hsame => nomatch hsame

private theorem finished_withAgentToolResult (h : block.isFinished = true) (result : AgentResult) :
    (block.withAgentToolResult result).isFinished = true := by
  obtain ⟨⟨lifecycle, hlifecycle, hne⟩, hstatus⟩ := isFinished_iff.mp h
  have hkept : (block.withAgentToolResult result).agentTaskStatus = block.agentTaskStatus ∧
      (block.withAgentToolResult result).status = block.status := by
    unfold AgentBlock.withAgentToolResult
    rw [hlifecycle]
    cases lifecycle with
    | running => exact absurd rfl hne
    | _ => exact ⟨rfl, rfl⟩
  rw [isFinished_iff, hkept.1, hkept.2]
  exact ⟨⟨lifecycle, hlifecycle, hne⟩, hstatus⟩

private theorem finished_abortRunning (h : block.isFinished = true) (abort : AbortStatus) :
    block.abortRunning abort = block := by
  obtain ⟨-, status, hstatus, hne⟩ := isFinished_iff.mp h
  unfold AgentBlock.abortRunning
  rw [hstatus, Option.any_some, if_pos (decide_eq_true hne)]

private theorem finished_applyAgentNotification (h : block.isFinished = true) (notification : AgentNotification)
    (hnotification : agentLifecycleFromStatus (some (AgentBlock.notifiedStatus notification)) = some .running →
      block.isNotified notification = false) :
    (block.applyAgentNotification notification).isFinished = true := by
  unfold AgentBlock.applyAgentNotification
  split
  · rename_i hnotified
    split
    · exact h
    · rename_i lifecycle hlifecycle
      have hne : lifecycle ≠ .running := by
        rintro rfl
        rw [hnotification hlifecycle] at hnotified
        cases hnotified
      exact isFinished_iff.mpr ⟨⟨lifecycle, hlifecycle, hne⟩, _, rfl, blockStatus_ne_running hne⟩
  · exact h

private theorem id_applyAgentNotification (block : AgentBlock) (notification : AgentNotification) :
    (block.applyAgentNotification notification).id = block.id := by
  unfold AgentBlock.applyAgentNotification
  split
  · split <;> rfl
  · rfl

private theorem id_withAgentToolResult (block : AgentBlock) (result : AgentResult) :
    (block.withAgentToolResult result).id = block.id := by
  unfold AgentBlock.withAgentToolResult
  dsimp only
  split <;> rfl

theorem id_abortRunning (block : AgentBlock) (abort : AbortStatus) : (block.abortRunning abort).id = block.id := by
  unfold AgentBlock.abortRunning
  split <;> rfl

private theorem blocks_mapBlocks (s : Work) (change : AgentBlock → AgentBlock) :
    (s.mapBlocks change).blocks = s.blocks.map change := by
  unfold Work.mapBlocks Work.blocks
  dsimp only
  rw [List.map_append, List.map_flatten, List.flatMap_map, List.map_flatMap]

private theorem agentFinished_mapBlocks {change : AgentBlock → AgentBlock} (h : s.AgentFinished id)
    (hid : ∀ block, (change block).id = block.id)
    (hchange : ∀ block ∈ s.blocks, block.isFinished = true → (change block).isFinished = true) :
    (s.mapBlocks change).AgentFinished id := by
  obtain ⟨⟨block, hblock, hown⟩, hall⟩ := h
  refine ⟨⟨change block, ?_, (hid block).trans hown⟩, fun block' hblock' hown' => ?_⟩
  · rw [blocks_mapBlocks]
    exact List.mem_map_of_mem hblock
  · rw [blocks_mapBlocks] at hblock'
    obtain ⟨old, hold, rfl⟩ := List.mem_map.mp hblock'
    exact hchange old hold (hall old hold ((hid old).symm.trans hown'))

private theorem agentFinished_notify {notification : AgentNotification} (h : s.AgentFinished id)
    (hstarts : s.startsNothing notification = true) : (s.notify notification).AgentFinished id := by
  refine agentFinished_mapBlocks h (fun block => id_applyAgentNotification block notification) ?_
  intro block hblock hfinished
  refine finished_applyAgentNotification hfinished notification fun hrunning => ?_
  unfold Work.startsNothing at hstarts
  rw [hrunning, Bool.or_eq_true, List.all_eq_true] at hstarts
  rcases hstarts with hne | hstarts
  · exact absurd rfl (of_decide_eq_true hne)
  · have hblock := hstarts block hblock
    rw [hfinished, Bool.true_and, Bool.not_eq_true'] at hblock
    exact hblock

variable {k : String}

private theorem mem_assign_snd {d : List (String × List ν)} {new : List ν} {x : ν}
    (h : x ∈ (assign d k new).flatMap Prod.snd) : x ∈ new ∨ x ∈ d.flatMap Prod.snd := by
  obtain ⟨e, he, hx⟩ := List.mem_flatMap.mp h
  rcases snd_of_mem_assign he with hnew | hold
  · exact Or.inl (hnew ▸ hx)
  · exact Or.inr (List.mem_flatMap.mpr ⟨e, hold, hx⟩)

private theorem mem_flatMap_assign {d : List (String × List ν)} (new : List ν) {x : ν}
    (h : x ∈ d.flatMap Prod.snd) :
    x ∈ (getValue d k).getD [] ∨ x ∈ (assign d k new).flatMap Prod.snd := by
  induction d with
  | nil => cases h
  | cons e rest ih =>
    rw [getValue, assign]
    by_cases he : e.1 = k
    · rw [if_pos he.symm, if_pos he, Option.getD_some]
      rw [List.flatMap_cons, List.mem_append] at h ⊢
      exact h.imp_right Or.inr
    · rw [if_neg (Ne.symm he), if_neg he]
      rw [List.flatMap_cons, List.mem_append] at h ⊢
      rcases h with h | h
      · exact Or.inr (Or.inl h)
      · exact (ih h).imp_right Or.inr

private theorem new_mem_assign (d : List (String × List ν)) (k : String) {new : List ν} {x : ν} (h : x ∈ new) :
    x ∈ (assign d k new).flatMap Prod.snd := by
  induction d with
  | nil => simpa [assign] using h
  | cons e rest ih =>
    rw [assign]
    split
    · exact List.mem_append_left _ h
    · exact List.mem_append_right _ ih

private theorem getValue_subset {d : List (String × List ν)} {x : ν}
    (h : x ∈ (getValue d k).getD []) : x ∈ d.flatMap Prod.snd := by
  cases hfound : getValue d k with
  | none =>
    rw [hfound] at h
    cases h
  | some l =>
    rw [hfound] at h
    exact List.mem_flatMap.mpr ⟨(k, l), getValue_mem hfound, h⟩

private theorem currentBlocks_subset (h : block ∈ s.currentBlocks parent) : block ∈ s.blocks := by
  cases parent with
  | some parent => exact List.mem_append_right _ (getValue_subset h)
  | none =>
    refine List.mem_append_left _ ?_
    cases hmessages : s.messages with
    | nil =>
      rw [Work.currentBlocks, hmessages] at h
      cases h
    | cons last before =>
      rw [Work.currentBlocks, hmessages] at h
      exact List.mem_append_left _ h

private theorem agentFinished_reconciled {s' : Work} {uses : List ToolUse} (h : s.AgentFinished id)
    (htaken : ∀ block ∈ s.blocks, block.isFinished = true → s.takenOver parent uses block = true)
    (hnew : ∀ block ∈ s'.blocks, block ∈ s.blocks ∨ block ∈ ToolUse.reconciled (s.currentBlocks parent) uses)
    (hold : ∀ block ∈ s.blocks, block ∈ s.currentBlocks parent ∨ block ∈ s'.blocks)
    (hreconciled : ∀ block ∈ ToolUse.reconciled (s.currentBlocks parent) uses, block ∈ s'.blocks) :
    s'.AgentFinished id := by
  obtain ⟨⟨block, hblock, hown⟩, hall⟩ := h
  have htakenBlock := htaken block hblock (hall block hblock hown)
  unfold Work.takenOver at htakenBlock
  rw [Bool.and_eq_true, List.all_eq_true] at htakenBlock
  obtain ⟨hfound, hreplaced⟩ := htakenBlock
  have hfresh (id' : String) (streamKey : Option String) (huse : ToolUse.agent id' streamKey ∈ uses) (hid : id' = id) :
      (ToolUse.agentBlock (s.currentBlocks parent) id' streamKey).isFinished = true := by
    have hany := hfound _ huse
    dsimp only at hany
    rw [hid, ← hown] at hany
    simp only [ne_eq, not_true_eq_false, decide_false, Bool.false_or, Option.any_eq_true] at hany
    obtain ⟨existing, hexisting, hexistingId⟩ := hany
    have hfinished : existing.isFinished = true :=
      hall existing (currentBlocks_subset (List.mem_of_find?_eq_some hexisting))
        ((of_decide_eq_true hexistingId).trans hown)
    obtain ⟨hlifecycle, status, hstatus, hne⟩ := isFinished_iff.mp hfinished
    unfold ToolUse.agentBlock
    rw [hid, ← hown, hexisting]
    refine isFinished_iff.mpr ⟨hlifecycle, status, ?_, hne⟩
    dsimp only
    rw [Option.bind_some, hstatus, Option.getD_some]
  have hfreshMem (block : AgentBlock) (hmem : block ∈ ToolUse.agentBlocks (s.currentBlocks parent) uses)
      (hblockId : block.id = id) : block.isFinished = true := by
    obtain ⟨use, huse, hblock⟩ := List.mem_filterMap.mp hmem
    cases use with
    | workflow _ _ _ => cases hblock
    | agent id' streamKey =>
      cases hblock
      exact hfresh id' streamKey huse hblockId
  refine ⟨?_, fun block' hblock' hown' => ?_⟩
  · rcases hold block hblock with hcurrent | hkept
    · by_cases hreplace : ToolUse.replaces uses (ToolUse.agentBlocks (s.currentBlocks parent) uses) block = true
      · rw [hreplace, decide_eq_false (not_not_intro hcurrent), Bool.not_true, Bool.false_or, Bool.false_or,
          List.any_eq_true] at hreplaced
        obtain ⟨use, huse, huseId⟩ := hreplaced
        cases use with
        | workflow _ _ _ => cases huseId
        | agent id' streamKey =>
          have hmem : ToolUse.agentBlock (s.currentBlocks parent) id' streamKey ∈
              ToolUse.agentBlocks (s.currentBlocks parent) uses := List.mem_filterMap.mpr ⟨_, huse, rfl⟩
          exact ⟨_, hreconciled _ (List.mem_append_right _ hmem), (of_decide_eq_true huseId).trans hown⟩
      · refine ⟨block, hreconciled block (List.mem_append_left _ (List.mem_filter.mpr ⟨hcurrent, ?_⟩)), hown⟩
        rw [Bool.not_eq_true] at hreplace
        rw [hreplace]
        rfl
    · exact ⟨block, hkept, hown⟩
  · rcases hnew block' hblock' with hmem | hmem
    · exact hall block' hmem hown'
    · rcases List.mem_append.mp hmem with hmem | hmem
      · exact hall block' (currentBlocks_subset (List.mem_filter.mp hmem).1) hown'
      · exact hfreshMem block' hmem hown'

private theorem agentFinished_onToolUse {parseWorkflowMeta : String → Option ScriptMeta}
    {uses : List ToolUse} (h : s.AgentFinished id)
    (htaken : ∀ block ∈ s.blocks, block.isFinished = true → s.takenOver parent (s.newUses uses) block = true) :
    (s.onToolUse parseWorkflowMeta parent uses).AgentFinished id := by
  unfold Work.onToolUse
  dsimp only
  cases parent with
  | some parent =>
    dsimp only
    split
    · exact h
    · refine agentFinished_reconciled h htaken (fun block hblock => ?_) (fun block hblock => ?_)
        fun block hblock => List.mem_append_right _ (new_mem_assign s.subagentContent parent hblock)
      · rcases List.mem_append.mp hblock with hmem | hmem
        · exact Or.inl (List.mem_append_left _ hmem)
        · exact (mem_assign_snd hmem).symm.imp_left fun hold => List.mem_append_right _ hold
      · rcases List.mem_append.mp hblock with hmem | hmem
        · exact Or.inr (List.mem_append_left _ hmem)
        · exact (mem_flatMap_assign _ hmem).imp_right fun hkept => List.mem_append_right _ hkept
  | none =>
    cases hmessages : s.messages with
    | nil =>
      have hblocks : s.blocks = s.subagentContent.flatMap Prod.snd := by
        rw [Work.blocks, hmessages]
        rfl
      unfold Work.AgentFinished at h ⊢
      rw [hblocks] at h
      exact h
    | cons last before =>
      have hcurrent : s.currentBlocks none = last := by
        rw [Work.currentBlocks, hmessages]
        rfl
      have hblocks : s.blocks = last ++ before.flatten ++ s.subagentContent.flatMap Prod.snd := by
        rw [Work.blocks, hmessages]
        rfl
      refine agentFinished_reconciled h htaken (fun block hblock => ?_) (fun block hblock => ?_) fun block hblock => ?_
      · rw [hcurrent, hblocks]
        rcases List.mem_append.mp hblock with hmem | hmem
        · rcases List.mem_append.mp hmem with hmem | hmem
          · exact Or.inr hmem
          · exact Or.inl (List.mem_append_left _ (List.mem_append_right _ hmem))
        · exact Or.inl (List.mem_append_right _ hmem)
      · rw [hcurrent]
        rw [hblocks] at hblock
        rcases List.mem_append.mp hblock with hmem | hmem
        · rcases List.mem_append.mp hmem with hmem | hmem
          · exact Or.inl hmem
          · exact Or.inr (List.mem_append_left _ (List.mem_append_right _ hmem))
        · exact Or.inr (List.mem_append_right _ hmem)
      · rw [hcurrent] at hblock
        exact List.mem_append_left _ (List.mem_append_left _ hblock)

end Blocks

section Runs

variable {parseWorkflowMeta : String → Option ScriptMeta} {s s' : Work} {id : String} {e : WorkEvent}
  {es : List WorkEvent}

private theorem workflowFinished_iff : s.workflowFinished id = true ↔ Finished s.workflows id := by
  unfold Work.workflowFinished Finished
  rw [Option.any_eq_true]

private theorem lifecycle_of_terminalRaw (h : isTerminalRawStatus status = true) :
    agentLifecycleFromStatus (some (AgentBlock.notifiedStatus { status })) ≠ some .running := by
  obtain ⟨raw, rfl, hraw⟩ := (Option.any_eq_true _ _).mp h
  have hall : ∀ raw ∈ terminalRawStatuses,
      agentLifecycleFromStatus (some (AgentBlock.notifiedStatus { status := some raw })) ≠ some .running := by
    decide
  exact hall raw (of_decide_eq_true hraw)

private theorem startsNothing_of_ne {notification : AgentNotification}
    (h : agentLifecycleFromStatus (some (AgentBlock.notifiedStatus notification)) ≠ some .running) :
    s.startsNothing notification = true := by
  unfold Work.startsNothing
  rw [decide_eq_true h, Bool.true_or]

private theorem finished_complete {toolUseId taskId : Option String}
    (h : Finished s.workflows id) :
    Finished (s.complete toolUseId taskId status source endedAt summary now).workflows id := by
  unfold Work.complete
  split
  · exact h
  · exact finished_markCompletion h

private theorem blocks_complete {toolUseId taskId : Option String} :
    (s.complete toolUseId taskId status source endedAt summary now).blocks = s.blocks := by
  unfold Work.complete
  split <;> rfl

theorem AgentFinished.congr (h : s.AgentFinished id) (hblocks : s'.blocks = s.blocks) : s'.AgentFinished id := by
  unfold Work.AgentFinished at h ⊢
  rw [hblocks]
  exact h

private theorem finished_step (h : Finished s.workflows id) (hrestarts : s.restartsNothing e = true)
    (hs : s.step parseWorkflowMeta e = some s') : Finished s'.workflows id := by
  have hother {id' : String} (hnot : (!s.workflowFinished id') = true) : id' ≠ id := by
    rintro rfl
    rw [workflowFinished_iff.mpr h] at hnot
    cases hnot
  cases e with
  | attach | assistantMessage | toolResult toolUseId result | taskStopped taskId | userNotification notification =>
    cases hs
    exact h
  | toolUse parent uses =>
    cases hs
    unfold Work.onToolUse
    dsimp only
    split
    · split <;> exact h
    · split
      · exact h
      · exact finished_seedWorkflows h _
  | taskStarted id' fields now =>
    cases hs
    exact finished_applyStart h (hother hrestarts)
  | taskProgress id' progress =>
    cases hs
    exact finished_applyProgress h (hother hrestarts)
  | taskNotification notification summary now =>
    cases hs
    exact finished_complete h
  | taskUpdated taskId status endTime now =>
    cases hs
    apply finished_complete
    split <;> exact h
  | hydrated id' snap now =>
    cases hs
    exact finished_hydrateFromSnapshot h
  | streamEnd now =>
    cases hs
    exact finished_map h (finalized_of_terminal now)
  | abort status now =>
    cases hs
    exact finished_map h (aborted_of_terminal now)

private theorem agentFinished_step (h : s.AgentFinished id) (hrestarts : s.restartsNothing e = true)
    (hs : s.step parseWorkflowMeta e = some s') : s'.AgentFinished id := by
  cases e with
  | attach | assistantMessage | taskStarted _ _ _ | taskProgress _ _ | hydrated _ _ _ | streamEnd _ =>
    cases hs
    exact h
  | toolUse parent uses =>
    cases hs
    refine agentFinished_onToolUse h fun block hblock hfinished => ?_
    have hall := List.all_eq_true.mp hrestarts block hblock
    rw [hfinished, Bool.not_true, Bool.false_or] at hall
    exact hall
  | toolResult toolUseId result =>
    cases hs
    refine agentFinished_mapBlocks h (fun block => ?_) fun block _ hfinished => ?_
    · split
      · exact id_withAgentToolResult block result
      · rfl
    · split
      · exact finished_withAgentToolResult hfinished result
      · exact hfinished
  | taskStopped taskId =>
    cases hs
    have hkilled : agentLifecycleFromStatus (some (AgentBlock.notifiedStatus { status := some "killed" })) ≠
        some .running := by
      decide
    exact agentFinished_notify h (startsNothing_of_ne hkilled)
  | taskNotification notification summary now =>
    cases hs
    exact AgentFinished.congr (agentFinished_notify h hrestarts) blocks_complete
  | userNotification notification =>
    cases hs
    exact agentFinished_notify h hrestarts
  | taskUpdated taskId status endTime now =>
    cases hs
    refine AgentFinished.congr ?_ blocks_complete
    split
    · rename_i hterminal
      exact agentFinished_notify h (startsNothing_of_ne (lifecycle_of_terminalRaw hterminal))
    · exact h
  | abort status now =>
    cases hs
    have haborted : (s.mapBlocks (·.abortRunning status)).AgentFinished id :=
      agentFinished_mapBlocks h (fun block => id_abortRunning block status) fun block _ hfinished => by
        rw [finished_abortRunning hfinished]
        exact hfinished
    exact haborted

/-- In a run that starts nothing again, every workflow and every agent that has finished stays so. -/
theorem stays_finished (hmeets : RunMeets (Work.step parseWorkflowMeta) (fun s e => s.restartsNothing e = true) s es)
    (hrun : run (Work.step parseWorkflowMeta) s es = some s') :
    (∀ id, s.workflowFinished id = true → s'.workflowFinished id = true) ∧
      ∀ id, s.AgentFinished id → s'.AgentFinished id := by
  refine ⟨fun id h => ?_, fun id h => ?_⟩
  · refine workflowFinished_iff.mpr ?_
    exact run_invariant (fun _ _ _ hfinished hrestarts hs => finished_step hfinished hrestarts hs)
      (workflowFinished_iff.mp h) hmeets hrun
  · exact run_invariant (fun _ _ _ hfinished hrestarts hs => agentFinished_step hfinished hrestarts hs) h hmeets hrun

instance (s : Work) (id : String) : Decidable (s.AgentFinished id) := by
  unfold Work.AgentFinished
  infer_instance

def finishedWork : Work where
  messages := [[{ id := "toolu_a", status := some .success, agentTaskStatus := some "completed", agentId := "agent-1",
                  complete := true }]]
  workflows :=
    { workflows := [("toolu_w", { taskId := some "task-1", status := .completed, endedAt := some 4 })]
      workflowOrder := ["toolu_w"]
      taskIdIndex := [("task-1", "toolu_w")] }

/-- The stream is attached again, and late events come in next to a new agent. -/
def lateRun : List WorkEvent :=
  [.attach, .toolUse none [.workflow "toolu_w" none (some "Audit"), .agent "toolu_b" none],
    .toolResult "toolu_a" { resultId := "agent-1", isAsync := true },
    .taskUpdated (some "task-1") (some "running") none 5,
    .hydrated "toolu_w" { status := some "completed" } 6, .streamEnd 7, .abort .failed 8]

theorem finished_lateRun : ∃ s', run (Work.step fun _ => none) finishedWork lateRun = some s' ∧
    s'.workflowFinished "toolu_w" = true ∧ s'.AgentFinished "toolu_a" := by
  obtain ⟨s', hrun, -⟩ := exists_run_of_map (Work.step fun _ => none) finishedWork lateRun (fun _ => true)
    (by decide)
  obtain ⟨hworkflow, hagent⟩ := stays_finished (by decide) hrun
  exact ⟨s', hrun, hworkflow "toolu_w" (by decide), hagent "toolu_a" (by decide)⟩

/-- One progress event of the replay, and the workflow runs again; one notification that it runs, and so does the
agent. -/
theorem not_finished_replayed :
    (finishedWork.workflowFinished "toolu_w" = true ∧ finishedWork.AgentFinished "toolu_a") ∧
      (∃ s', run (Work.step fun _ => none) finishedWork [.taskProgress "toolu_w" {}] = some s' ∧
        ¬ s'.workflowFinished "toolu_w" = true) ∧
      ∃ s', run (Work.step fun _ => none) finishedWork
        [.taskNotification { taskId := some "agent-1", status := some "running" } none 9] = some s' ∧
        ¬ s'.AgentFinished "toolu_a" := by
  refine ⟨by decide, ?_, ?_⟩
  · exact exists_run_of_decide _ _ _ (fun _ h => h) (by decide)
  · exact exists_run_of_decide _ _ _ (fun _ h => h) (by decide)

end Runs

end PrivaCloud.Web
