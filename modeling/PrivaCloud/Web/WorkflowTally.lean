import Mathlib.Algebra.BigOperators.Group.List.Basic
import PrivaCloud.Web.WorkflowStore

/-!
# The sums of a workflow

Whatever order the script, the live events and a snapshot come in, the rows of a card fit together: the phases share
out the agents, and no delta takes away what an earlier one has set.
-/

namespace PrivaCloud.Web

open Framework JsonText

section Phases

variable {phases : List Phase} {p : Phase} {index : Int}

def phaseAt (phases : List Phase) (index : Int) : Option Phase := phases.find? (·.index = index)

private theorem phaseAt_index (h : phaseAt phases index = some p) : p.index = index := by
  simpa using List.find?_some h

private theorem phaseAt_mem (h : phaseAt phases index = some p) : p ∈ phases := List.mem_of_find?_eq_some h

private theorem phaseAt_eq_none : phaseAt phases index = none ↔ index ∉ phases.map Phase.index := by
  simp [phaseAt, List.find?_eq_none]

private theorem phaseAt_eq_some (hnodup : (phases.map Phase.index).Nodup) :
    phaseAt phases index = some p ↔ p ∈ phases ∧ p.index = index := by
  refine ⟨fun h => ⟨phaseAt_mem h, phaseAt_index h⟩, ?_⟩
  rintro ⟨hmem, hindex⟩
  cases hfound : phaseAt phases index with
  | none => exact absurd (hindex ▸ List.mem_map_of_mem hmem) (phaseAt_eq_none.mp hfound)
  | some q =>
    rw [List.inj_on_of_nodup_map hnodup (phaseAt_mem hfound) hmem ((phaseAt_index hfound).trans hindex.symm)]

variable {change : Phase → Phase}

private theorem phaseAt_setPhase (hchange : ∀ p, (change p).index = p.index) (phases : List Phase)
    (index other : Int) :
    phaseAt (setPhase index change phases) other =
      if other = index then some (change ((phaseAt phases index).getD { index })) else phaseAt phases other := by
  induction phases with
  | nil =>
    unfold setPhase phaseAt
    grind
  | cons q rest ih =>
    rw [setPhase]
    by_cases hq : q.index = index
    · rw [if_pos hq]
      unfold phaseAt
      grind
    · rw [if_neg hq]
      unfold phaseAt at ih ⊢
      grind

private theorem map_index_setPhase (hchange : ∀ p, (change p).index = p.index) (phases : List Phase)
    (index : Int) :
    (setPhase index change phases).map Phase.index =
      if index ∈ phases.map Phase.index then phases.map Phase.index else phases.map Phase.index ++ [index] := by
  induction phases with
  | nil => simp [setPhase, hchange]
  | cons q rest ih =>
    rw [setPhase]
    grind

private theorem nodup_append_singleton {l : List Int} (h : l.Nodup) (hnew : index ∉ l) : (l ++ [index]).Nodup := by
  grind

private theorem nodup_setPhase (hchange : ∀ p, (change p).index = p.index)
    (hnodup : (phases.map Phase.index).Nodup) : ((setPhase index change phases).map Phase.index).Nodup := by
  rw [map_index_setPhase hchange]
  split
  · exact hnodup
  · rename_i hnew
    exact nodup_append_singleton hnodup hnew

private theorem mem_index_setPhase (hchange : ∀ p, (change p).index = p.index) {i : Int}
    (hi : i ∈ phases.map Phase.index) : i ∈ (setPhase index change phases).map Phase.index := by
  rw [map_index_setPhase hchange]
  split
  · exact hi
  · exact List.mem_append_left _ hi

private theorem sortPhases_perm (phases : List Phase) : (sortPhases phases).Perm phases := List.perm_insertionSort _ _

private theorem map_index_sortPhases_perm (phases : List Phase) :
    ((sortPhases phases).map Phase.index).Perm (phases.map Phase.index) := (sortPhases_perm phases).map _

private theorem sortPhases_increasing (hnodup : (phases.map Phase.index).Nodup) :
    ((sortPhases phases).map Phase.index).Pairwise (· < ·) := by
  have hle : (sortPhases phases).Pairwise fun a b => a.index ≤ b.index := by
    have : Std.Total fun a b : Phase => a.index ≤ b.index := ⟨fun a b => le_total a.index b.index⟩
    have : IsTrans Phase fun a b => a.index ≤ b.index := ⟨fun _ _ _ => le_trans⟩
    exact List.pairwise_insertionSort _ _
  have hne : ((sortPhases phases).map Phase.index).Nodup := (map_index_sortPhases_perm phases).nodup_iff.mpr hnodup
  rw [List.Nodup, List.pairwise_map] at hne
  rw [List.pairwise_map]
  exact (hle.and hne).imp fun h => lt_of_le_of_ne h.1 h.2

private theorem phaseAt_sortPhases (hnodup : (phases.map Phase.index).Nodup) (index : Int) :
    phaseAt (sortPhases phases) index = phaseAt phases index := by
  have hsorted : ((sortPhases phases).map Phase.index).Nodup := (map_index_sortPhases_perm phases).nodup_iff.mpr hnodup
  apply Option.ext
  intro p
  rw [phaseAt_eq_some hsorted, phaseAt_eq_some hnodup, (sortPhases_perm phases).mem_iff]

end Phases

/-- Every agent is listed once, and in a phase that is there. -/
structure RowsFit (phases : List Phase) (agents : List (Int × Agent)) (agentOrder : List Int) : Prop where
  phases_nodup : (phases.map Phase.index).Nodup
  order_nodup : agentOrder.Nodup
  listed : ∀ i, i ∈ agentOrder ↔ (getValue agents i).isSome = true
  phase_listed : ∀ i a, getValue agents i = some a → a.phaseIndex ∈ phases.map Phase.index

variable {wf' : Workflow} {phases : List Phase}

section Fit

variable {rows : Rows} {wf : Workflow}

def Rows.Fit (rows : Rows) : Prop := RowsFit rows.phases rows.agents rows.agentOrder

private theorem RowsFit.withPhases {phases phases' : List Phase} {agents : List (Int × Agent)} {agentOrder : List Int}
    (h : RowsFit phases agents agentOrder) (hnodup : (phases'.map Phase.index).Nodup)
    (hsub : ∀ i ∈ phases.map Phase.index, i ∈ phases'.map Phase.index) : RowsFit phases' agents agentOrder where
  phases_nodup := hnodup
  order_nodup := h.order_nodup
  listed := h.listed
  phase_listed i a ha := hsub _ (h.phase_listed i a ha)

private theorem fit_addAgent (h : rows.Fit) (index phaseIndex : Int) (fields : Fields) :
    (rows.addAgent index phaseIndex fields).Fit := by
  obtain ⟨hphases, horder, hlisted, hphase⟩ := h
  have hany : rows.phases.any (·.index = phaseIndex) = true ↔ phaseIndex ∈ rows.phases.map Phase.index := by
    simp [List.any_eq_true]
  have hsub : ∀ i ∈ rows.phases.map Phase.index,
      i ∈ (rows.addAgent index phaseIndex fields).phases.map Phase.index := by
    intro i hi
    unfold Rows.addAgent
    dsimp only
    split
    · exact hi
    · rw [List.map_append]
      exact List.mem_append_left _ hi
  have hown : phaseIndex ∈ (rows.addAgent index phaseIndex fields).phases.map Phase.index := by
    unfold Rows.addAgent
    grind
  refine ⟨?_, ?_, fun i => ?_, fun i a ha => ?_⟩
  · unfold Rows.addAgent
    dsimp only
    split
    · exact hphases
    · rename_i hnew
      rw [List.map_append]
      exact nodup_append_singleton hphases fun hmem => hnew (hany.mpr hmem)
  · unfold Rows.addAgent
    dsimp only
    split
    · exact horder
    · rename_i hnew
      exact nodup_append_singleton horder hnew
  · have hmem : i ∈ (rows.addAgent index phaseIndex fields).agentOrder ↔ i = index ∨ i ∈ rows.agentOrder := by
      unfold Rows.addAgent
      grind
    rw [hmem, hlisted]
    unfold Rows.addAgent
    dsimp only
    rw [getValue_assign]
    by_cases hi : i = index
    · simp [hi]
    · simp [hi]
  · unfold Rows.addAgent at ha
    dsimp only at ha
    rw [getValue_assign] at ha
    split at ha
    · cases ha
      exact hown
    · exact hsub _ (hphase i a ha)

private theorem fit_add (h : rows.Fit) (item : WorkflowItem) : (rows.add item).Fit := by
  cases item with
  | phase index fields =>
    have hchange (p : Phase) : ({ p with fields := assignAll p.fields fields } : Phase).index = p.index := rfl
    exact h.withPhases (nodup_setPhase hchange h.phases_nodup) fun i hi => mem_index_setPhase hchange hi
  | agent index phaseIndex fields => exact fit_addAgent h index phaseIndex fields
  | other => exact h

private theorem add_phases (item : WorkflowItem) (h : (rows.add item).phasesChanged = false) :
    rows.phasesChanged = false ∧ (rows.add item).phases = rows.phases := by
  cases item with
  | phase index fields => cases h
  | agent index phaseIndex fields =>
    simp only [Rows.add, Rows.addAgent, Bool.or_eq_false_iff, Bool.not_eq_false'] at h ⊢
    exact ⟨h.1, if_pos h.2⟩
  | other => exact ⟨h, rfl⟩

private theorem fit_foldl (items : List WorkflowItem) (h : rows.Fit) : (items.foldl Rows.add rows).Fit ∧
      ((items.foldl Rows.add rows).phasesChanged = false →
        rows.phasesChanged = false ∧ (items.foldl Rows.add rows).phases = rows.phases) := by
  induction items generalizing rows with
  | nil => exact ⟨h, fun hsame => ⟨hsame, rfl⟩⟩
  | cons item rest ih =>
    obtain ⟨hfit, hphases⟩ := ih (fit_add h item)
    refine ⟨hfit, fun hsame => ?_⟩
    obtain ⟨hitem, hrest⟩ := hphases hsame
    obtain ⟨hrows, hadd⟩ := add_phases item hitem
    exact ⟨hrows, hrest.trans hadd⟩

/-- The rows fit together, and the phases are in order. -/
structure Workflow.Ordered (wf : Workflow) : Prop where
  fit : RowsFit wf.phases wf.agents wf.agentOrder
  increasing : (wf.phases.map Phase.index).Pairwise (· < ·)

private theorem ordered_of_rows (h : rows.Fit) (hagents : wf'.agents = rows.agents)
    (horder : wf'.agentOrder = rows.agentOrder)
    (hphases : wf'.phases = sortPhases rows.phases ∨
      wf'.phases = rows.phases ∧ (rows.phases.map Phase.index).Pairwise (· < ·)) : wf'.Ordered := by
  have hperm : (wf'.phases.map Phase.index).Perm (rows.phases.map Phase.index) := by
    rcases hphases with hphases | ⟨hphases, -⟩
    · rw [hphases]
      exact map_index_sortPhases_perm _
    · rw [hphases]
  have hfit : RowsFit wf'.phases rows.agents rows.agentOrder :=
    RowsFit.withPhases h (hperm.nodup_iff.mpr h.phases_nodup) fun i hi => hperm.mem_iff.mpr hi
  refine ⟨by rw [hagents, horder]; exact hfit, ?_⟩
  rcases hphases with hphases | ⟨hphases, hincreasing⟩
  · rw [hphases]
    exact sortPhases_increasing h.phases_nodup
  · rw [hphases]
    exact hincreasing

private theorem Workflow.Ordered.congr (h : wf.Ordered) (hphases : wf'.phases = wf.phases)
    (hagents : wf'.agents = wf.agents) (horder : wf'.agentOrder = wf.agentOrder) : wf'.Ordered := by
  have hfit : Rows.Fit ⟨wf.phases, wf.agents, wf.agentOrder, false⟩ := h.fit
  exact ordered_of_rows hfit hagents horder (Or.inr ⟨hphases, h.increasing⟩)

private theorem fit_rows (h : wf.Ordered) (items : List WorkflowItem) :
    (wf.rows items).Fit ∧ ((wf.rows items).phasesChanged = false → (wf.rows items).phases = wf.phases) := by
  have hfit : Rows.Fit ⟨wf.phases, wf.agents, wf.agentOrder, false⟩ := h.fit
  obtain ⟨hrows, hsame⟩ := fit_foldl items hfit
  exact ⟨hrows, fun h => (hsame h).2⟩

private theorem nodup_seedPhase (hnodup : (phases.map Phase.index).Nodup) (mp : MetaPhase) :
    ((seedPhase phases mp).1.map Phase.index).Nodup ∧
      (∀ i ∈ phases.map Phase.index, i ∈ (seedPhase phases mp).1.map Phase.index) ∧
      ((seedPhase phases mp).2 = false → (seedPhase phases mp).1 = phases) := by
  unfold seedPhase
  have hchange (p : Phase) : (mp.fill p).index = p.index := rfl
  split
  · rename_i hnone
    have hnew : mp.index ∉ phases.map Phase.index := phaseAt_eq_none.mp hnone
    dsimp only
    rw [List.map_append]
    exact ⟨nodup_append_singleton hnodup hnew, fun i hi => List.mem_append_left _ hi, fun h => (by cases h)⟩
  · split
    · exact ⟨nodup_setPhase hchange hnodup, fun i hi => mem_index_setPhase hchange hi, fun h => (by cases h)⟩
    · exact ⟨hnodup, fun _ hi => hi, fun _ => rfl⟩

theorem nodup_seedPhases (script : List MetaPhase) (hnodup : (phases.map Phase.index).Nodup) :
    ((seedPhases script phases).1.map Phase.index).Nodup ∧
      (∀ i ∈ phases.map Phase.index, i ∈ (seedPhases script phases).1.map Phase.index) ∧
      ((seedPhases script phases).2 = false → (seedPhases script phases).1 = phases) := by
  induction script generalizing phases with
  | nil => exact ⟨hnodup, fun _ hi => hi, fun _ => rfl⟩
  | cons mp rest ih =>
    obtain ⟨hone, hsub, hsame⟩ := nodup_seedPhase hnodup mp
    obtain ⟨hall, hsub', hsame'⟩ := ih hone
    refine ⟨hall, fun i hi => hsub' i (hsub i hi), fun h => ?_⟩
    rw [seedPhases, Bool.or_eq_false_iff] at h
    exact (hsame' h.2).trans (hsame h.1)

private theorem ordered_seedFromScript (parseWorkflowMeta : String → Option ScriptMeta) (h : wf.Ordered) :
    (seedFromScript parseWorkflowMeta wf).Ordered := by
  unfold seedFromScript
  split
  · exact h
  · rename_i script _
    obtain ⟨hnodup, hsub, hsame⟩ := nodup_seedPhases script.phases h.fit.phases_nodup
    have hfit : Rows.Fit ⟨(seedPhases script.phases wf.phases).1, wf.agents, wf.agentOrder, false⟩ :=
      h.fit.withPhases hnodup hsub
    refine ordered_of_rows hfit rfl rfl ?_
    dsimp only
    split
    · exact Or.inl rfl
    · rename_i hchanged
      rw [Bool.not_eq_true, Bool.or_eq_false_iff] at hchanged
      have hphases := hsame hchanged.2
      exact Or.inr ⟨hphases.symm, by rw [hphases]; exact h.increasing⟩

private theorem ordered_empty : ({} : Workflow).Ordered :=
  ⟨⟨List.nodup_nil, List.nodup_nil, fun _ => ⟨fun h => (by cases h), fun h => (by cases h)⟩, fun _ _ h => (by cases h)⟩,
    List.Pairwise.nil⟩

end Fit

section Sums

variable {α : Type} {wf : Workflow}

private theorem sum_countP_class {classes : List Int} (hnodup : classes.Nodup) (l : List α) (cls : α → Int)
    (hcls : ∀ x ∈ l, cls x ∈ classes) (p : α → Bool) :
    (classes.map fun c => (l.filter fun x => cls x = c).countP p).sum = l.countP p := by
  induction l with
  | nil => simp
  | cons x rest ih =>
    have hrest := ih fun y hy => hcls y (List.mem_cons_of_mem x hy)
    have hsplit (c : Int) : ((x :: rest).filter fun y => cls y = c).countP p =
        (if cls x = c then (if p x then 1 else 0) else 0) + (rest.filter fun y => cls y = c).countP p := by
      by_cases hc : cls x = c
      · simp [hc, List.countP_cons, Nat.add_comm]
      · simp [hc]
    have hone : (classes.map fun c => if cls x = c then (if p x then 1 else 0) else 0).sum = if p x then 1 else 0 := by
      obtain ⟨before, after, hclasses⟩ := List.append_of_mem (hcls x List.mem_cons_self)
      have hfresh : cls x ∉ before ++ after := by
        rw [hclasses, List.nodup_middle] at hnodup
        exact (List.nodup_cons.mp hnodup).1
      have hzero (l : List Int) (hl : ∀ c ∈ l, cls x ≠ c) :
          (l.map fun c => if cls x = c then (if p x then 1 else 0) else 0).sum = 0 := by
        apply List.sum_eq_zero
        intro n hn
        obtain ⟨c, hc, rfl⟩ := List.mem_map.mp hn
        exact if_neg (hl c hc)
      rw [hclasses, List.map_append, List.sum_append, List.map_cons, List.sum_cons,
        hzero before fun c hc heq => hfresh (List.mem_append_left after (heq ▸ hc)),
        hzero after fun c hc heq => hfresh (List.mem_append_right before (heq ▸ hc)), if_pos rfl]
      omega
    rw [List.map_congr_left fun c _ => hsplit c, List.sum_map_add, hone, hrest, List.countP_cons, Nat.add_comm]

structure Workflow.AddsUp (wf : Workflow) : Prop where
  once : wf.agentOrder.Nodup ∧ ∀ i, i ∈ wf.agentOrder ↔ (getValue wf.agents i).isSome = true
  increasing : (wf.phases.map Phase.index).Pairwise (· < ·)
  onePhase : ∀ i ∈ wf.agentOrder, ∃! p, p ∈ wf.phases ∧ wf.agentIs (fun a => a.phaseIndex = p.index) i = true
  total : (wf.phases.map fun p => (wf.phaseRollup p.index).total).sum = wf.agentTally.total
  done : (wf.phases.map fun p => (wf.phaseRollup p.index).done).sum = wf.agentTally.done
  failed : (wf.phases.map fun p => (wf.phaseRollup p.index).failed).sum = wf.agentTally.failed
  header : wf.workflowAgentTotals =
    { done := (wf.phases.map fun p => (wf.phaseRollup p.index).done).sum
      total := max (wf.phases.map fun p => (wf.phaseRollup p.index).total).sum wf.declared }

def Workflow.phaseOf (wf : Workflow) (index : Int) : Int := ((getValue wf.agents index).map Agent.phaseIndex).getD 0

private theorem sum_phases (h : wf.Ordered) (p : Int → Bool) : (wf.phases.map fun phase =>
      (wf.agentOrder.filter (wf.agentIs fun a => a.phaseIndex = phase.index)).countP p).sum = wf.agentOrder.countP p := by
  have hclass (c : Int) : wf.agentOrder.filter (wf.agentIs fun a => a.phaseIndex = c) =
      wf.agentOrder.filter fun i => wf.phaseOf i = c := by
    apply List.filter_congr
    intro i hi
    obtain ⟨a, ha⟩ := Option.isSome_iff_exists.mp ((h.fit.listed i).mp hi)
    rw [Workflow.agentIs, Workflow.phaseOf, ha]
    rfl
  have hsum := sum_countP_class h.fit.phases_nodup wf.agentOrder wf.phaseOf (fun i hi => ?_) p
  · rw [List.map_map] at hsum
    rw [← hsum]
    congr 1
    apply List.map_congr_left
    intro phase _
    rw [hclass]
    rfl
  · obtain ⟨a, ha⟩ := Option.isSome_iff_exists.mp ((h.fit.listed i).mp hi)
    rw [Workflow.phaseOf, ha]
    exact h.fit.phase_listed i a ha

private theorem Workflow.Ordered.addsUp (h : wf.Ordered) : wf.AddsUp := by
  have htotal : (wf.phases.map fun p => (wf.phaseRollup p.index).total).sum = wf.agentTally.total := by
    have hall := sum_phases h fun _ => true
    simp only [List.countP_true] at hall
    exact hall
  have hdone : (wf.phases.map fun p => (wf.phaseRollup p.index).done).sum = wf.agentTally.done := sum_phases h _
  refine ⟨⟨h.fit.order_nodup, h.fit.listed⟩, h.increasing, fun i hi => ?_, htotal, hdone, sum_phases h _, ?_⟩
  · obtain ⟨a, ha⟩ := Option.isSome_iff_exists.mp ((h.fit.listed i).mp hi)
    obtain ⟨p, hp, hindex⟩ := List.mem_map.mp (h.fit.phase_listed i a ha)
    have hbelongs (q : Phase) : wf.agentIs (fun a => a.phaseIndex = q.index) i = true ↔ a.phaseIndex = q.index := by
      rw [Workflow.agentIs, ha, Option.any_some, decide_eq_true_iff]
    refine ⟨p, ⟨hp, (hbelongs p).mpr hindex.symm⟩, ?_⟩
    rintro q ⟨hq, hown⟩
    exact List.inj_on_of_nodup_map h.fit.phases_nodup hq hp (((hbelongs q).mp hown).symm.trans hindex.symm)
  · rw [htotal, hdone]
    rfl

end Sums

inductive WorkflowCall
  | ensureWorkflow (id : String) (seed : Seed)
  | applyStart (id : String) (fields : Seed) (now : Int)
  | applyProgress (id : String) (progress : Progress)
  | hydrateFromSnapshot (id : String) (snap : Snapshot) (now : Int)

section Calls

variable (parseWorkflowMeta : String → Option ScriptMeta)

def WorkflowStore.apply (s : WorkflowStore) : WorkflowCall → WorkflowStore
  | .ensureWorkflow id seed => s.ensureWorkflow parseWorkflowMeta id seed
  | .applyStart id fields now => s.applyStart parseWorkflowMeta id fields now
  | .applyProgress id progress => s.applyProgress parseWorkflowMeta id progress
  | .hydrateFromSnapshot id snap now => s.hydrateFromSnapshot id snap now

def WorkflowStore.after (s : WorkflowStore) (calls : List WorkflowCall) : WorkflowStore :=
  calls.foldl (WorkflowStore.apply parseWorkflowMeta) s

def WorkflowStore.Ordered (s : WorkflowStore) : Prop := ∀ id wf, getValue s.workflows id = some wf → wf.Ordered

variable {s : WorkflowStore} {id : String} {wf : Workflow} {parseWorkflowMeta}

private theorem ordered_put (h : s.Ordered) (hwf : wf.Ordered) : (s.put id wf).Ordered := by
  intro other wf' hlookup
  rw [WorkflowStore.put, getValue_assign] at hlookup
  split at hlookup
  · cases hlookup
    exact hwf
  · exact h other wf' hlookup

private theorem ordered_onto (h : wf.Ordered) (seed : Seed) : (seed.onto wf).Ordered := h.congr rfl rfl rfl

theorem ordered_ensureWorkflow (h : s.Ordered) (seed : Seed) : (s.ensureWorkflow parseWorkflowMeta id seed).Ordered := by
  unfold WorkflowStore.ensureWorkflow
  split
  · exact h
  · split
    · rename_i existing hexisting
      exact ordered_put h (ordered_seedFromScript _ ((h id existing hexisting).congr rfl rfl rfl))
    · exact ordered_put h (ordered_seedFromScript _ (ordered_onto ordered_empty seed))

private theorem ordered_rows (h : wf.Ordered) (items : List WorkflowItem)
    (hagents : wf'.agents = (wf.rows items).agents) (horder : wf'.agentOrder = (wf.rows items).agentOrder)
    (hphases : wf'.phases = sortPhases (wf.rows items).phases ∨
      wf'.phases = wf.phases ∧ (wf.rows items).phasesChanged = false) : wf'.Ordered := by
  obtain ⟨hfit, hsame⟩ := fit_rows h items
  refine ordered_of_rows hfit hagents horder (hphases.imp_right fun ⟨hphases, hchanged⟩ => ?_)
  rw [hsame hchanged]
  exact ⟨hphases, h.increasing⟩

private theorem ordered_apply (h : s.Ordered) (call : WorkflowCall) : (s.apply parseWorkflowMeta call).Ordered := by
  cases call with
  | ensureWorkflow id seed => exact ordered_ensureWorkflow h seed
  | applyStart id fields now =>
    have hstarted : (s.ensureWorkflow parseWorkflowMeta id { status := some .running }).Ordered :=
      ordered_ensureWorkflow h _
    simp only [WorkflowStore.apply, WorkflowStore.applyStart]
    split
    · exact hstarted
    · rename_i base hbase
      exact ordered_put hstarted (ordered_seedFromScript _ ((hstarted id base hbase).congr rfl rfl rfl))
  | applyProgress id progress =>
    have hstarted : (s.ensureWorkflow parseWorkflowMeta id { status := some .running }).Ordered :=
      ordered_ensureWorkflow h _
    simp only [WorkflowStore.apply, WorkflowStore.applyProgress]
    split
    · exact h
    · split
      · exact hstarted
      · rename_i base hbase
        refine ordered_put hstarted (ordered_rows (hstarted id base hbase) progress.workflowProgress rfl rfl ?_)
        grind
  | hydrateFromSnapshot id snap now =>
    simp only [WorkflowStore.apply, WorkflowStore.hydrateFromSnapshot]
    split
    · exact h
    · rename_i base hbase
      split
      · exact h
      · exact ordered_put h (ordered_rows (h id base hbase) snap.workflowProgress rfl rfl (Or.inl rfl))

theorem ordered_after (h : s.Ordered) (calls : List WorkflowCall) : (s.after parseWorkflowMeta calls).Ordered := by
  induction calls generalizing s with
  | nil => exact h
  | cons call rest ih => exact ih (ordered_apply h call)

end Calls

inductive CardField
  | taskId
  | workflowName
  | description
  | script
  | startedAt
  | endedAt
  | summary
  | lastToolName
  | completionSource
  | tokens
  | durationMs

inductive FieldRef
  | card (field : CardField)
  | phase (index : Int) (key : String)
  | declaredAgents (index : Int)
  | agent (index : Int) (key : String)

def textValue (text : Option String) : Option Value := text.map fun text => .str text.toList

def numberValue (n : Int) : Value := .num (toString n).toList

namespace Workflow

variable (wf : Workflow)

def card : CardField → Option Value
  | .taskId => textValue wf.taskId
  | .workflowName => textValue wf.workflowName
  | .description => textValue wf.description
  | .script => textValue wf.script
  | .startedAt => wf.startedAt.map numberValue
  | .endedAt => wf.endedAt.map numberValue
  | .summary => textValue wf.summary
  | .lastToolName => textValue wf.lastToolName
  | .completionSource => textValue wf.completionSource
  | .tokens => some (numberValue wf.totals.tokens)
  | .durationMs => some (numberValue wf.totals.durationMs)

def fieldValue : FieldRef → Option Value
  | .card field => wf.card field
  | .phase index key => (phaseAt wf.phases index).bind fun p => getValue p.fields key
  | .declaredAgents index => (phaseAt wf.phases index).bind fun p => p.declaredAgents.map fun n : Nat => numberValue n
  | .agent index key => (getValue wf.agents index).bind fun a => getValue a.fields key

end Workflow

/-- A value that the script does not take for a gap -/
def FieldRef.isSet (ref : FieldRef) (v : Value) : Bool :=
  match ref with
  | .card .workflowName | .card .description => isTruthy v
  | .phase _ key => key ∉ ["title", "detail"] || isTruthy v
  | _ => true

def WorkflowStore.fieldValue (s : WorkflowStore) (id : String) (ref : FieldRef) : Option Value :=
  (getValue s.workflows id).bind fun wf => wf.fieldValue ref

def Seed.carries (seed : Seed) : FieldRef → Bool
  | .card .taskId => seed.taskId.isSome
  | .card .workflowName => seed.workflowName.isSome
  | .card .description => seed.description.isSome
  | .card .script => seed.script.isSome
  | .card .startedAt => seed.startedAt.isSome
  | _ => false

def WorkflowItem.carries (item : WorkflowItem) (ref : FieldRef) : Bool :=
  match item, ref with
  | .phase index fields, .phase index' key => index = index' && key ∈ fields.map Prod.fst
  | .agent index _ fields, .agent index' key => index = index' && key ∈ fields.map Prod.fst
  | _, _ => false

def Progress.carries (progress : Progress) (ref : FieldRef) : Bool :=
  match ref with
  | .card .taskId => progress.taskId.isSome
  | .card .summary => progress.summary.isSome
  | .card .lastToolName => progress.lastToolName.isSome
  | .card .tokens => progress.totalTokens.isSome
  | .card .durationMs => progress.durationMs.isSome
  | .card _ => false
  | ref => progress.workflowProgress.any (·.carries ref)

def Snapshot.carries (snap : Snapshot) (ref : FieldRef) : Bool :=
  match ref with
  | .card .taskId => snap.taskId.isSome
  | .card .workflowName => snap.workflowName.isSome
  | .card .summary => snap.summary.isSome
  | .card .startedAt => snap.startTime.isSome
  | .card .endedAt | .card .completionSource => isTerminalRawStatus snap.status
  | .card .tokens => snap.totalTokens.isSome
  | .card .durationMs => snap.durationMs.isSome
  | .card _ => false
  | ref => snap.workflowProgress.any (·.carries ref)

def WorkflowCall.carries (id : String) (ref : FieldRef) : WorkflowCall → Bool
  | .ensureWorkflow id' seed => id' = id && seed.carries ref
  | .applyStart id' fields _ => id' = id && fields.carries ref
  | .applyProgress id' progress => id' = id && progress.carries ref
  | .hydrateFromSnapshot id' snap _ => id' = id && snap.carries ref

section Stays

variable {parseWorkflowMeta : String → Option ScriptMeta} {wf : Workflow} {ref : FieldRef} {v : Value}

variable {id id' key : String} {s : WorkflowStore} {index : Int}

private theorem lastUnder_eq_none {es : Fields} (h : key ∉ es.map Prod.fst) : lastUnder es key = none := by
  apply getValue_eq_none
  rw [List.map_reverse, List.mem_reverse]
  exact h

private theorem getValue_assignAll_of_notMem {d es : Fields} (h : key ∉ es.map Prod.fst) :
    getValue (assignAll d es) key = getValue d key := by
  rw [getValue_assignAll, lastUnder_eq_none h, Option.none_or]

/-- A row has what another one had. -/
structure Phase.Keeps (p p' : Phase) : Prop where
  fields : ∀ key v, getValue p.fields key = some v → FieldRef.isSet (.phase p.index key) v = true →
    getValue p'.fields key = some v
  declaredAgents : ∀ n, p.declaredAgents = some n → p'.declaredAgents = some n

private theorem keeps_fill (mp : MetaPhase) (p : Phase) : p.Keeps (mp.fill p) where
  fields key v hv hset := by
    refine (getValue_assignAll_of_notMem fun hmem => ?_).trans hv
    obtain ⟨e, he, rfl⟩ := List.mem_map.mp hmem
    obtain ⟨htext, hgap⟩ := List.mem_filter.mp he
    have hkey : e.1 ∈ ["title", "detail"] := by
      rcases List.mem_append.mp htext with htext | htext <;>
        obtain ⟨text, -, rfl⟩ := Option.map_eq_some_iff.mp (Option.mem_toList.mp htext) <;> simp
    have htruthy : isTruthy v = true := by simpa [FieldRef.isSet, hkey] using hset
    rw [isFilled, hv, Option.any_some, htruthy] at hgap
    simp at hgap
  declaredAgents n hn := by
    rw [MetaPhase.fill, hn]
    rfl

private theorem phaseAt_append {p new : Phase} (h : phaseAt phases index = some p) :
    phaseAt (phases ++ [new]) index = some p := by
  unfold phaseAt at h ⊢
  rw [List.find?_append, h, Option.some_or]

private theorem Phase.Keeps.refl (p : Phase) : p.Keeps p := ⟨fun _ _ hv _ => hv, fun _ hn => hn⟩

private theorem keeps_seedPhase {p : Phase} (h : phaseAt phases index = some p)
    (mp : MetaPhase) : ∃ p', phaseAt (seedPhase phases mp).1 index = some p' ∧ p.Keeps p' := by
  unfold seedPhase
  split
  · exact ⟨p, phaseAt_append h, Phase.Keeps.refl p⟩
  · split
    · have hchange (p : Phase) : (mp.fill p).index = p.index := rfl
      dsimp only
      rw [phaseAt_setPhase hchange]
      split
      · rename_i hindex
        rw [← hindex, h]
        exact ⟨_, rfl, keeps_fill mp p⟩
      · exact ⟨p, h, Phase.Keeps.refl p⟩
    · exact ⟨p, h, Phase.Keeps.refl p⟩

private theorem keeps_seedPhases (script : List MetaPhase) {p : Phase}
    (h : phaseAt phases index = some p) : ∃ p', phaseAt (seedPhases script phases).1 index = some p' ∧ p.Keeps p' := by
  induction script generalizing phases p with
  | nil => exact ⟨p, h, Phase.Keeps.refl p⟩
  | cons mp rest ih =>
    obtain ⟨q, hq, hkeeps⟩ := keeps_seedPhase h mp
    obtain ⟨p', hp', hkeeps'⟩ := ih hq
    have hindex : q.index = p.index := (phaseAt_index hq).trans (phaseAt_index h).symm
    refine ⟨p', hp', fun key v hv hset => ?_, fun n hn => hkeeps'.declaredAgents n (hkeeps.declaredAgents n hn)⟩
    exact hkeeps'.fields key v (hkeeps.fields key v hv hset) (hindex ▸ hset)

private theorem nonempty_isNone_of_set {text : Option String} (h : textValue text = some v) (hset : isTruthy v = true) :
    (nonempty text).isNone = false := by
  obtain ⟨text, rfl, rfl⟩ := Option.map_eq_some_iff.mp h
  have hne : text ≠ "" := by
    rintro rfl
    cases hset
  simp [nonempty, hne]

private theorem seedFromScript_stays (h : wf.Ordered) (hv : wf.fieldValue ref = some v) (hset : ref.isSet v = true) :
    (seedFromScript parseWorkflowMeta wf).fieldValue ref = some v := by
  unfold seedFromScript
  split
  · exact hv
  · rename_i script _
    have hphase (index : Int) (p : Phase) (hp : phaseAt wf.phases index = some p) (changed : Bool)
        (hchanged : changed = false → (seedPhases script.phases wf.phases).2 = false) :
        ∃ p', phaseAt (if changed then sortPhases (seedPhases script.phases wf.phases).1 else wf.phases) index =
          some p' ∧ p.Keeps p' := by
      split
      · rw [phaseAt_sortPhases (nodup_seedPhases script.phases h.fit.phases_nodup).1]
        exact keeps_seedPhases script.phases hp
      · exact ⟨p, hp, Phase.Keeps.refl p⟩
    cases ref with
    | card field =>
      cases field with
      | workflowName =>
        have hnone := nonempty_isNone_of_set hv hset
        simp only [Workflow.fieldValue, Workflow.card, hnone, Bool.false_and, Bool.false_eq_true, if_false]
        exact hv
      | description =>
        have hnone := nonempty_isNone_of_set hv hset
        simp only [Workflow.fieldValue, Workflow.card, hnone, Bool.false_and, Bool.false_eq_true, if_false]
        exact hv
      | _ => exact hv
    | phase index key =>
      obtain ⟨p, hp, hkey⟩ := Option.bind_eq_some_iff.mp hv
      obtain ⟨p', hp', hkeeps⟩ := hphase index p hp _ fun hsame => (Bool.or_eq_false_iff.mp hsame).2
      simp only [Workflow.fieldValue]
      rw [hp']
      exact hkeeps.fields key v hkey (by simpa [FieldRef.isSet] using hset)
    | declaredAgents index =>
      obtain ⟨p, hp, hdeclared⟩ := Option.bind_eq_some_iff.mp hv
      obtain ⟨n, hn, hvalue⟩ := Option.map_eq_some_iff.mp hdeclared
      obtain ⟨p', hp', hkeeps⟩ := hphase index p hp _ fun hsame => (Bool.or_eq_false_iff.mp hsame).2
      simp only [Workflow.fieldValue]
      rw [hp', Option.bind_some, hkeeps.declaredAgents n hn, Option.map_some, hvalue]
    | agent index key => exact hv

private theorem not_mem_of_not_carried {fields : Fields} {p : Bool}
    (h : (decide (index = index) && p) = false) (hp : p = decide (key ∈ fields.map Prod.fst)) :
    key ∉ fields.map Prod.fst := by
  rw [decide_eq_true rfl, Bool.true_and, hp] at h
  exact of_decide_eq_false h

def Rows.fieldValue (rows : Rows) : FieldRef → Option Value
  | .phase index key => (phaseAt rows.phases index).bind fun p => getValue p.fields key
  | .declaredAgents index => (phaseAt rows.phases index).bind fun p => p.declaredAgents.map fun n : Nat => numberValue n
  | .agent index key => (getValue rows.agents index).bind fun a => getValue a.fields key
  | .card _ => none

private theorem add_stays {rows : Rows} {item : WorkflowItem} (hv : rows.fieldValue ref = some v)
    (hitem : item.carries ref = false) : (rows.add item).fieldValue ref = some v := by
  have hpushed (index phaseIndex : Int) (p : Phase) (hp : phaseAt rows.phases index = some p) (listed : Bool) :
      phaseAt (if listed then rows.phases else rows.phases ++ [{ index := phaseIndex }]) index = some p := by
    split
    · exact hp
    · exact phaseAt_append hp
  cases item with
  | phase index fields =>
    have hchange (p : Phase) : ({ p with fields := assignAll p.fields fields } : Phase).index = p.index := rfl
    cases ref with
    | card field => cases hv
    | phase index' key =>
      obtain ⟨p, hp, hkey⟩ := Option.bind_eq_some_iff.mp hv
      simp only [Rows.fieldValue, Rows.add]
      rw [phaseAt_setPhase hchange]
      split
      · rename_i hindex
        subst hindex
        rw [hp, Option.bind_some, Option.getD_some, getValue_assignAll_of_notMem (not_mem_of_not_carried hitem rfl)]
        exact hkey
      · exact hv
    | declaredAgents index' =>
      obtain ⟨p, hp, hdeclared⟩ := Option.bind_eq_some_iff.mp hv
      simp only [Rows.fieldValue, Rows.add]
      rw [phaseAt_setPhase hchange]
      split
      · rename_i hindex
        subst hindex
        rw [hp]
        exact hdeclared
      · exact hv
    | agent index' key => exact hv
  | agent index phaseIndex fields =>
    cases ref with
    | card field => cases hv
    | phase index' key =>
      obtain ⟨p, hp, hkey⟩ := Option.bind_eq_some_iff.mp hv
      simp only [Rows.fieldValue, Rows.add, Rows.addAgent]
      rw [hpushed index' phaseIndex p hp]
      exact hkey
    | declaredAgents index' =>
      obtain ⟨p, hp, hdeclared⟩ := Option.bind_eq_some_iff.mp hv
      simp only [Rows.fieldValue, Rows.add, Rows.addAgent]
      rw [hpushed index' phaseIndex p hp]
      exact hdeclared
    | agent index' key =>
      obtain ⟨a, ha, hkey⟩ := Option.bind_eq_some_iff.mp hv
      simp only [Rows.fieldValue, Rows.add, Rows.addAgent]
      rw [getValue_assign]
      split
      · rename_i hindex
        subst hindex
        rw [ha, Option.bind_some, Option.map_some, Option.getD_some,
          getValue_assignAll_of_notMem (not_mem_of_not_carried hitem rfl)]
        exact hkey
      · exact hv
  | other => exact hv

private theorem foldl_stays {rows : Rows} {items : List WorkflowItem} (hv : rows.fieldValue ref = some v)
    (hitems : items.any (·.carries ref) = false) : (items.foldl Rows.add rows).fieldValue ref = some v := by
  induction items generalizing rows with
  | nil => exact hv
  | cons item rest ih =>
    rw [List.any_cons, Bool.or_eq_false_iff] at hitems
    exact ih (add_stays hv hitems.1) hitems.2

private theorem rows_stay {items : List WorkflowItem} (h : wf.Ordered) (hv : wf.fieldValue ref = some v)
    (hcard : ∀ field, ref ≠ .card field) (hitems : items.any (·.carries ref) = false)
    (hagents : wf'.agents = (wf.rows items).agents)
    (hphases : wf'.phases = sortPhases (wf.rows items).phases ∨
      wf'.phases = wf.phases ∧ (wf.rows items).phasesChanged = false) : wf'.fieldValue ref = some v := by
  obtain ⟨hfit, hsame⟩ := fit_rows h items
  have hphase (index : Int) : phaseAt wf'.phases index = phaseAt (wf.rows items).phases index := by
    rcases hphases with hphases | ⟨hphases, hchanged⟩
    · rw [hphases, phaseAt_sortPhases hfit.phases_nodup]
    · rw [hphases, hsame hchanged]
  have hrows : (wf.rows items).fieldValue ref = some v := by
    refine foldl_stays ?_ hitems
    cases ref with
    | card field => exact absurd rfl (hcard field)
    | _ => exact hv
  cases ref with
  | card field => exact absurd rfl (hcard field)
  | phase index key =>
    rw [Workflow.fieldValue, hphase]
    exact hrows
  | declaredAgents index =>
    rw [Workflow.fieldValue, hphase]
    exact hrows
  | agent index key =>
    rw [Workflow.fieldValue, hagents]
    exact hrows

private theorem or_stays {new old : Option String} (hv : textValue old = some v) (hnew : new.isSome = false) :
    textValue (new.or old) = some v := by
  rw [Option.isSome_eq_false_iff, Option.isNone_iff_eq_none] at hnew
  rw [hnew, Option.none_or]
  exact hv

private theorem onto_stays {seed : Seed} (hv : wf.fieldValue ref = some v) (hseed : seed.carries ref = false) :
    (seed.onto wf).fieldValue ref = some v := by
  cases ref with
  | card field =>
    cases field with
    | taskId | workflowName | description | script => exact or_stays hv hseed
    | startedAt =>
      have hnone : seed.startedAt = none := Option.isNone_iff_eq_none.mp (Option.isSome_eq_false_iff.mp hseed)
      simp only [Workflow.fieldValue, Workflow.card, Seed.onto]
      rw [hnone, Option.none_or]
      exact hv
    | _ => exact hv
  | _ => exact hv

private theorem ensureWorkflow_stays {seed : Seed} (h : s.Ordered)
    (hv : s.fieldValue id ref = some v) (hset : ref.isSet v = true)
    (hseed : id' = id → seed.carries ref = false) :
    (s.ensureWorkflow parseWorkflowMeta id' seed).fieldValue id ref = some v := by
  obtain ⟨wf, hwf, hvalue⟩ := Option.bind_eq_some_iff.mp hv
  have hput (wf' : Workflow) (hwf' : id = id' → wf'.fieldValue ref = some v) :
      (getValue (assign s.workflows id' wf') id).bind (fun wf => wf.fieldValue ref) = some v := by
    rw [getValue_assign]
    split
    · rename_i hid
      exact hwf' hid
    · rw [hwf]
      exact hvalue
  unfold WorkflowStore.ensureWorkflow
  split
  · exact hv
  · split
    · rename_i existing hexisting
      refine hput _ fun hid => ?_
      subst hid
      obtain rfl := Option.some.inj (hwf.symm.trans hexisting)
      refine seedFromScript_stays ((h id wf hwf).congr rfl rfl rfl) ?_ hset
      have honto := onto_stays hvalue (hseed rfl)
      cases ref with
      | card field => cases field <;> exact honto
      | _ => exact honto
    · rename_i hnone
      refine hput _ fun hid => ?_
      subst hid
      rw [hwf] at hnone
      cases hnone

/-- A workflow that is only said to run has no other new field. -/
theorem running_stays (parseWorkflowMeta : String → Option ScriptMeta) (id' : String)
    (h : s.Ordered) (hv : s.fieldValue id ref = some v) (hset : ref.isSet v = true) :
    (s.ensureWorkflow parseWorkflowMeta id' { status := some .running }).fieldValue id ref = some v := by
  refine ensureWorkflow_stays h hv hset fun _ => ?_
  cases ref with
  | card field => cases field <;> rfl
  | _ => rfl

private theorem put_stays {base : Workflow} (hv : s.fieldValue id ref = some v)
    (hbase : getValue s.workflows id' = some base)
    (hwf : id' = id → base.fieldValue ref = some v → wf'.fieldValue ref = some v) :
    (s.put id' wf').fieldValue id ref = some v := by
  unfold WorkflowStore.fieldValue WorkflowStore.put at *
  rw [getValue_assign]
  split
  · rename_i hid
    subst hid
    rw [hbase] at hv
    exact hwf rfl hv
  · exact hv

private theorem applyStart_stays {fields : Seed} {now : Int} (h : s.Ordered)
    (hv : s.fieldValue id ref = some v) (hset : ref.isSet v = true) (hfields : id' = id → fields.carries ref = false) :
    (s.applyStart parseWorkflowMeta id' fields now).fieldValue id ref = some v := by
  have hordered : (s.ensureWorkflow parseWorkflowMeta id' { status := some .running }).Ordered :=
    ordered_ensureWorkflow h _
  have hstarted := running_stays parseWorkflowMeta id' h hv hset
  unfold WorkflowStore.applyStart
  dsimp only
  split
  · exact hstarted
  · rename_i base hbase
    refine put_stays hstarted hbase fun hid hvalue => ?_
    refine seedFromScript_stays ((hordered id' base hbase).congr rfl rfl rfl) ?_ hset
    have honto := onto_stays hvalue (hfields hid)
    cases ref with
    | card field =>
      cases field with
      | startedAt =>
        obtain ⟨startedAt, hstartedAt, hn⟩ := Option.map_eq_some_iff.mp hvalue
        simp only [Workflow.fieldValue, Workflow.card, hstartedAt, Option.some_or, Option.map_some, hn]
      | _ => exact honto
    | _ => exact honto

private theorem getD_stays {new : Option Int} {old : Int} (hnew : new.isSome = false) : new.getD old = old := by
  rw [Option.isNone_iff_eq_none.mp (Option.isSome_eq_false_iff.mp hnew), Option.getD_none]

private theorem applyProgress_stays {progress : Progress} (h : s.Ordered)
    (hv : s.fieldValue id ref = some v) (hset : ref.isSet v = true)
    (hprogress : id' = id → progress.carries ref = false) :
    (s.applyProgress parseWorkflowMeta id' progress).fieldValue id ref = some v := by
  have hordered : (s.ensureWorkflow parseWorkflowMeta id' { status := some .running }).Ordered :=
    ordered_ensureWorkflow h _
  have hstarted := running_stays parseWorkflowMeta id' h hv hset
  unfold WorkflowStore.applyProgress
  dsimp only
  split
  · exact hv
  · split
    · exact hstarted
    · rename_i base hbase
      refine put_stays hstarted hbase fun hid hvalue => ?_
      have hcarries := hprogress hid
      have hphases : (if (base.rows progress.workflowProgress).phasesChanged then
          sortPhases (base.rows progress.workflowProgress).phases else base.phases) =
          sortPhases (base.rows progress.workflowProgress).phases ∨
          (if (base.rows progress.workflowProgress).phasesChanged then
            sortPhases (base.rows progress.workflowProgress).phases else base.phases) = base.phases ∧
          (base.rows progress.workflowProgress).phasesChanged = false := by
        grind
      cases ref with
      | card field =>
        cases field with
        | taskId =>
          obtain ⟨taskId, htaskId, hn⟩ := Option.map_eq_some_iff.mp hvalue
          simp only [Workflow.fieldValue, Workflow.card, htaskId, Option.some_or, textValue, Option.map_some, hn]
        | summary | lastToolName => exact or_stays hvalue hcarries
        | tokens | durationMs =>
          simp only [Workflow.fieldValue, Workflow.card]
          rw [getD_stays hcarries]
          exact hvalue
        | _ => exact hvalue
      | _ =>
        exact rows_stay (hordered id' base hbase) hvalue (fun _ hcard => by cases hcard) hcarries rfl hphases

theorem hydrateFromSnapshot_stays {snap : Snapshot} {now : Int} (h : s.Ordered)
    (hv : s.fieldValue id ref = some v) (hsnap : id' = id → snap.carries ref = false) :
    (s.hydrateFromSnapshot id' snap now).fieldValue id ref = some v := by
  unfold WorkflowStore.hydrateFromSnapshot
  split
  · exact hv
  · rename_i base hbase
    split
    · exact hv
    · refine put_stays hv hbase fun hid hvalue => ?_
      have hcarries := hsnap hid
      have hkept {new : Option String} {old : Option String} (hold : textValue old = some v) :
          textValue (old.or new) = some v := by
        obtain ⟨text, rfl, hn⟩ := Option.map_eq_some_iff.mp hold
        rw [Option.some_or, textValue, Option.map_some, hn]
      have htime {new : Option Int} {old : Option Int} (hold : old.map numberValue = some v) :
          (old.or new).map numberValue = some v := by
        obtain ⟨n, rfl, hn⟩ := Option.map_eq_some_iff.mp hold
        rw [Option.some_or, Option.map_some, hn]
      cases ref with
      | card field =>
        cases field with
        | taskId | workflowName | summary | completionSource => exact hkept hvalue
        | startedAt | endedAt => exact htime hvalue
        | tokens | durationMs =>
          simp only [Workflow.fieldValue, Workflow.card]
          rw [getD_stays hcarries]
          exact hvalue
        | _ => exact hvalue
      | _ =>
        exact rows_stay (h id' base hbase) hvalue (fun _ hcard => by cases hcard) hcarries rfl (Or.inl rfl)

private theorem apply_stays {call : WorkflowCall} (h : s.Ordered)
    (hv : s.fieldValue id ref = some v) (hset : ref.isSet v = true) (hcall : call.carries id ref = false) :
    (s.apply parseWorkflowMeta call).fieldValue id ref = some v := by
  have hown {id' : String} {p : Bool} (hand : (decide (id' = id) && p) = false) (hid : id' = id) : p = false := by
    rw [decide_eq_true hid, Bool.true_and] at hand
    exact hand
  cases call with
  | ensureWorkflow id' seed => exact ensureWorkflow_stays h hv hset (hown hcall)
  | applyStart id' fields now => exact applyStart_stays h hv hset (hown hcall)
  | applyProgress id' progress => exact applyProgress_stays h hv hset (hown hcall)
  | hydrateFromSnapshot id' snap now => exact hydrateFromSnapshot_stays h hv (hown hcall)

private theorem after_stays {calls : List WorkflowCall} (h : s.Ordered)
    (hv : s.fieldValue id ref = some v) (hset : ref.isSet v = true)
    (hcalls : ∀ call ∈ calls, call.carries id ref = false) :
    (s.after parseWorkflowMeta calls).fieldValue id ref = some v := by
  induction calls generalizing s with
  | nil => exact hv
  | cons call rest ih =>
    exact ih (ordered_apply h call) (apply_stays h hv hset (hcalls call List.mem_cons_self))
      fun call' hcall' => hcalls call' (List.mem_cons_of_mem call hcall')

/-- After any calls the rows of every card add up, and what was set before some of them and is in none of their
deltas is still there. -/
theorem addsUp_and_stays (parseWorkflowMeta : String → Option ScriptMeta) (calls later : List WorkflowCall) :
    (∀ id wf, getValue (WorkflowStore.after parseWorkflowMeta {} calls).workflows id = some wf → wf.AddsUp) ∧
      ∀ id ref v, (WorkflowStore.after parseWorkflowMeta {} calls).fieldValue id ref = some v → ref.isSet v = true →
        (∀ call ∈ later, call.carries id ref = false) →
        (WorkflowStore.after parseWorkflowMeta {} (calls ++ later)).fieldValue id ref = some v := by
  have hordered : (WorkflowStore.after parseWorkflowMeta {} calls).Ordered :=
    ordered_after (fun _ _ h => (by cases h)) calls
  refine ⟨fun id wf hwf => (hordered id wf hwf).addsUp, fun id ref v hv hset hlater => ?_⟩
  have hsplit : WorkflowStore.after parseWorkflowMeta {} (calls ++ later) =
      WorkflowStore.after parseWorkflowMeta (WorkflowStore.after parseWorkflowMeta {} calls) later :=
    List.foldl_append
  rw [hsplit]
  exact after_stays hordered hv hset hlater

end Stays

/-- A script that declares six agents in two phases -/
def sixAgents : String → Option ScriptMeta := fun _ =>
  some { phases := [{ index := 1, title := some "Scan", agents := some 2 },
    { index := 2, title := some "Fix", agents := some 4 }] }

/-- The workflow starts and both phases get an agent, one of them before its phase is known. -/
def sixAgentsCalls : List WorkflowCall :=
  [.ensureWorkflow "toolu_1" { script := some "…", status := some .pending },
    .applyStart "toolu_1" { taskId := some "task-1", workflowName := some "Audit" } 1000,
    .applyProgress "toolu_1" { workflowProgress := [.agent 1 1 [("state", .str "done".toList)], .agent 3 5 []] }]

theorem addsUp_sixAgentsCalls :
    ((getValue (WorkflowStore.after sixAgents {} sixAgentsCalls).workflows "toolu_1").map fun wf =>
      (wf.phases.map Phase.index, wf.agentTally)) = some ([1, 2, 5], { total := 2, done := 1, failed := 0 }) ∧
    (∀ id wf, getValue (WorkflowStore.after sixAgents {} sixAgentsCalls).workflows id = some wf → wf.AddsUp) ∧
    (WorkflowStore.after sixAgents {} (sixAgentsCalls ++ [.applyProgress "toolu_1" {}])).fieldValue "toolu_1"
      (.agent 1 "state") = some (.str "done".toList) := by
  obtain ⟨hadds, hstays⟩ := addsUp_and_stays sixAgents sixAgentsCalls [.applyProgress "toolu_1" {}]
  refine ⟨by decide, hadds, hstays "toolu_1" (.agent 1 "state") (.str "done".toList) (by rfl) rfl ?_⟩
  intro call hcall
  rw [List.mem_singleton.mp hcall]
  rfl

/-- The header counts agents that no phase has yet. -/
theorem header_not_sum : (getValue (WorkflowStore.after sixAgents {}
      [.ensureWorkflow "toolu_1" { script := some "…", status := some .pending }]).workflows "toolu_1").map
      (fun wf => ((wf.phases.map fun p => (wf.phaseRollup p.index).total).sum, wf.workflowAgentTotals.total)) =
    some (0, 6) := by
  decide

end PrivaCloud.Web
