import PrivaCloud.AgentRunner.ScheduledRuns.JobEdits

/-!
# Edits along a run

What an update writes is compared with the job that is stored when it writes.
-/

namespace PrivaCloud.AgentRunner.Jobs

open Framework DataPlane

/-- A definition without a configuration has no prompt, and an agent run without a prompt runs none. -/
structure Validated (job : ScheduledJobDefinition) : Prop where
  prompt : job.jobConfig = none → job.prompt = ""
  config : ∀ c, job.jobConfig = some (.agentRun c) → job.prompt = "" → c.prompt = ""

def written (d before : ScheduledJobDefinition) (now : IsoTime) : ScheduledJobDefinition :=
  ScheduledJobDefinition.modelValidate { d with id := before.id, createdAt := before.createdAt, updatedAt := now }

theorem validated_modelValidate (d : ScheduledJobDefinition) :
    Validated (ScheduledJobDefinition.modelValidate d) := by
  unfold ScheduledJobDefinition.modelValidate
  constructor
  · intro hnone
    change ScheduledJobDefinition.validConfig d.prompt d.model d.jobConfig = none at hnone
    change ScheduledJobDefinition.validPrompt d.prompt _ = ""
    rw [hnone]
    cases hc : d.jobConfig with
    | some config =>
      rw [hc] at hnone
      cases hnone
    | none =>
      rw [hc, ScheduledJobDefinition.validConfig] at hnone
      change d.prompt = ""
      by_contra hprompt
      rw [if_neg hprompt] at hnone
      cases hnone
  · intro c hconfig hprompt
    change ScheduledJobDefinition.validConfig d.prompt d.model d.jobConfig = some (.agentRun c) at hconfig
    change ScheduledJobDefinition.validPrompt d.prompt
      (ScheduledJobDefinition.validConfig d.prompt d.model d.jobConfig) = "" at hprompt
    rw [hconfig, ScheduledJobDefinition.validPrompt] at hprompt
    split at hprompt
    · exact hprompt
    · rename_i hne
      exact absurd hprompt hne

section Store

variable {s : Store} {jobId jobId' : String} {job before : ScheduledJobDefinition}

theorem getJob_eq_some (h : SchedulerService.getJob s jobId = some job) :
    ∃ row, s.jobGet jobId = some row ∧ SchedulerService.toJob row = job := Option.map_eq_some_iff.mp h

theorem validated_getJob (h : SchedulerService.getJob s jobId = some job) : Validated job := by
  obtain ⟨row, -, rfl⟩ := getJob_eq_some h
  exact validated_modelValidate _

theorem id_getJob (h : SchedulerService.getJob s jobId = some job) : job.id = jobId := by
  obtain ⟨row, hrow, rfl⟩ := getJob_eq_some h
  have hkey : row.jobId = jobId := Table.key_of_find? (show s.jobs.find? jobId = some row from hrow)
  exact hkey

theorem getJob_updateJob (h : SchedulerService.getJob s jobId = some before) (d : ScheduledJobDefinition)
    (now : IsoTime) :
    SchedulerService.getJob (SchedulerService.updateJob s jobId d now).2 jobId = some (written d before now) := by
  obtain ⟨row, hrow, rfl⟩ := getJob_eq_some h
  unfold SchedulerService.updateJob
  rw [hrow]
  exact getJob_jobUpdate hrow _ _

theorem getJob_jobUpdate_of_ne (hne : jobId' ≠ jobId) (fields : JobRow → JobRow)
    (hf : ∀ row, (fields row).jobId = row.jobId) :
    SchedulerService.getJob (s.jobUpdate jobId fields hf) jobId' = SchedulerService.getJob s jobId' := by
  have hfind := Table.find?_modify s.jobs jobId fields hf jobId'
  rw [if_neg hne] at hfind
  exact congrArg (Option.map SchedulerService.toJob) hfind

theorem getJob_updateJob_of_ne (hne : jobId' ≠ jobId) (d : ScheduledJobDefinition) (now : IsoTime) :
    SchedulerService.getJob (SchedulerService.updateJob s jobId d now).2 jobId' =
      SchedulerService.getJob s jobId' := by
  unfold SchedulerService.updateJob
  split
  · rfl
  · exact getJob_jobUpdate_of_ne hne _ _

theorem getJob_setJobStatus (h : SchedulerService.getJob s jobId = some before) (status : JobStatus)
    (now : IsoTime) :
    SchedulerService.getJob (JobSystem.setJobStatus s jobId status now) jobId =
      some { before with status := status, updatedAt := now } := by
  obtain ⟨row, hrow, rfl⟩ := getJob_eq_some h
  exact getJob_jobUpdate hrow _ _

theorem getJob_jobDelete (h : SchedulerService.getJob (s.jobDelete jobId') jobId = some job) :
    SchedulerService.getJob s jobId = some job := by
  obtain ⟨row, hrow, rfl⟩ := getJob_eq_some h
  have hmem : row ∈ s.jobs.rows := List.mem_of_mem_filter (Table.mem_of_find? hrow)
  have hfind : s.jobs.find? jobId = some row := Table.find?_eq_some.mpr ⟨hmem, Table.key_of_find? hrow⟩
  exact congrArg (Option.map SchedulerService.toJob) hfind

end Store

theorem jobConfig_written (d before : ScheduledJobDefinition) (now : IsoTime) :
    (written d before now).jobConfig = ScheduledJobDefinition.validConfig d.prompt d.model d.jobConfig := rfl

theorem prompt_written (d before : ScheduledJobDefinition) (now : IsoTime) :
    (written d before now).prompt = ScheduledJobDefinition.validPrompt d.prompt
      (ScheduledJobDefinition.validConfig d.prompt d.model d.jobConfig) := rfl

theorem validPrompt_agentRun (c : AgentRunConfig) :
    ScheduledJobDefinition.validPrompt c.prompt (some (.agentRun c)) = c.prompt := by
  rw [ScheduledJobDefinition.validPrompt]
  split <;> rfl

theorem configModel_setPrompt (prompt : String) (config : JobConfig) :
    configModel (setPrompt prompt config) = configModel config := by
  cases config <;> rfl

theorem Validated.validPrompt_eq {job : ScheduledJobDefinition} (h : Validated job) :
    ScheduledJobDefinition.validPrompt job.prompt job.jobConfig = job.prompt := by
  cases hc : job.jobConfig with
  | none => rfl
  | some config =>
    cases config with
    | agentRun c =>
      rw [ScheduledJobDefinition.validPrompt]
      split
      · rename_i hprompt
        rw [h.config c hc hprompt, hprompt]
      · rfl
    | httpCall c => rfl
    | userScript c => rfl
    | toolRetry c => rfl

theorem Validated.validConfig_eq {job : ScheduledJobDefinition} (h : Validated job) (model : Option String) :
    ScheduledJobDefinition.validConfig job.prompt model job.jobConfig = job.jobConfig := by
  cases hc : job.jobConfig with
  | none => rw [ScheduledJobDefinition.validConfig, if_pos (h.prompt hc)]
  | some config => rfl

section Update

variable {req : UpdateJobRequest} {before : ScheduledJobDefinition} {now now' : IsoTime}

inductive Prepared (req : UpdateJobRequest) (before : ScheduledJobDefinition) :
    Option JobConfig → String → Prop
  | agentRun (c : AgentRunConfig) (h : req.jobConfig = some (.agentRun c)) :
      Prepared req before (some (.agentRun c)) c.prompt
  | config (config : JobConfig) (h : req.jobConfig = some config) (hc : ∀ c, config ≠ .agentRun c) :
      Prepared req before (some config) before.prompt
  | prompt (prompt : String) (h : req.jobConfig = none) (hp : req.prompt = some prompt) :
      Prepared req before (before.jobConfig.map (setPrompt prompt)) prompt
  | kept (h : req.jobConfig = none) (hp : req.prompt = none) : Prepared req before before.jobConfig before.prompt

theorem prepared_apply (req : UpdateJobRequest) (before : ScheduledJobDefinition) (now : IsoTime) :
    ∃ config prompt, Prepared req before config prompt ∧ req.apply before now = { before with
        name := req.name.getD before.name
        trigger := req.trigger.getD before.trigger
        timezone := req.timezone.getD before.timezone
        status := req.status.getD before.status
        model := req.model.or before.model
        updatedAt := now
        jobConfig := config
        prompt := prompt } := by
  cases hc : req.jobConfig with
  | some config =>
    cases config with
    | agentRun c => exact ⟨_, _, .agentRun c hc, by simp only [UpdateJobRequest.apply, hc]⟩
    | httpCall c => exact ⟨_, _, .config _ hc (fun _ h => by cases h), by simp only [UpdateJobRequest.apply, hc]⟩
    | userScript c => exact ⟨_, _, .config _ hc (fun _ h => by cases h), by simp only [UpdateJobRequest.apply, hc]⟩
    | toolRetry c => exact ⟨_, _, .config _ hc (fun _ h => by cases h), by simp only [UpdateJobRequest.apply, hc]⟩
  | none =>
    cases hp : req.prompt with
    | some prompt => exact ⟨_, _, .prompt prompt hc hp, by simp only [UpdateJobRequest.apply, hc, hp]⟩
    | none => exact ⟨_, _, .kept hc hp, by simp only [UpdateJobRequest.apply, hc, hp]⟩

theorem written_update (req : UpdateJobRequest) (now now' : IsoTime) (hv : Validated before) :
    ∃ after, written (req.apply before now) before now' = after ∧
      after.id = before.id ∧ after.createdAt = before.createdAt ∧
      after.name = req.name.getD before.name ∧ after.trigger = req.trigger.getD before.trigger ∧
      after.timezone = req.timezone.getD before.timezone ∧ after.status = req.status.getD before.status ∧
      after.model = req.model.or before.model ∧
      ((∃ c, req.jobConfig = some (.agentRun c) ∧ after.jobConfig = some (.agentRun c) ∧ after.prompt = c.prompt) ∨
        (∃ config, req.jobConfig = some config ∧ (∀ c, config ≠ .agentRun c) ∧ after.jobConfig = some config ∧
          after.prompt = before.prompt) ∨
        (∃ prompt, req.jobConfig = none ∧ req.prompt = some prompt ∧ after.prompt = prompt ∧
          ((∃ config, before.jobConfig = some config ∧ after.jobConfig = some (setPrompt prompt config)) ∨
            before.jobConfig = none ∧ after.jobConfig =
              if prompt = "" then none else some (.agentRun { prompt := prompt, model := after.model }))) ∨
        req.jobConfig = none ∧ req.prompt = none ∧ after.jobConfig = before.jobConfig ∧
          after.prompt = before.prompt) := by
  obtain ⟨config, prompt, hprepared, happly⟩ := prepared_apply req before now
  refine ⟨_, rfl, ?_⟩
  rw [happly]
  refine ⟨rfl, rfl, rfl, rfl, rfl, rfl, rfl, ?_⟩
  rw [jobConfig_written, prompt_written]
  cases hprepared with
  | agentRun c h => exact .inl ⟨c, h, rfl, validPrompt_agentRun c⟩
  | config config h hc =>
    refine .inr (.inl ⟨config, h, hc, rfl, ?_⟩)
    cases config with
    | agentRun c => exact absurd rfl (hc c)
    | httpCall c => rfl
    | userScript c => rfl
    | toolRetry c => rfl
  | prompt _ h hp =>
    refine .inr (.inr (.inl ⟨prompt, h, hp, ?_⟩))
    cases hb : before.jobConfig with
    | some config =>
      refine ⟨?_, .inl ⟨config, rfl, rfl⟩⟩
      cases config with
      | agentRun c => exact validPrompt_agentRun { c with prompt := prompt }
      | httpCall c => rfl
      | userScript c => rfl
      | toolRetry c => rfl
    | none =>
      change ScheduledJobDefinition.validPrompt prompt (if prompt = "" then none else _) = prompt ∧ _
      by_cases hempty : prompt = ""
      · rw [if_pos hempty]
        exact ⟨rfl, .inr ⟨rfl, (if_pos hempty).trans (if_pos hempty).symm⟩⟩
      · rw [if_neg hempty]
        refine ⟨?_, .inr ⟨rfl, (if_neg hempty).trans (if_neg hempty).symm⟩⟩
        rw [ScheduledJobDefinition.validPrompt, if_neg hempty]
  | kept h hp =>
    refine .inr (.inr (.inr ⟨h, hp, hv.validConfig_eq _, ?_⟩))
    rw [hv.validConfig_eq]
    exact hv.validPrompt_eq

end Update

end PrivaCloud.AgentRunner.Jobs
