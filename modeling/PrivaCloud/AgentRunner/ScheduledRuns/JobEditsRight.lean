import PrivaCloud.AgentRunner.ScheduledRuns.JobEditRuns

/-!
# What edits change

An edit that is prepared from the stored job and fits it changes what it names; along a run a pause stays and
a run is dispatched as the job is stored.
-/

namespace PrivaCloud.AgentRunner.Jobs

open Framework DataPlane

variable {config : JobConfig} {job updated : ScheduledJobDefinition}

section Update

variable {req : UpdateJobRequest} {before : ScheduledJobDefinition} {now now' : IsoTime}

private theorem jobModel_eq {model : String} (h : truthy job.model = some model) :
    jobModel job = some model := by
  rw [jobModel, h]
  rfl

private theorem jobModel_none (h : truthy job.model = none) :
    jobModel job = truthy (job.jobConfig.bind configModel) := by
  rw [jobModel, h]
  rfl

private theorem agentRun_setPrompt {prompt : String} {c : AgentRunConfig}
    (h : setPrompt prompt config = .agentRun c) : c.prompt = prompt := by
  cases config with
  | agentRun old =>
    cases h
    rfl
  | httpCall old => cases h
  | userScript old => cases h
  | toolRetry old => cases h

private theorem updateRight_written (hv : Validated before) (hfits : req.Fits before = true) :
    UpdateRight req before (written (req.apply before now) before now') := by
  obtain ⟨after, hafter, -, -, hname, htrigger, htimezone, hstatus, hmodel, hcases⟩ :=
    written_update req now now' hv
  rw [hafter]
  have hset : ∀ model, req.model = some model → model ≠ "" → jobModel after = some model := by
    intro model hreq hne
    apply jobModel_eq
    rw [hmodel, hreq]
    exact if_neg hne
  rcases hcases with ⟨c, hreq, hconfig, hprompt⟩ | ⟨config, hreq, hkind, hconfig, hprompt⟩ |
    ⟨prompt, hreq, hreqPrompt, hprompt, hconfig⟩ | ⟨hreq, hreqPrompt, hconfig, hprompt⟩
  · -- an agent run that is given in full
    rw [UpdateJobRequest.Fits, hreq] at hfits
    simp only [Bool.and_eq_true, Bool.or_eq_true, decide_eq_true_eq] at hfits
    obtain ⟨hsame, hover⟩ := hfits
    refine ⟨hname, htrigger, htimezone, hstatus, hmodel, fun _ hno => absurd hreq (hno c), fun h => ?_, ?_,
      fun h => ?_, ?_, hset, ?_, fun _ h => ?_⟩
    · rw [hreq] at h
      cases h
    · intro config h
      rw [hconfig, ← hreq, h]
    · rw [hreq] at h
      cases h
    · grind
    · intro hnone c' hc' model hc'model
      rw [hreq] at hc'
      cases hc'
      rw [hnone, Option.none_or] at hmodel
      rw [hnone] at hover
      rcases hover with hsome | hnone' | hown | heq
      · cases hsome
      · rw [hc'model] at hnone'
        cases hnone'
      · rw [jobModel_none (hmodel ▸ hown), hconfig]
        exact hc'model
      · exact jobModel_eq (by rw [hmodel, ← heq, hc'model])
    · rw [hreq] at h
      cases h
  · -- another configuration
    have hno : ∀ c, after.jobConfig ≠ some (.agentRun c) := fun c h =>
      hkind c (Option.some.inj (hconfig.symm.trans h))
    refine ⟨hname, htrigger, htimezone, hstatus, hmodel, fun _ _ => hprompt, fun h => ?_, ?_, fun h => ?_,
      fun _ _ c h => absurd h (hno c), hset, fun _ c h => ?_, fun _ h => ?_⟩
    · rw [hreq] at h
      cases h
    · intro config' h
      rw [hconfig, ← hreq, h]
    · rw [hreq] at h
      cases h
    · rw [hreq] at h
      exact absurd (Option.some.inj h) (hkind c)
    · rw [hreq] at h
      cases h
  · -- a prompt alone
    refine ⟨hname, htrigger, htimezone, hstatus, hmodel, fun h => ?_, fun _ h => ?_, fun config h => ?_, ?_, ?_,
      hset, fun _ c h => ?_, fun hnone _ => ?_⟩
    · rw [hreqPrompt] at h
      cases h
    · rw [hreqPrompt] at h
      cases h
    · rw [hreq] at h
      cases h
    · grind
    · intro prompt' hprompt' c hc
      rw [hreqPrompt] at hprompt'
      cases hprompt'
      refine ⟨hprompt, ?_⟩
      rcases hconfig with ⟨config', -, hconfig⟩ | ⟨-, hconfig⟩
      · exact agentRun_setPrompt (Option.some.inj (hconfig.symm.trans hc))
      · rw [hc] at hconfig
        split at hconfig <;> cases hconfig
        rfl
    · rw [hreq] at h
      cases h
    · rw [hnone, Option.none_or] at hmodel
      rcases hconfig with ⟨config', hbefore, hconfig⟩ | ⟨hbefore, hconfig⟩
      · rw [jobModel, jobModel, hmodel, hbefore, hconfig, Option.bind_some, Option.bind_some,
          configModel_setPrompt]
      · -- the configuration of the prompt takes the model of the job
        rw [jobModel, jobModel, hmodel, hbefore, hconfig]
        split
        · rfl
        · rw [Option.bind_some, Option.bind_none, hmodel]
          change (truthy before.model).or (truthy before.model) = (truthy before.model).or none
          cases truthy before.model <;> rfl
  · -- the configuration and the prompt are left
    refine ⟨hname, htrigger, htimezone, hstatus, hmodel, fun _ _ => hprompt, fun _ _ => hconfig, fun config h => ?_,
      fun _ prompt h => ?_, fun prompt h => ?_, hset, fun _ c h => ?_, fun hnone _ => ?_⟩
    · rw [hreq] at h
      cases h
    · rw [hreqPrompt] at h
      cases h
    · rw [hreqPrompt] at h
      cases h
    · rw [hreq] at h
      cases h
    · rw [hnone, Option.none_or] at hmodel
      rw [jobModel, jobModel, hmodel, hconfig]

end Update

@[simp] theorem configPrompt_setCallback (callback : Bool) (config : JobConfig) :
    configPrompt (setCallback callback config) = configPrompt config := by
  cases config <;> rfl

@[simp] theorem configModel_setCallback (callback : Bool) (config : JobConfig) :
    configModel (setCallback callback config) = configModel config := by
  cases config <;> rfl

private theorem validPrompt_configPrompt (config : JobConfig) :
    ScheduledJobDefinition.validPrompt (configPrompt config) (some config) = configPrompt config := by
  cases config with
  | agentRun c => exact validPrompt_agentRun c
  | httpCall c => rfl
  | userScript c => rfl
  | toolRetry c => rfl

variable {usable : Bool} {before : ScheduledJobDefinition} {now now' : IsoTime}

section Tool

variable {args : JobArgs} {before : ScheduledJobDefinition} {built : JobConfig}

/-- The configuration that the tool stores, its callback set if it is named -/
def JobArgs.withCallback (args : JobArgs) (usable : Bool) (built : JobConfig) : JobConfig :=
  match args.feishuCallback with
  | some requested => setCallback (requested && usable) built
  | none => built

private theorem configPrompt_withCallback (usable : Bool) :
    configPrompt (args.withCallback usable built) = configPrompt built := by
  rw [JobArgs.withCallback]
  split <;> simp

private theorem configModel_withCallback (usable : Bool) :
    configModel (args.withCallback usable built) = configModel built := by
  rw [JobArgs.withCallback]
  split <;> simp

private theorem keeps_withCallback (usable : Bool) :
    args.Keeps config (args.withCallback usable built) ↔ args.Keeps config built := by
  rw [JobArgs.withCallback]
  split
  · cases built <;> cases config <;> exact Iff.rfl
  · rfl

private theorem builtType (h : args.changesType before = false) :
    (args.jobType.or (before.jobConfig.map JobConfig.jobType)).getD .agentRun =
      (before.jobConfig.map JobConfig.jobType).getD .agentRun := by
  rw [JobArgs.changesType] at h
  cases htype : args.jobType with
  | none => rw [Option.none_or]
  | some type =>
    rw [htype] at h
    have hsame := of_decide_eq_false h
    rw [not_not] at hsame
    rw [hsame]
    rfl

private theorem built_none (hbuilt : args.buildJobConfig none = some built) (htype : args.jobType = none) :
    configPrompt built = args.prompt.getD "" ∧ configModel built = args.model := by
  unfold JobArgs.buildJobConfig at hbuilt
  rw [htype] at hbuilt
  cases hbuilt
  exact ⟨rfl, Option.or_none⟩

private theorem built_some (hbuilt : args.buildJobConfig (some config) = some built)
    (htype : (args.jobType.or (some config.jobType)).getD .agentRun = config.jobType) :
    built.jobType = config.jobType ∧ (args.prompt = none → configPrompt built = configPrompt config) ∧
      (args.model = none → configModel built = configModel config) ∧
      (args.callback = none → configCallback built = configCallback config) := by
  unfold JobArgs.buildJobConfig at hbuilt
  rw [Option.map_some, htype] at hbuilt
  cases config with
  | agentRun c =>
    cases hbuilt
    exact ⟨rfl, fun h => by rw [h]; rfl, fun h => by rw [h]; rfl, fun h => by rw [h]; rfl⟩
  | httpCall c =>
    cases hbuilt
    exact ⟨rfl, fun _ => rfl, fun _ => rfl, fun h => by rw [h]; rfl⟩
  | userScript c =>
    cases hbuilt
    exact ⟨rfl, fun _ => rfl, fun _ => rfl, fun h => by rw [h]; rfl⟩
  | toolRetry c => cases hbuilt

private theorem keeps_built (hbuilt : args.buildJobConfig (some config) = some built)
    (htype : (args.jobType.or (some config.jobType)).getD .agentRun = config.jobType)
    (hscript : ∀ c, config = .userScript c → args.namesScript = false →
      if c.inlined then c.filePath = none else c.script = none) : args.Keeps config built := by
  unfold JobArgs.buildJobConfig at hbuilt
  rw [Option.map_some, htype] at hbuilt
  cases config with
  | agentRun c =>
    cases hbuilt
    exact ⟨fun h => by rw [h]; rfl, fun h => by rw [h]; rfl, fun h => by rw [h]; rfl, fun h => by rw [h]; rfl⟩
  | httpCall c =>
    cases hbuilt
    exact ⟨fun h => by rw [h]; rfl, fun h => by rw [h]; rfl, fun h => by rw [h]; rfl, fun h => by rw [h]; rfl,
      fun h => by rw [h]; rfl⟩
  | userScript c =>
    cases hbuilt
    refine ⟨fun h => by rw [h]; rfl, fun h => by rw [h]; rfl, fun h => ?_⟩
    have hkept := hscript c rfl h
    rw [JobArgs.namesScript, Bool.or_eq_false_iff, Bool.or_eq_false_iff, Option.isSome_eq_false_iff,
      Option.isSome_eq_false_iff, Option.isSome_eq_false_iff, Option.isNone_iff_eq_none,
      Option.isNone_iff_eq_none, Option.isNone_iff_eq_none] at h
    grind
  | toolRetry c => cases hbuilt

private theorem configCallback_built (hbuilt : args.buildJobConfig before.jobConfig = some built)
    (hcallback : args.callback = none) :
    configCallback built =
      if args.changesType before then false else (before.jobConfig.map configCallback).getD false := by
  rw [JobArgs.changesType]
  unfold JobArgs.buildJobConfig at hbuilt
  cases hconfig : before.jobConfig with
  | none =>
    rw [hconfig] at hbuilt
    rcases htype : args.jobType with _ | _ | _ | _ | _ <;> rw [htype] at hbuilt <;> cases hbuilt <;>
      rw [hcallback] <;> rfl
  | some config =>
    rw [hconfig] at hbuilt
    rcases htype : args.jobType with _ | _ | _ | _ | _ <;> rw [htype] at hbuilt <;> cases config <;>
      cases hbuilt <;> rw [hcallback] <;> rfl

private theorem built_of_unnamed (hbuilt : args.buildJobConfig (some config) = some built)
    (hnamed : args.namesConfig = false)
    (hscript : ∀ c, config = .userScript c → if c.inlined then c.filePath = none else c.script = none) :
    built = config := by
  simp only [JobArgs.namesConfig, Bool.or_eq_false_iff, Option.isSome_eq_false_iff,
    Option.isNone_iff_eq_none] at hnamed
  obtain ⟨⟨⟨⟨⟨⟨⟨⟨⟨⟨⟨⟨⟨⟨htype, hprompt⟩, hmodel⟩, hurl⟩, hmethod⟩, hheaders⟩, hbody⟩, hfromScript⟩, hfile⟩, hpython⟩,
    hinlined⟩, htimeout⟩, hturns⟩, hcallback⟩, -⟩ := hnamed
  have hkind : (args.jobType.or (some config.jobType)).getD .agentRun = config.jobType := by
    rw [htype]
    rfl
  have hsame := (built_some hbuilt hkind).2.2.2 hcallback
  have hkeeps := keeps_built hbuilt hkind fun c hc _ => hscript c hc
  cases config with
  | agentRun c =>
    cases built with
    | agentRun c' =>
      obtain ⟨h₁, h₂, h₃, h₄⟩ := hkeeps
      exact congrArg JobConfig.agentRun (AgentRunConfig.ext (h₁ hprompt) (h₂ hmodel) hsame (h₃ htimeout) (h₄ hturns))
    | _ => exact hkeeps.elim
  | httpCall c =>
    cases built with
    | httpCall c' =>
      obtain ⟨h₁, h₂, h₃, h₄, h₅⟩ := hkeeps
      exact congrArg JobConfig.httpCall
        (HttpCallConfig.ext (h₁ hmethod) (h₂ hurl) hsame (h₃ hheaders) (h₄ hbody) (h₅ htimeout))
    | _ => exact hkeeps.elim
  | userScript c =>
    cases built with
    | userScript c' =>
      obtain ⟨h₁, h₂, h₃⟩ := hkeeps
      have hnone : args.namesScript = false := by
        rw [JobArgs.namesScript, hfromScript, hfile, hinlined]
        rfl
      obtain ⟨hin, hpath, htext⟩ := h₃ hnone
      exact congrArg JobConfig.userScript
        (UserScriptConfig.ext (h₁ hpython) hin hsame hpath htext (h₂ htimeout))
    | _ => exact hkeeps.elim
  | toolRetry c =>
    unfold JobArgs.buildJobConfig at hbuilt
    rw [Option.map_some, hkind] at hbuilt
    cases hbuilt

private theorem written_toolUpdate {now : IsoTime} (now' : IsoTime)
    (happly : args.apply before usable now = some updated) :
    ∃ built, args.buildJobConfig before.jobConfig = some built ∧ written updated before now' = { before with
        name := args.name.getD before.name
        trigger := args.buildTrigger (some before.trigger)
        timezone := args.timezone.getD before.timezone
        jobConfig := some (args.withCallback usable built)
        prompt := configPrompt built
        model := configModel built
        updatedAt := now' } := by
  obtain ⟨built, hbuilt, rfl⟩ := Option.map_eq_some_iff.mp happly
  refine ⟨built, hbuilt, ?_⟩
  change ScheduledJobDefinition.modelValidate
    { before with
      name := args.name.getD before.name
      trigger := args.buildTrigger (some before.trigger)
      timezone := args.timezone.getD before.timezone
      jobConfig := some (args.withCallback usable built)
      prompt := configPrompt (args.withCallback usable built)
      model := configModel (args.withCallback usable built)
      updatedAt := now' } = _
  unfold ScheduledJobDefinition.modelValidate
  dsimp only [ScheduledJobDefinition.validConfig]
  rw [validPrompt_configPrompt, configPrompt_withCallback, configModel_withCallback]

private theorem built_unchanged (hbuilt : args.buildJobConfig before.jobConfig = some built)
    (htype : args.changesType before = false) :
    (args.prompt = none → configPrompt built = (before.jobConfig.map configPrompt).getD "") ∧
      (args.model = none → configModel built = before.jobConfig.bind configModel) := by
  have hkind := builtType htype
  cases hconfig : before.jobConfig with
  | none =>
    rw [hconfig] at hbuilt
    rw [JobArgs.changesType, hconfig] at htype
    cases hjob : args.jobType with
    | none =>
      obtain ⟨hprompt, hmodel⟩ := built_none hbuilt hjob
      exact ⟨fun h => by rw [hprompt, h]; rfl, fun h => by rw [hmodel, h]; rfl⟩
    | some type =>
      rw [hjob] at htype
      cases htype
  | some config =>
    rw [hconfig] at hbuilt hkind
    obtain ⟨-, hprompt, hmodel, -⟩ := built_some hbuilt hkind
    exact ⟨hprompt, hmodel⟩

private theorem configPrompt_of_named {prompt : String} (hbuilt : args.buildJobConfig before.jobConfig = some built)
    (hnamed : args.prompt = some prompt) (htype : built.jobType = .agentRun) : configPrompt built = prompt := by
  unfold JobArgs.buildJobConfig at hbuilt
  split at hbuilt
  · cases hbuilt
    rw [hnamed]
    rfl
  · cases hbuilt
    cases htype
  · cases hbuilt
    cases htype
  · cases hbuilt

private theorem configModel_of_named {model : String} (hbuilt : args.buildJobConfig before.jobConfig = some built)
    (hnamed : args.model = some model) (htype : built.jobType = .agentRun) : configModel built = some model := by
  unfold JobArgs.buildJobConfig at hbuilt
  split at hbuilt
  · cases hbuilt
    rw [hnamed]
    rfl
  · cases hbuilt
    cases htype
  · cases hbuilt
    cases htype
  · cases hbuilt

private theorem type_of_withCallback {c : AgentRunConfig}
    (h : args.withCallback usable built = .agentRun c) : built.jobType = .agentRun := by
  rw [JobArgs.withCallback] at h
  split at h
  · cases built with
    | agentRun old => rfl
    | _ => cases h
  · rw [h]
    rfl

private theorem changesType_of_unnamed (h : args.namesConfig = false) : args.changesType before = false := by
  simp only [JobArgs.namesConfig, Bool.or_eq_false_iff, Option.isSome_eq_false_iff,
    Option.isNone_iff_eq_none] at h
  rw [JobArgs.changesType, h.1.1.1.1.1.1.1.1.1.1.1.1.1.1]

private theorem withCallback_of_unnamed (h : args.namesConfig = false) :
    args.withCallback usable built = built := by
  rw [JobArgs.namesConfig, Bool.or_eq_false_iff, Option.isSome_eq_false_iff, Option.isNone_iff_eq_none] at h
  rw [JobArgs.withCallback, h.2]

private theorem namesScript_of_unnamed (h : args.namesConfig = false) : args.namesScript = false := by
  simp only [JobArgs.namesConfig, Bool.or_eq_false_iff] at h
  rw [JobArgs.namesScript, h.1.1.1.1.1.1.1.2, h.1.1.1.1.1.1.2, h.1.1.1.1.2]
  rfl

private theorem toolUpdateRight_written
    (happly : args.apply before usable now = some updated) (hfits : args.Fits before = true) :
    ToolUpdateRight args before (written updated before now') := by
  obtain ⟨built, hbuilt, hwritten⟩ := written_toolUpdate now' happly
  rw [hwritten]
  rw [JobArgs.Fits, Bool.and_eq_true, Bool.or_eq_true, Bool.and_eq_true, Bool.and_eq_true] at hfits
  obtain ⟨hleaves, hcallbacks⟩ := hfits
  have hscript : args.changesType before = false → ∀ c, before.jobConfig = some (.userScript c) →
      args.namesScript = false → if c.inlined then c.filePath = none else c.script = none := by
    intro htype c hc hnone
    rw [htype, hc, hnone] at hleaves
    have hkept : (if c.inlined then c.filePath.isNone else c.script.isNone) = true :=
      (hleaves.resolve_left Bool.false_ne_true).2
    cases hinlined : c.inlined <;> rw [hinlined] at hkept <;> exact Option.isNone_iff_eq_none.mp hkept
  have hprompt : args.changesType before = false → args.prompt = none → configPrompt built = before.prompt := by
    intro htype hnone
    rw [htype, hnone] at hleaves
    have hkept := (hleaves.resolve_left Bool.false_ne_true).1.1
    rw [(built_unchanged hbuilt htype).1 hnone]
    exact (of_decide_eq_true hkept).symm
  have hmodel : args.changesType before = false → args.model = none → configModel built = before.model := by
    intro htype hnone
    rw [htype, hnone] at hleaves
    have hkept := (hleaves.resolve_left Bool.false_ne_true).1.2
    rw [(built_unchanged hbuilt htype).2 hnone]
    exact (of_decide_eq_true hkept).symm
  constructor
  · rfl
  · intro hnone
    change args.buildTrigger (some before.trigger) = before.trigger
    unfold JobArgs.buildTrigger
    rw [hnone]
  · rfl
  · rfl
  · exact hprompt
  · exact hmodel
  · intro hnone
    have htype : args.changesType before = false := changesType_of_unnamed hnone
    have hfeishu : args.withCallback usable built = built := withCallback_of_unnamed hnone
    change some (args.withCallback usable built) = before.jobConfig
    rw [hfeishu]
    cases hconfig : before.jobConfig with
    | none =>
      grind
    | some config =>
      rw [hconfig] at hbuilt
      have hunscripted : args.namesScript = false := namesScript_of_unnamed hnone
      exact congrArg some (built_of_unnamed hbuilt hnone fun c hc =>
        hscript htype c (hconfig.trans (congrArg some hc)) hunscripted)
  · intro htype config hconfig
    refine ⟨_, rfl, (keeps_withCallback usable).mpr ?_⟩
    rw [hconfig] at hbuilt
    have hkind := builtType htype
    rw [hconfig] at hkind
    exact keeps_built hbuilt hkind fun c hc => hscript htype c (hconfig.trans (congrArg some hc))
  · intro hfeishu hnone
    have hkept := configCallback_built hbuilt hnone
    change configCallback (args.withCallback usable built) = (before.jobConfig.map configCallback).getD false
    rw [JobArgs.withCallback, hfeishu, hkept]
    grind
  · intro prompt hnamed c hc
    have hconfig : args.withCallback usable built = .agentRun c := Option.some.inj hc
    have hsame : configPrompt built = c.prompt := by
      rw [← configPrompt_withCallback usable, hconfig]
      rfl
    have hset := configPrompt_of_named hbuilt hnamed (type_of_withCallback hconfig)
    exact ⟨hset, hsame.symm.trans hset⟩
  · intro model hnamed hne c hc
    have hconfig : args.withCallback usable built = .agentRun c := Option.some.inj hc
    have hset := configModel_of_named hbuilt hnamed (type_of_withCallback hconfig)
    apply jobModel_eq
    change truthy (configModel built) = some model
    rw [hset]
    exact if_neg hne
  · intro htype hnone
    have hkept := (built_unchanged hbuilt htype).2 hnone
    change (truthy (configModel built)).or (truthy (configModel (args.withCallback usable built))) = jobModel before
    rw [configModel_withCallback, jobModel, ← hkept, hmodel htype hnone]

end Tool

structure Wrote (store store' : Store) (jobId : String) (write : ScheduledJobDefinition → ScheduledJobDefinition) :
    Prop where
  written : ∀ before, SchedulerService.getJob store jobId = some before →
    SchedulerService.getJob store' jobId = some (write before)
  missing : SchedulerService.getJob store jobId = none → SchedulerService.getJob store' jobId = none
  others : ∀ id, id ≠ jobId → SchedulerService.getJob store' id = SchedulerService.getJob store id

private theorem wrote_updateJob (store : Store) (jobId : String) (d : ScheduledJobDefinition) (now : IsoTime) :
    Wrote store (SchedulerService.updateJob store jobId d now).2 jobId (written d · now) := by
  refine ⟨fun before h => getJob_updateJob h d now, fun h => ?_, fun id hne => getJob_updateJob_of_ne hne d now⟩
  unfold SchedulerService.updateJob
  rw [Option.map_eq_none_iff.mp h]
  exact h

private theorem wrote_setJobStatus (store : Store) (jobId : String) (status : JobStatus) (now : IsoTime) :
    Wrote store (JobSystem.setJobStatus store jobId status now) jobId
      fun before => { before with status := status, updatedAt := now } := by
  refine ⟨fun before h => getJob_setJobStatus h status now, fun h => ?_,
    fun id hne => getJob_jobUpdate_of_ne hne _ _⟩
  have hrow : store.jobs.find? jobId = none := Option.map_eq_none_iff.mp h
  have hfind := Table.find?_modify store.jobs jobId
    (fun row => { row with status := status, updatedAt := now }) (fun _ => rfl) jobId
  rw [hrow, Option.map_none, ite_self] at hfind
  exact congrArg (Option.map SchedulerService.toJob) hfind

private theorem InStep.written_update {req : UpdateJobRequest}
    (hv : Validated before) (h : InStep before) : InStep (written (req.apply before now) before now') := by
  obtain ⟨after, hafter, -, -, -, -, -, -, -, hcases⟩ := Jobs.written_update req now now' hv
  rw [hafter]
  intro c hc
  rcases hcases with ⟨c', -, hconfig, hprompt⟩ | ⟨config, -, hkind, hconfig, -⟩ |
    ⟨prompt, -, -, hprompt, hconfig⟩ | ⟨-, -, hconfig, hprompt⟩
  · cases hconfig.symm.trans hc
    exact hprompt.symm
  · exact absurd (Option.some.inj (hconfig.symm.trans hc)) (hkind c)
  · rw [hprompt]
    rcases hconfig with ⟨config, -, hconfig⟩ | ⟨-, hconfig⟩
    · exact agentRun_setPrompt (Option.some.inj (hconfig.symm.trans hc))
    · rw [hc] at hconfig
      split at hconfig <;> cases hconfig
      rfl
  · rw [hprompt]
    exact h c (hconfig ▸ hc)

private theorem inStep_toolUpdate {args : JobArgs} (happly : args.apply before usable now = some updated) :
    InStep (written updated before now') := by
  obtain ⟨built, -, hwritten⟩ := written_toolUpdate now' happly
  rw [hwritten]
  intro c hc
  have hconfig : args.withCallback usable built = .agentRun c := Option.some.inj hc
  change c.prompt = configPrompt built
  rw [← configPrompt_withCallback usable, hconfig]
  rfl

private theorem written_status (hv : Validated before) (status : JobStatus) (now now' : IsoTime) :
    written { before with status := status, updatedAt := now } before now' =
      { before with status := status, updatedAt := now' } := by
  rw [written, ScheduledJobDefinition.modelValidate]
  dsimp only
  rw [hv.validConfig_eq, hv.validPrompt_eq]

private theorem right_written {cause : EditCause}
    (hv : Validated before) (happly : cause.apply now before = some updated) (hfits : cause.Fits before = true) :
    JobEdit.Right ⟨cause, before, written updated before now'⟩ ∧
      (InStep before → InStep (written updated before now')) := by
  cases cause with
  | update req =>
    cases happly
    exact ⟨⟨rfl, rfl, updateRight_written hv hfits⟩, InStep.written_update hv⟩
  | toolUpdate args usable =>
    exact ⟨⟨rfl, rfl, toolUpdateRight_written happly hfits⟩, fun _ => inStep_toolUpdate happly⟩
  | status status =>
    cases happly
    rw [written_status hv]
    exact ⟨⟨rfl, rfl, rfl⟩, id⟩

private theorem JobEdit.Right.active {e : JobEdit} (h : e.Right) (hactive : e.after.status = .active) :
    e.cause.activates = true ∨ e.before.status = .active := by
  obtain ⟨cause, before, after⟩ := e
  obtain ⟨-, -, hright⟩ := h
  cases cause with
  | update req =>
    have hstatus : after.status = req.status.getD before.status := hright.status
    cases hreq : req.status with
    | none =>
      rw [hreq] at hstatus
      exact .inr (hstatus.symm.trans hactive)
    | some status =>
      rw [hreq] at hstatus
      refine .inl (decide_eq_true ?_)
      rw [hreq, ← hactive, hstatus]
      rfl
  | toolUpdate args usable => exact .inr (hright.status.symm.trans hactive)
  | status status =>
    have hstatus : after.status = status := congrArg ScheduledJobDefinition.status hright
    exact .inl (decide_eq_true (hstatus.symm.trans hactive))

private theorem getElem?_concat_cases {α : Type*} {l : List α} {a b : α} {i : Nat} (h : (l ++ [a])[i]? = some b) :
    l[i]? = some b ∨ b = a := by
  grind

namespace JobSystem

structure Inv (s : JobSystem) : Prop where
  inStep : ∀ id job, SchedulerService.getJob s.store id = some job → InStep job
  fired : ∀ c job, s.calls c = .fired job → Validated job
  right : EditsRight s

variable {s s' : JobSystem} {env : JobEnv}

private theorem Inv.setCall (h : Inv s) (c : Nat) {call : EditCall} (hcall : ∀ job, call = .fired job → Validated job) :
    Inv (s.setCall c call) := by
  refine ⟨h.inStep, fun c' job hc' => ?_, ⟨h.right.edits, h.right.paused, h.right.runs⟩⟩
  change Function.update s.calls c call c' = .fired job at hc'
  by_cases hc : c' = c
  · rw [hc, Function.update_self] at hc'
    exact hcall job hc'
  · rw [Function.update_of_ne hc] at hc'
    exact h.fired c' job hc'

private theorem Inv.start (h : Inv s) {c : Nat} {call : Option EditCall}
    (hcall : ∀ job, call = some (.fired job) → Validated job) (hs : s.start c call = some s') : Inv s' := by
  unfold JobSystem.start at hs
  split at hs
  · obtain rfl := Option.some.inj hs
    refine h.setCall c fun job hjob => ?_
    cases call with
    | none => cases hjob
    | some call =>
      cases hjob
      exact hcall job rfl
  · cases hs

private theorem Inv.record (h : Inv s) {store' : Store} {jobId : String} {cause : EditCause}
    {write : ScheduledJobDefinition → ScheduledJobDefinition} (hw : Wrote s.store store' jobId write)
    (hright : ∀ before, SchedulerService.getJob s.store jobId = some before →
      JobEdit.Right ⟨cause, before, write before⟩ ∧ (InStep before → InStep (write before))) :
    Inv (s.record cause jobId store') := by
  cases hbefore : SchedulerService.getJob s.store jobId with
  | none =>
    have hsame : ∀ id, SchedulerService.getJob store' id = SchedulerService.getJob s.store id := by
      intro id
      by_cases hid : id = jobId
      · rw [hid, hbefore, hw.missing hbefore]
      · exact hw.others id hid
    rw [JobSystem.record, hbefore]
    refine ⟨fun id job hjob => h.inStep id job (hsame id ▸ hjob), h.fired, h.right.edits, ?_, h.right.runs⟩
    intro i e hi hpaused job hjob
    exact h.right.paused i e hi hpaused job ((hsame _).symm.trans hjob)
  | some before =>
    obtain ⟨hedit, hstep⟩ := hright before hbefore
    have hafter := hw.written before hbefore
    have hid : (write before).id = jobId := id_getJob hafter
    rw [JobSystem.record, hbefore, hafter]
    refine ⟨fun id job hjob => ?_, h.fired, fun e he => ?_, ?_, h.right.runs⟩
    · by_cases hsame : id = jobId
      · cases (hsame ▸ hafter).symm.trans hjob
        exact hstep (h.inStep jobId before hbefore)
      · exact h.inStep id job ((hw.others id hsame).symm.trans hjob)
    · rcases List.mem_append.mp he with hold | hnew
      · exact h.right.edits e hold
      · rw [List.mem_singleton.mp hnew]
        exact hedit
    · intro i e hi hpaused job hjob hactive
      have hlater : ∀ {j : Nat} {e' : JobEdit}, s.log[j]? = some e' →
          (s.log ++ [⟨cause, before, write before⟩])[j]? = some e' := fun hj =>
        (List.getElem?_append_left (List.getElem?_eq_some_iff.mp hj).1).trans hj
      by_cases hsame : e.after.id = jobId
      · cases (hsame ▸ hafter).symm.trans hjob
        rcases getElem?_concat_cases hi with hold | rfl
        · rcases hedit.active hactive with hact | hbeforeActive
          · exact ⟨s.log.length, _, (List.getElem?_eq_some_iff.mp hold).1, List.getElem?_concat_length,
              hid.trans hsame.symm, hact⟩
          · -- it was active before
            obtain ⟨j, e', hij, hj, hid', hact⟩ := h.right.paused i e hold hpaused before
              (hsame ▸ hbefore) hbeforeActive
            exact ⟨j, e', hij, hlater hj, hid', hact⟩
        · rw [hpaused] at hactive
          cases hactive
      · rcases getElem?_concat_cases hi with hold | rfl
        · obtain ⟨j, e', hij, hj, hid', hact⟩ := h.right.paused i e hold hpaused job
            ((hw.others _ hsame).symm.trans hjob) hactive
          exact ⟨j, e', hij, hlater hj, hid', hact⟩
        · exact absurd hid hsame

private theorem Inv.dispatch (h : Inv s) {frame : RunFrame}
    (hjob : Validated job) (hframe : buildFrame job = some frame)
    (hstored : ∀ stored, SchedulerService.getJob s.store job.id = some stored →
      stored.jobConfig = job.jobConfig ∧ stored.model = job.model) :
    Inv { s with runs := ⟨frame, SchedulerService.getJob s.store job.id⟩ :: s.runs } := by
  refine ⟨h.inStep, h.fired, h.right.edits, h.right.paused, fun r hr stored hr' => ?_⟩
  rcases List.mem_cons.mp hr with rfl | hold
  · obtain ⟨hconfig, hmodel⟩ := hstored stored hr'
    unfold buildFrame at hframe
    rw [hjob.validConfig_eq] at hframe
    split at hframe
    · cases hframe
    · cases hframe
    · rename_i config _ hsome
      cases hframe
      rw [hsome] at hconfig
      refine ⟨hconfig, hmodel.symm, ?_, fun c hc => h.inStep _ stored hr' c (hconfig.trans (congrArg some hc))⟩
      rw [RunFrame.runModel, jobModel, hconfig, hmodel]
      rfl
  · exact h.right.runs r hold stored hr'

theorem Inv.step (h : Inv s) {e : JobEvent} (hcareful : s.Careful e) (hs : s.step env e = some s') : Inv s' := by
  cases e with
  | update c accountId jobId req now =>
    refine h.start (fun job hjob => ?_) hs
    obtain ⟨found, -, hfound⟩ := Option.bind_eq_some_iff.mp hjob
    dsimp only at hfound
    split at hfound <;> cases hfound
  | toolUpdate c accountId needle args usable now =>
    refine h.start (fun job hjob => ?_) hs
    obtain ⟨found, -, hfound⟩ := Option.bind_eq_some_iff.mp hjob
    obtain ⟨updated, -, hupdated⟩ := Option.map_eq_some_iff.mp hfound
    cases hupdated
  | setStatus c accountId jobId status =>
    refine h.start (fun job hjob => ?_) hs
    obtain ⟨found, -, hfound⟩ := Option.map_eq_some_iff.mp hjob
    cases hfound
  | delete c accountId jobId =>
    refine h.start (fun job hjob => ?_) hs
    obtain ⟨found, -, hfound⟩ := Option.map_eq_some_iff.mp hjob
    cases hfound
  | toolDelete c accountId needle =>
    refine h.start (fun job hjob => ?_) hs
    obtain ⟨found, -, hfound⟩ := Option.map_eq_some_iff.mp hjob
    cases hfound
  | write c now =>
    unfold JobSystem.step at hs
    dsimp only at hs
    split at hs
    · rename_i cause updated hcall
      obtain rfl := Option.some.inj hs
      refine (h.record (wrote_updateJob s.store updated.id updated now) fun before hbefore => ?_).setCall c
        fun job hjob => by cases hjob
      unfold Careful at hcareful
      simp only [hcall, hbefore, Bool.and_eq_true, decide_eq_true_eq] at hcareful
      exact right_written (validated_getJob hbefore) hcareful.1 hcareful.2
    · rename_i jobId status hcall
      obtain rfl := Option.some.inj hs
      exact (h.record (wrote_setJobStatus s.store jobId status now) fun before _ =>
        ⟨⟨rfl, rfl, rfl⟩, id⟩).setCall c fun job hjob => by cases hjob
    · rename_i jobId hcall
      obtain rfl := Option.some.inj hs
      refine Inv.setCall (s := { s with store := s.store.jobDelete jobId }) ?_ c fun job hjob => by cases hjob
      refine ⟨fun id job hjob => h.inStep id job (getJob_jobDelete hjob), h.fired, h.right.edits, ?_,
        h.right.runs⟩
      intro i e hi hpaused job hjob
      exact h.right.paused i e hi hpaused job (getJob_jobDelete hjob)
    · cases hs
  | fire c jobId manual =>
    refine h.start (fun job hjob => ?_) hs
    obtain ⟨found, hfound, hjob⟩ := Option.bind_eq_some_iff.mp hjob
    split at hjob <;> cases hjob
    exact validated_getJob hfound
  | dispatch c =>
    unfold JobSystem.step at hs
    dsimp only at hs
    split at hs
    · rename_i job hcall
      have hjob := h.fired c job hcall
      split at hs
      · obtain rfl := Option.some.inj hs
        exact h.setCall c fun job hjob => by cases hjob
      · rename_i frame hframe
        obtain rfl := Option.some.inj hs
        refine (h.dispatch hjob hframe fun stored hstored => ?_).setCall c fun job hjob => by cases hjob
        unfold Careful at hcareful
        simp only [hcall, hstored, decide_eq_true_eq] at hcareful
        exact hcareful
    · cases hs
  | drop c =>
    unfold JobSystem.step at hs
    dsimp only at hs
    split at hs
    · obtain rfl := Option.some.inj hs
      exact h.setCall c fun job hjob => by cases hjob
    · cases hs

end JobSystem

/-- Edits that are prepared from the stored job and fit it change what they name, a pause stays, and a run is
dispatched as the job is stored. -/
theorem editsRight_of_careful {env : JobEnv} {store : Store} {es : List JobEvent} {s : JobSystem}
    (hstart : ∀ id job, SchedulerService.getJob store id = some job → InStep job)
    (hcareful : RunMeets (JobSystem.step env) JobSystem.Careful { store := store } es)
    (hrun : run (JobSystem.step env) { store := store } es = some s) : EditsRight s := by
  have hinv : JobSystem.Inv { store := store } := by
    refine ⟨hstart, fun c job h => (by cases h), ⟨fun e he => (nomatch he), ?_, fun r hr => (nomatch hr)⟩⟩
    intro i e hi
    cases hi
  exact (run_invariant (fun _ _ _ h hc hs => h.step hc hs) hinv hcareful hrun).right

/-- A job with a model of its own, and none in its configuration -/
def digestRow : JobRow where
  jobId := "j"
  accountId := "acc"
  name := "digest"
  prompt := "sum up"
  trigger := .cron "0 9 * * *"
  jobType := .agentRun
  jobConfig := some (.agentRun { prompt := "sum up" })
  timezone := "UTC"
  model := some "opus"
  status := .active
  createdAt := JobRequest.sampleTime
  updatedAt := JobRequest.sampleTime

def digestStore : Store := { JobRequest.sampleStore with jobs := { rows := [digestRow] } }

private theorem inStep_digestStore (id : String) (job : ScheduledJobDefinition)
    (h : SchedulerService.getJob digestStore id = some job) : InStep job := by
  obtain ⟨row, hrow, rfl⟩ := getJob_eq_some h
  have hmem : row ∈ [digestRow] := Table.mem_of_find? (show digestStore.jobs.find? id = some row from hrow)
  obtain rfl := List.mem_singleton.mp hmem
  intro c hc
  cases hc
  rfl

/-- The user API names the model, the tool the prompt, the job is paused and resumed, and it fires. -/
def editedRun : List JobEvent :=
  [.update 0 "acc" "j" { model := some "sonnet" } JobRequest.sampleTime, .write 0 JobRequest.sampleTime,
    .toolUpdate 1 "acc" "digest" { prompt := some "sum up the day", model := some "haiku" } true
      JobRequest.sampleTime,
    .write 1 JobRequest.sampleTime,
    .setStatus 2 "acc" "j" .paused, .write 2 JobRequest.sampleTime,
    .setStatus 3 "acc" "j" .active, .write 3 JobRequest.sampleTime,
    .fire 4 "j" false, .dispatch 4]

theorem editsRight_editedRun : ∃ s, run (JobSystem.step JobRequest.sampleEnv) { store := digestStore } editedRun =
    some s ∧ s.log.length = 4 ∧ s.runs.length = 1 ∧ EditsRight s := by
  obtain ⟨s, hrun, hlength⟩ := exists_run_of_decide (JobSystem.step JobRequest.sampleEnv) { store := digestStore }
    editedRun (p := fun s => s.log.length = 4 ∧ s.runs.length = 1) (fun _ => id) (by decide)
  exact ⟨s, hrun, hlength.1, hlength.2, editsRight_of_careful inStep_digestStore (by decide) hrun⟩

def JobEdit.losesModel (e : JobEdit) : Bool :=
  match e.cause with
  | .toolUpdate args _ => !args.changesType e.before && args.model.isNone && decide (e.after.model ≠ e.before.model)
  | _ => false

private theorem JobEdit.not_right_of_losesModel {e : JobEdit} (h : e.losesModel = true) : ¬e.Right := by
  obtain ⟨cause, before, after⟩ := e
  unfold JobEdit.losesModel at h
  rintro ⟨-, -, hright⟩
  cases cause with
  | toolUpdate args usable =>
    simp only [Bool.and_eq_true, Bool.not_eq_true', Option.isNone_iff_eq_none, decide_eq_true_eq] at h
    exact h.2 (hright.model h.1.1 h.1.2)
  | update req => cases h
  | status status => cases h

private theorem not_right_of_lostPause {s : JobSystem} {e e' : JobEdit}
    (hlog : s.log = [e, e']) (hpaused : e.after.status = .paused)
    (hjob : SchedulerService.getJob s.store e.after.id = some job) (hactive : job.status = .active)
    (hquiet : e'.cause.activates = false) : ¬EditsRight s := by
  intro h
  obtain ⟨i, found, hi, hfound, -, hact⟩ := h.paused 0 e (by rw [hlog]; rfl) hpaused job hjob hactive
  have hsame : found = e' := by
    grind
  rw [hsame, hquiet] at hact
  cases hact

/-- The tool changes the name, and a pause comes between the read and the write of an update. -/
theorem jobEdits_not_right : (∃ s, run (JobSystem.step JobRequest.sampleEnv) { store := digestStore }
      [.toolUpdate 0 "acc" "j" { name := some "news" } true JobRequest.sampleTime, .write 0 JobRequest.sampleTime] =
        some s ∧ ¬EditsRight s) ∧
    ∃ s, run (JobSystem.step JobRequest.sampleEnv) { store := digestStore }
      [.update 0 "acc" "j" { name := some "news" } JobRequest.sampleTime, .setStatus 1 "acc" "j" .paused,
        .write 1 JobRequest.sampleTime, .write 0 JobRequest.sampleTime] = some s ∧ ¬EditsRight s := by
  constructor
  · -- the model of the job is overwritten with that of the configuration
    obtain ⟨s, hrun, htest⟩ := exists_run_of_map (JobSystem.step JobRequest.sampleEnv) { store := digestStore }
      [.toolUpdate 0 "acc" "j" { name := some "news" } true JobRequest.sampleTime, .write 0 JobRequest.sampleTime]
      (fun s => s.log.any JobEdit.losesModel) (by decide)
    obtain ⟨e, he, hloses⟩ := List.any_eq_true.mp htest
    exact ⟨s, hrun, fun h => JobEdit.not_right_of_losesModel hloses (h.edits e he)⟩
  · -- the update writes back the status that it has read
    refine ⟨_, rfl, ?_⟩
    exact not_right_of_lostPause rfl rfl rfl rfl rfl

end PrivaCloud.AgentRunner.Jobs
