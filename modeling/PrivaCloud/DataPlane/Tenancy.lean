import PrivaCloud.DataPlane.Authz

/-!
# What a tenant can reach

A call of an agent-runner with the account `a` leaves the rows of the other accounts as they are and returns
no record of theirs. Two ways lead around the checks: the deletion of a job clears the `job_id` of all runs
that name it, and an empty account id looks like no account to the check of the response.
-/

namespace PrivaCloud.DataPlane

open Framework
open DataSpine (RunStatus)

/-- The rows that `own` does not pick are the same in both tables. -/
def SameOthers {ρ : Type} (own : ρ → Prop) (rows rows' : List ρ) : Prop :=
  ∀ row, ¬ own row → (row ∈ rows' ↔ row ∈ rows)

variable {ρ : Type}

private theorem SameOthers.refl (own : ρ → Prop) (rows : List ρ) : SameOthers own rows rows :=
  fun _ _ => Iff.rfl

/-- The rows that do not belong to the account are unchanged; a fire belongs to the account of its
job. -/
structure Untouched (s s' : Store) (accountId : String) : Prop where
  accounts : SameOthers (fun row => row.accountId = accountId) s.accounts.rows s'.accounts.rows
  quotas : SameOthers (fun row => row.accountId = accountId) s.quotas.rows s'.quotas.rows
  jobs : SameOthers (fun row => row.accountId = accountId) s.jobs.rows s'.jobs.rows
  runs : SameOthers (fun row => row.accountId = accountId) s.runs.rows s'.runs.rows
  fires : SameOthers (fun fire => ∃ row ∈ s.jobs.rows, row.jobId = fire.jobId ∧ row.accountId = accountId)
    s.fires s'.fires
  bindings : s'.bindings = s.bindings
  resourceSpecs : s'.resourceSpecs = s.resourceSpecs
  registrations : s'.registrations = s.registrations
  channelConfigs : s'.channelConfigs = s.channelConfigs
  hookPolicies : s'.hookPolicies = s.hookPolicies

private theorem Untouched.refl (s : Store) (accountId : String) : Untouched s s accountId :=
  ⟨.refl _ _, .refl _ _, .refl _ _, .refl _ _, .refl _ _, rfl, rfl, rfl, rfl, rfl⟩

def Store.OwnsJob (s : Store) (accountId : String) (d : ScheduledJobDefinition) : Prop :=
  ∃ row ∈ s.jobs.rows, row.accountId = accountId ∧ SchedulerService.toJob row = d

def Store.OwnsRun (s : Store) (accountId : String) (r : JobRunRecord) : Prop :=
  ∃ row ∈ s.runs.rows, row.accountId = accountId ∧ SchedulerService.toRun row = r

/-- Every account, quota, job or run record of the response belongs to the account. -/
def Response.BelongsTo (s : Store) (accountId : String) : Response → Prop
  | .account user => ∀ u ∈ user, u.accountId = accountId
  | .quota row => ∀ q ∈ row, q.accountId = accountId
  | .job definition => ∀ d ∈ definition, s.OwnsJob accountId d
  | .jobs definitions => ∀ d ∈ definitions, s.OwnsJob accountId d
  | .run record => ∀ r ∈ record, s.OwnsRun accountId r
  | .runPage page => ∀ r ∈ page.runs, s.OwnsRun accountId r
  | .text _ | .flag _ | .hookPolicies _ | .runnerDefaults _ => True

/-- The call touches and returns nothing of another account. -/
structure Isolated (s : Store) (accountId : String) (outcome : Outcome Response) : Prop where
  untouched : Untouched s outcome.2 accountId
  belongs : ∀ response ∈ outcome.1, response.BelongsTo outcome.2 accountId

section Handlers

variable {env : Env} {s : Store} {a : String} {m : Request}

private theorem isolated_raises : Isolated s a (none, s) := ⟨.refl s a, by simp⟩

private theorem isolated_read {response : Response} (h : response.BelongsTo s a) :
    Isolated s a (some response, s) := ⟨.refl s a, by simpa using h⟩

private theorem account_belongs {row : Option AccountRow} (h : ∀ r ∈ row, r.accountId = a) :
    Isolated s a (Handlers.account env s row) := by
  cases row with
  | none => exact isolated_read (by simp [Response.BelongsTo])
  | some row =>
    refine ⟨.refl s a, ?_⟩
    intro response hr
    simp only [Handlers.account, Option.mem_def, Option.map_eq_some_iff] at hr
    obtain ⟨key, -, rfl⟩ := hr
    intro u hu
    cases hu
    exact h row rfl

variable {row : JobRow}

private theorem mem_jobListByAccount :
    row ∈ s.jobListByAccount a ↔ row ∈ s.jobs.rows ∧ row.accountId = a := by
  simp [Store.jobListByAccount, List.mem_insertionSort]

variable {jobId : String}

private theorem ownsJob_iff : AuthzInterceptor.ownsJob s a jobId = true ↔
    ∃ row, s.jobGet jobId = some row ∧ row.accountId = a := by
  simp only [AuthzInterceptor.ownsJob, List.any_map, List.any_eq_true, Function.comp_apply, decide_eq_true_eq]
  constructor
  · rintro ⟨row, hrow, hid⟩
    obtain ⟨hm, hacc⟩ := mem_jobListByAccount.mp hrow
    exact ⟨row, Table.find?_eq_some.mpr ⟨hm, hid⟩, hacc⟩
  · rintro ⟨row, hrow, hacc⟩
    obtain ⟨hm, hid⟩ := Table.find?_eq_some.mp hrow
    exact ⟨row, mem_jobListByAccount.mpr ⟨hm, hacc⟩, hid⟩

private theorem ownsRun_iff {runId : String} : AuthzInterceptor.ownsRun s a runId = true ↔
    ∃ row, s.runGet runId = some row ∧ row.accountId = a := by
  simp only [AuthzInterceptor.ownsRun, SchedulerService.getRun, Option.isSome_map]
  cases s.runGet runId with
  | none => simp
  | some row => simp [Option.filter_some]

private theorem getJob_belongs (h : s.jobGet jobId = some row)
    (hacc : row.accountId = a) : (Response.job (SchedulerService.getJob s jobId)).BelongsTo s a := by
  simp only [Response.BelongsTo, SchedulerService.getJob, h, Option.map_some, Option.mem_def,
    Option.some.injEq, forall_eq']
  exact ⟨row, Table.mem_of_find? h, hacc, rfl⟩

private theorem sameOthers_modify {κ : Type} [DecidableEq κ] {key : ρ → κ} {t : Table key} {k : κ}
    {f : ρ → ρ} (hf : ∀ r, key (f r) = key r) {own : ρ → Prop} {row : ρ} (h : t.find? k = some row)
    (hown : own row) (hown' : own (f row)) : SameOthers own t.rows (t.modify k f hf).rows := by
  intro r hr
  have hkey (x : ρ) (hx : x ∈ t.rows) (hk : key x = k) : x = row := by
    have hfind := Table.find?_eq_some.mpr ⟨hx, hk⟩
    rw [h] at hfind
    exact (Option.some.inj hfind).symm
  simp only [Table.modify, List.mem_map]
  constructor
  · rintro ⟨x, hx, rfl⟩
    by_cases hk : key x = k
    · rw [if_pos hk, hkey x hx hk] at hr
      exact absurd hown' hr
    · rw [if_neg hk]
      exact hx
  · intro hm
    refine ⟨r, hm, if_neg ?_⟩
    intro hk
    rw [hkey r hm hk] at hr
    exact hr hown

private theorem sameOthers_append {own : ρ → Prop} {rows : List ρ} {row : ρ} (h : own row) :
    SameOthers own rows (rows ++ [row]) := by
  intro r hr
  rw [List.mem_append, List.mem_singleton]
  constructor
  · rintro (hm | rfl)
    · exact hm
    · exact absurd h hr
  · exact .inl

private theorem quotaSet_isolated (hacc : m.accountId = a) : Isolated s a (Handlers.quotaSet env s m) := by
  simp only [Handlers.quotaSet]
  split
  · exact isolated_raises
  rename_i s' hins
  have hothers : SameOthers (fun row => row.accountId = a) s.quotas.rows s'.quotas.rows ∧
      ∃ quotas, s' = { s with quotas := quotas } := by
    unfold Store.quotaInsert at hins
    split at hins
    · cases hins
      exact ⟨.refl _ _, s.quotas, rfl⟩
    split at hins
    · obtain ⟨quotas, hq, rfl⟩ := Option.map_eq_some_iff.mp hins
      refine ⟨?_, quotas, rfl⟩
      rw [Table.insert_rows hq]
      exact sameOthers_append hacc
    · cases hins
  obtain ⟨hquotas, quotas, rfl⟩ := hothers
  constructor
  · refine ⟨.refl _ _, ?_, .refl _ _, .refl _ _, .refl _ _, rfl, rfl, rfl, rfl, rfl⟩
    intro row hrow
    rw [← hquotas row hrow]
    cases hf : quotas.find? m.accountId with
    | none =>
      have hsame : ∀ r ∈ quotas.rows, (if r.accountId = m.accountId then
          Handlers.quotaFields env m r else r) = id r := by
        intro r hr
        apply if_neg
        intro hk
        rw [Table.find?_eq_some.mpr ⟨hr, hk⟩] at hf
        cases hf
      simp only [Table.modify]
      rw [List.map_congr_left hsame, List.map_id]
    | some r =>
      have hr : r.accountId = a := (Table.key_of_find? hf).trans hacc
      have hr' : (Handlers.quotaFields env m r).accountId = a :=
        (Handlers.quotaFields_accountId env m r).trans hr
      have hsame : SameOthers (fun row : QuotaRow => row.accountId = a) quotas.rows
          (quotas.modify m.accountId _ (Handlers.quotaFields_accountId env m)).rows :=
        sameOthers_modify _ hf hr hr'
      exact hsame row hrow
  · intro response hr
    simp only [Option.mem_def, Option.some.injEq] at hr
    subst hr
    intro q hq
    exact (Table.key_of_find? hq).trans hacc

private theorem createJob_isolated (hacc : m.accountId = a) : Isolated s a (Handlers.createJob env s m) := by
  simp only [Handlers.createJob]
  split
  · exact isolated_raises
  rename_i d _
  simp only [SchedulerService.createJob]
  split
  · exact isolated_raises
  rename_i s' hins
  unfold Store.jobInsert at hins
  split at hins
  swap
  · cases hins
  obtain ⟨jobs, hjobs, rfl⟩ := Option.map_eq_some_iff.mp hins
  have hrows := Table.insert_rows hjobs
  constructor
  · refine ⟨.refl _ _, .refl _ _, ?_, .refl _ _, .refl _ _, rfl, rfl, rfl, rfl, rfl⟩
    simp only [SchedulerServicer.answer, hrows]
    exact sameOthers_append hacc
  · intro response hr
    simp only [SchedulerServicer.answer, Option.map_some, Option.mem_def, Option.some.injEq] at hr
    subst hr
    have hget : Store.jobGet { s with jobs := jobs } d.id =
        some (SchedulerService.jobRow m.accountId d env.now) := by
      rw [Store.jobGet, Table.find?_insert hjobs]
      exact if_pos rfl
    exact getJob_belongs hget hacc

private theorem jobUpdate_untouched {fields : JobRow → JobRow}
    {hf : ∀ r, (fields r).jobId = r.jobId} (h : s.jobGet jobId = some row) (hacc : row.accountId = a)
    (hkeep : (fields row).accountId = row.accountId) : Untouched s (s.jobUpdate jobId fields hf) a := by
  refine ⟨.refl _ _, .refl _ _, ?_, .refl _ _, .refl _ _, rfl, rfl, rfl, rfl, rfl⟩
  have hsame : SameOthers (fun row : JobRow => row.accountId = a) s.jobs.rows
      (s.jobs.modify jobId fields hf).rows := sameOthers_modify hf h hacc (hkeep.trans hacc)
  exact hsame

private theorem jobGet_jobUpdate {fields : JobRow → JobRow}
    {hf : ∀ r, (fields r).jobId = r.jobId} (h : s.jobGet jobId = some row) :
    (s.jobUpdate jobId fields hf).jobGet jobId = some (fields row) := by
  rw [Store.jobGet, Store.jobUpdate, Table.find?_modify, if_pos rfl, show s.jobs.find? jobId = some row from h]
  rfl

private theorem updateJob_isolated (h : s.jobGet m.jobId = some row) (hacc : row.accountId = a) :
    Isolated s a (Handlers.updateJob env s m) := by
  simp only [Handlers.updateJob]
  split
  · exact isolated_read (by simp [Response.BelongsTo])
  split
  · exact isolated_raises
  rename_i d _
  simp only [SchedulerService.updateJob, h]
  refine ⟨jobUpdate_untouched h hacc rfl, ?_⟩
  intro response hr
  simp only [SchedulerServicer.answer, Option.map_some, Option.mem_def, Option.some.injEq] at hr
  subst hr
  exact getJob_belongs (jobGet_jobUpdate h) hacc

private theorem setJobStatus_isolated (h : s.jobGet m.jobId = some row)
    (hacc : row.accountId = a) : Isolated s a (Handlers.setJobStatus env s m) := by
  simp only [Handlers.setJobStatus]
  split
  · rw [if_pos (by rw [h]; rfl)]
    exact isolated_raises
  · refine ⟨jobUpdate_untouched h hacc rfl, ?_⟩
    intro response hr
    simp only [Option.mem_def, Option.some.injEq] at hr
    subst hr
    exact getJob_belongs (jobGet_jobUpdate h) hacc

private theorem mem_of_newest {rows : List RunRow} {row : RunRow} (h : Store.newest rows = some row) : row ∈ rows := by
  induction rows generalizing row with
  | nil => cases h
  | cons r rest ih =>
    simp only [Store.newest] at h
    split at h
    · cases h
      exact List.mem_cons_self
    · rename_i best hbest
      split at h
      · cases h
        exact List.mem_cons_self
      · cases h
        exact List.mem_cons_of_mem _ (ih hbest)

private theorem getLatestRun_isolated (hacc : m.accountId = a) :
    (Response.run (SchedulerService.getLatestRun s m.accountId m.jobId)).BelongsTo s a := by
  intro r hr
  obtain ⟨row, hrow, rfl⟩ := Option.map_eq_some_iff.mp hr
  have hm := mem_of_newest hrow
  simp only [List.mem_filter, decide_eq_true_eq] at hm
  exact ⟨row, hm.1, hm.2.1.trans hacc, rfl⟩

private theorem getRun_isolated (hacc : m.accountId = a) :
    (Response.run (SchedulerService.getRun s m.accountId m.runId)).BelongsTo s a := by
  intro r hr
  obtain ⟨row, hrow, rfl⟩ := Option.map_eq_some_iff.mp hr
  obtain ⟨hget, hown⟩ := Option.filter_eq_some_iff.mp hrow
  exact ⟨row, Table.mem_of_find? hget, (of_decide_eq_true hown).trans hacc, rfl⟩

private theorem mem_runList {accountId status : String} {limit : Int}
    {before after : Option (String × String)} {row : RunRow}
    (h : row ∈ (s.runList accountId limit before after jobId status).1) :
    row ∈ s.runs.rows ∧ row.accountId = accountId := by
  have hlimit {n : Int} {rows : List RunRow} (hm : row ∈ Store.sqlLimit n rows) : row ∈ rows := by
    unfold Store.sqlLimit at hm
    split at hm
    · exact hm
    · exact List.mem_of_mem_take hm
  have hslice {n : Int} {rows : List RunRow} (hm : row ∈ Store.slice n rows) : row ∈ rows := by
    unfold Store.slice at hm
    split at hm
    · exact List.mem_of_mem_take hm
    · exact List.mem_of_mem_take hm
  have hpage : ∃ (r : RunRow → RunRow → Prop) (_ : DecidableRel r), row ∈ Store.slice limit
      (Store.sqlLimit (limit + 1) ((s.runs.rows.filter
        (Store.selected accountId jobId status before after)).insertionSort r)) := by
    simp only [Store.runList] at h
    split at h
    · exact ⟨_, _, List.mem_reverse.mp h⟩
    · exact ⟨_, _, h⟩
  obtain ⟨r, _, hpage⟩ := hpage
  have hm := (List.mem_insertionSort r).mp (hlimit (hslice hpage))
  obtain ⟨hm, hsel⟩ := List.mem_filter.mp hm
  simp only [Store.selected, Bool.and_eq_true, decide_eq_true_eq] at hsel
  exact ⟨hm, hsel.1.1.1⟩

private theorem listRuns_isolated (hacc : m.accountId = a) : Isolated s a (Handlers.listRuns s m) := by
  simp only [Handlers.listRuns]
  split
  · apply isolated_read
    intro r hr
    obtain ⟨row, hrow, rfl⟩ := List.mem_map.mp hr
    obtain ⟨hm, hown⟩ := mem_runList hrow
    exact ⟨row, hm, hown.trans hacc, rfl⟩
  · exact isolated_raises

private theorem finishRun_isolated {row : RunRow} (h : s.runGet m.runId = some row) (hacc : row.accountId = a) :
    Isolated s a (Handlers.finishRun env s m) := by
  simp only [Handlers.finishRun]
  split
  · exact isolated_raises
  rename_i status _
  simp only [SchedulerService.finishRun]
  split
  swap
  · exact isolated_raises
  have hget (r : JobRunRecord) (hr : r.runId = m.runId) :
      (s.runUpdate m.runId (SchedulerService.finishFields r) (SchedulerService.finishFields_runId r)).runGet
        m.runId = some (SchedulerService.finishFields r row) := by
    rw [Store.runGet, Store.runUpdate, Table.find?_modify, if_pos rfl,
      show s.runs.find? m.runId = some row from h]
    rfl
  rw [hget _ rfl]
  constructor
  · refine ⟨.refl _ _, .refl _ _, .refl _ _, ?_, .refl _ _, rfl, rfl, rfl, rfl, rfl⟩
    have hsame (r : JobRunRecord) : SameOthers (fun row : RunRow => row.accountId = a) s.runs.rows
        (s.runs.modify m.runId _ (SchedulerService.finishFields_runId r)).rows :=
      sameOthers_modify _ h hacc hacc
    exact hsame _
  · intro response hr
    simp only [SchedulerServicer.answer, Option.map_some, Option.mem_def, Option.some.injEq] at hr
    subst hr
    intro r hr
    cases hr
    exact ⟨_, Table.mem_of_find? (hget _ rfl), hacc, rfl⟩

private theorem jobDelete_untouched {job : JobRow} (h : s.jobGet jobId = some job)
    (hacc : job.accountId = a) : Untouched s (s.jobDelete jobId) a ↔
      ∀ row ∈ s.runs.rows, row.jobId = some jobId → row.accountId = a := by
  obtain ⟨hjob, hkey⟩ := Table.find?_eq_some.mp h
  constructor
  · intro hu row hrow hname
    by_contra hother
    obtain ⟨x, -, hx⟩ := List.mem_map.mp ((hu.runs row hother).mpr hrow)
    by_cases hnamed : x.jobId = some jobId
    · rw [if_pos hnamed] at hx
      rw [← hx] at hname
      cases hname
    · rw [if_neg hnamed] at hx
      exact hnamed (hx ▸ hname)
  · intro hruns
    refine ⟨.refl _ _, .refl _ _, ?_, ?_, ?_, rfl, rfl, rfl, rfl, rfl⟩
    · intro row hother
      simp only [Store.jobDelete, Table.filter, List.mem_filter, decide_eq_true_eq, and_iff_left_iff_imp]
      intro hrow hname
      have hsame := Table.find?_eq_some.mpr ⟨hrow, hname⟩
      rw [show s.jobs.find? jobId = some job from h] at hsame
      exact hother (Option.some.inj hsame ▸ hacc)
    · intro row hother
      simp only [Store.jobDelete, Table.map, List.mem_map]
      constructor
      · rintro ⟨x, hx, rfl⟩
        by_cases hname : x.jobId = some jobId
        · rw [if_pos hname] at hother
          exact absurd (hruns x hx hname) hother
        · rw [if_neg hname]
          exact hx
      · intro hrow
        exact ⟨row, hrow, if_neg fun hname => hother (hruns row hrow hname)⟩
    · intro fire hother
      simp only [Store.jobDelete, List.mem_filter, decide_eq_true_eq, and_iff_left_iff_imp]
      intro _ hname
      exact hother ⟨job, hjob, hkey.trans hname.symm, hacc⟩

end Handlers

section Surface

variable (env : Env) (s : Store) (principal : TenantPrincipal) (m : Request)

structure TenantSafe (method : Method) : Prop where
  isolated : Isolated s principal.accountId (AuthzInterceptor.serve env s principal method m)
  denied : tenantAcl method = none → AuthzInterceptor.serve env s principal method m = (none, s)

/-- No run of another account names the job that is deleted, and the account that is looked up by its
name does not have the empty id. -/
def Unshared : Method → Prop
  | .tenant .deleteJob => AuthzInterceptor.ownsJob s principal.accountId m.jobId = true →
      ∀ row ∈ s.runs.rows, row.jobId = some m.jobId → row.accountId = principal.accountId
  | .tenant .getByUsername => ∀ row, s.accountGetByUsername m.username = some row →
      row.accountId = "" → Handlers.plainApiKey env row = none
  | _ => True

private theorem serve_tenant (method : TenantMethod) (h : tenantAcl (.tenant method) ≠ some .respAccount) :
    AuthzInterceptor.serve env s principal (.tenant method) m =
      if AuthzInterceptor.authorize s principal m (tenantAcl (.tenant method)) then
        Handlers.handle env s m method
      else (none, s) := by
  simp only [AuthzInterceptor.serve, h, false_and, if_false]
  split
  · split <;> rfl
  · rfl

private theorem getByUsername_isolated : Isolated s principal.accountId
      (AuthzInterceptor.serve env s principal (.tenant .getByUsername) m) ↔
    ∀ row, s.accountGetByUsername m.username = some row → row.accountId = "" →
      Handlers.plainApiKey env row = none := by
  simp only [AuthzInterceptor.serve, tenantAcl, AuthzInterceptor.authorize, if_true, Handlers.handle, true_and]
  cases hrow : s.accountGetByUsername m.username with
  | none =>
    simp only [Handlers.account, AuthzInterceptor.replied, ne_eq, not_true_eq_false, false_and, if_false]
    constructor
    · intro _ row h
      cases h
    · intro _
      exact isolated_read (by simp [Response.BelongsTo])
  | some row =>
    cases hkey : Handlers.plainApiKey env row with
    | none =>
      simp only [Handlers.account, hkey, Option.map_none]
      constructor
      · rintro _ row' ⟨⟩ _
        exact hkey
      · intro _
        exact isolated_raises
    | some key =>
      have hid : AuthzInterceptor.replied (.account (some (Handlers.accountPb env row key))) =
          row.accountId := rfl
      simp only [Handlers.account, hkey, Option.map_some, hid]
      split
      · rename_i hdropped
        constructor
        · rintro _ row' ⟨⟩ hempty
          exact absurd hempty hdropped.1
        · intro _
          exact isolated_raises
      · rename_i hkept
        constructor
        · rintro h row' ⟨⟩ hempty
          have hbelongs := h.belongs _ rfl _ rfl
          have hown : row.accountId = principal.accountId := hbelongs
          exact absurd (hown.symm.trans hempty) principal.nonempty
        · intro h
          apply isolated_read
          intro u hu
          cases hu
          by_contra hother
          apply hkept
          refine ⟨?_, hother⟩
          intro hempty
          have hnone := h row rfl hempty
          rw [hkey] at hnone
          cases hnone

/-- A call of a tenant is safe exactly if no run of another account names a job that it deletes and
the account that it looks up by name has an id. -/
theorem tenantSafe_iff_unshared (method : Method) :
    TenantSafe env s principal m method ↔ Unshared env s principal m method := by
  have hsafe (tenantMethod : TenantMethod)
      (h : Isolated s principal.accountId
        (AuthzInterceptor.serve env s principal (.tenant tenantMethod) m)) :
      TenantSafe env s principal m (.tenant tenantMethod) := by
    refine ⟨h, ?_⟩
    intro hnone
    cases tenantMethod <;> cases hnone
  -- a method that is checked before its handler runs
  have hchecked (tenantMethod : TenantMethod)
      (hscope : tenantAcl (.tenant tenantMethod) ≠ some .respAccount)
      (hrun : AuthzInterceptor.authorize s principal m (tenantAcl (.tenant tenantMethod)) = true →
        Isolated s principal.accountId (Handlers.handle env s m tenantMethod)) :
      TenantSafe env s principal m (.tenant tenantMethod) := by
    apply hsafe
    rw [serve_tenant env s principal m tenantMethod hscope]
    split
    · rename_i hauth
      exact hrun hauth
    · exact isolated_raises
  have haccount (hauth : AuthzInterceptor.authorize s principal m (some .reqAccount) = true) :
      m.accountId = principal.accountId := of_decide_eq_true hauth
  cases method with
  | controlPlane name =>
    refine iff_of_true ⟨?_, fun _ => rfl⟩ trivial
    exact isolated_raises
  | tenant tenantMethod =>
    cases tenantMethod with
    | healthz | readyz | hookPolicyList =>
      exact iff_of_true (hchecked _ (by decide) fun _ => isolated_read trivial) trivial
    | runnerDefaultsGet =>
      refine iff_of_true (hchecked _ (by decide) fun _ => ?_) trivial
      simp only [Handlers.handle, Handlers.runnerDefaultsGet]
      split
      · exact isolated_read trivial
      · exact ⟨⟨.refl _ _, .refl _ _, .refl _ _, .refl _ _, .refl _ _, rfl, rfl, rfl, rfl, rfl⟩,
          by simp [Response.BelongsTo]⟩
    | accountGet =>
      refine iff_of_true (hchecked _ (by decide) fun hauth => ?_) trivial
      exact account_belongs fun row hrow => (Table.key_of_find? hrow).trans (haccount hauth)
    | getByUsername =>
      have hiff := getByUsername_isolated env s principal m
      exact ⟨fun h => hiff.mp h.isolated, fun h => hsafe _ (hiff.mpr h)⟩
    | quotaGet =>
      refine iff_of_true (hchecked _ (by decide) fun hauth => isolated_read ?_) trivial
      exact fun q hq => (Table.key_of_find? hq).trans (haccount hauth)
    | quotaSet =>
      refine iff_of_true (hchecked _ (by decide) fun hauth => ?_) trivial
      simp only [tenantAcl, AuthzInterceptor.authorize, Bool.and_eq_true, decide_eq_true_eq] at hauth
      exact quotaSet_isolated hauth.1
    | listJobs =>
      refine iff_of_true (hchecked _ (by decide) fun hauth => isolated_read ?_) trivial
      intro d hd
      obtain ⟨row, hrow, rfl⟩ := List.mem_map.mp hd
      obtain ⟨hm, hown⟩ := mem_jobListByAccount.mp hrow
      exact ⟨row, hm, hown.trans (haccount hauth), rfl⟩
    | createJob =>
      exact iff_of_true (hchecked _ (by decide) fun hauth => createJob_isolated (haccount hauth))
        trivial
    | getJob =>
      refine iff_of_true (hchecked _ (by decide) fun hauth => isolated_read ?_) trivial
      obtain ⟨row, hrow, hown⟩ := ownsJob_iff.mp hauth
      exact getJob_belongs hrow hown
    | updateJob =>
      refine iff_of_true (hchecked _ (by decide) fun hauth => ?_) trivial
      obtain ⟨row, hrow, hown⟩ := ownsJob_iff.mp hauth
      exact updateJob_isolated hrow hown
    | deleteJob =>
      have hserve := serve_tenant env s principal m .deleteJob (by decide)
      constructor
      · intro h hauth
        obtain ⟨row, hrow, hown⟩ := ownsJob_iff.mp hauth
        have hiso := h.isolated
        have hallowed : AuthzInterceptor.authorize s principal m (tenantAcl (.tenant .deleteJob)) = true :=
          hauth
        rw [hserve, if_pos hallowed] at hiso
        exact (jobDelete_untouched hrow hown).mp hiso.untouched
      · intro h
        refine hchecked _ (by decide) fun hauth => ?_
        obtain ⟨row, hrow, hown⟩ := ownsJob_iff.mp hauth
        exact ⟨(jobDelete_untouched hrow hown).mpr (h hauth), by simp [Handlers.handle, Response.BelongsTo]⟩
    | setJobStatus =>
      refine iff_of_true (hchecked _ (by decide) fun hauth => ?_) trivial
      obtain ⟨row, hrow, hown⟩ := ownsJob_iff.mp hauth
      exact setJobStatus_isolated hrow hown
    | listRuns =>
      exact iff_of_true (hchecked _ (by decide) fun hauth => listRuns_isolated (haccount hauth))
        trivial
    | getRun =>
      exact iff_of_true (hchecked _ (by decide) fun hauth =>
        isolated_read (getRun_isolated (haccount hauth))) trivial
    | getLatestRun =>
      exact iff_of_true (hchecked _ (by decide) fun hauth =>
        isolated_read (getLatestRun_isolated (haccount hauth))) trivial
    | finishRun =>
      refine iff_of_true (hchecked _ (by decide) fun hauth => ?_) trivial
      obtain ⟨row, hrow, hown⟩ := ownsRun_iff.mp hauth
      exact finishRun_isolated hrow hown

end Surface

/-- A run of an account `b`. -/
def sharedRun : RunRow where
  runId := "r"
  jobId := some "j"
  jobName := "n"
  accountId := "b"
  sessionId := none
  startedAt := .ofText "2026-01-01T00:00:00+00:00"
  finishedAt := none
  status := .running
  durationMs := none
  isError := false
  errorMessage := none
  numTurns := none
  resultSummary := none

/-- The run names a job of an account `a`. -/
def sharedStore : Store :=
  { accounts :=
      { rows := [
          { accountId := "a", username := "u", passwordHash := "", createdAt := "", updatedAt := "" },
          { accountId := "b", username := "v", passwordHash := "", createdAt := "", updatedAt := "" }] }
    jobs :=
      { rows := [{
          jobId := "j", accountId := "a", name := "n", prompt := "p", trigger := .interval { hours := 1 }
          jobType := .agentRun, jobConfig := none, timezone := "UTC", model := none, status := .active
          createdAt := .ofText "2026-01-01T00:00:00+00:00"
          updatedAt := .ofText "2026-01-01T00:00:00+00:00" }] }
    runs := { rows := [sharedRun] } }

def identityEnv : Env where
  decryptValue := some
  passwordEpoch := id
  seedValues := []
  now := .ofText "2026-01-01T00:00:00+00:00"
  minted := ⟨"m", by decide⟩

theorem sharedStore_not_tenantSafe :
    ¬ TenantSafe identityEnv sharedStore ⟨"a", by decide⟩ { jobId := "j" } (.tenant .deleteJob) := by
  intro h
  have hkept : sharedRun ∈ (AuthzInterceptor.serve identityEnv sharedStore ⟨"a", by decide⟩
      (.tenant .deleteJob) { jobId := "j" }).2.runs.rows :=
    (h.isolated.untouched.runs sharedRun (by decide)).mpr (by decide)
  revert hkept
  decide

end PrivaCloud.DataPlane
