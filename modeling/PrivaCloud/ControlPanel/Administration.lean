import PrivaCloud.ControlPanel.Accounts
import PrivaCloud.Framework.Processes

/-!
# The administration of the accounts

The endpoints that change roles and lifecycles, between the awaits of one control panel. `update_user`
awaits the push of the credentials between reading the account and writing it.
-/

namespace PrivaCloud.ControlPanel

open Framework

/-- The columns that an update sets. -/
structure AccountFields where
  role : Option Role := none
  status : Option AccountStatus := none
  agentRunnerType : Option RunnerType := none
  passwordEpoch : Option Text := none
  apiKey : Option (Option Text) := none

def AccountFields.apply (fields : AccountFields) (user : UserRecord) : UserRecord :=
  { user with
    role := fields.role.getD user.role
    status := fields.status.getD user.status
    agentRunnerType := fields.agentRunnerType.getD user.agentRunnerType
    passwordEpoch := fields.passwordEpoch.getD user.passwordEpoch
    apiKey := fields.apiKey.getD user.apiKey }

def UserRecord.activeAdmin (user : UserRecord) : Bool := user.role = .admin && user.status = .active

namespace Accounts

/-- `update_user`, which raises if there is no such account. -/
def updateUser (t : Accounts) (username : Text) (fields : AccountFields) : Option Accounts :=
  match t.getUser username with
  | none => none
  | some user => some (t.modify user.accountId fields.apply fun _ => rfl)

/-- `create_user`, with the id that is given to the account. -/
def createUser (t : Accounts) (user : UserRecord) : Option Accounts :=
  match t.getUser user.username with
  | some _ => none
  | none => t.insert user

def activeAdminCount (t : Accounts) : Nat := (t.rows.filter UserRecord.activeAdmin).length

def Administered (t : Accounts) : Prop := ∃ user ∈ t.rows, user.activeAdmin = true

instance (t : Accounts) : Decidable t.Administered :=
  inferInstanceAs (Decidable (∃ user ∈ t.rows, _))

def last (t : Accounts) (user : UserRecord) : Bool := user.activeAdmin && t.activeAdminCount ≤ 1

end Accounts

structure Registration where
  requestId : String
  username : Text
  runnerType : RunnerType := .autoScale
  passwordEpoch : Text := []
  pending : Bool := true

/-- What the data plane keeps for the control panel. -/
structure PanelStore where
  accounts : Accounts
  registrations : List Registration := []

/-- The body of `update_user`, the password as the epoch of its hash; `env` is a body with credentials. -/
structure UserUpdate where
  password : Option Text := none
  role : Option String := none
  apiKey : Option String := none
  env : Bool := false
  agentRunnerType : Option String := none
  deriving DecidableEq

inductive AdminRequest
  | updateUser (username : Text) (update : UserUpdate)
  | disableUser (username current : Text)
  | enableUser (username : Text)
  | deleteUser (username current : Text)
  | approveRegistration (requestId : String)

inductive AdminCall
  | entered (request : AdminRequest)
  | pushing (username : Text) (update : UserUpdate) (existing : UserRecord)
  | ended (code : Nat) (detail : String)

/-- What is made up: a generated API key and the id of a new account. -/
structure Generated where
  apiKey : Text := []
  accountId : String := ""

def roleOf : String → Option Role
  | "admin" => some .admin
  | "user" => some .user
  | _ => none

def runnerTypeOf : String → Option RunnerType
  | "auto_scale" => some .autoScale
  | "persistent" => some .persistent
  | _ => none

namespace UserUpdate

variable (update : UserUpdate)

def demotes : Bool := update.role.any fun role => role ≠ "" && role ≠ "admin"

/-- Last admin protection on role demotion, against the record that was read. -/
def guarded (t : Accounts) (existing : UserRecord) : Bool :=
  update.demotes && existing.role = .admin && existing.status = .active && t.activeAdminCount ≤ 1

/-- The columns to write; a role that the store does not know is `none`. -/
def fields (existing : UserRecord) (made : Generated) : Option AccountFields :=
  let rest : AccountFields :=
    { agentRunnerType := (update.agentRunnerType.bind runnerTypeOf).filter (· ≠ existing.agentRunnerType)
      passwordEpoch := update.password
      apiKey := update.apiKey.map fun key =>
        if key = "__generate__" then some made.apiKey
        else if key = "__revoke__" then none
        else some key.toList }
  match update.role with
  | none => some rest
  | some role => (roleOf role).map fun role => { rest with role := some role }

end UserUpdate

namespace AdminCall

def notFound : AdminCall := .ended 404 "User not found"

def lastAdmin : AdminCall := .ended 400 "Cannot remove the last admin"

/-- A write of the accounts, which raises if the store refuses it. -/
def write (s : PanelStore) (accounts : Option Accounts) (done : AdminCall) : PanelStore × AdminCall :=
  match accounts with
  | none => (s, .ended 400 "")
  | some accounts => ({ s with accounts := accounts }, done)

/-- The end of `update_user`, with the guard made again. -/
def finishUpdate (s : PanelStore) (username : Text) (update : UserUpdate) (existing : UserRecord)
    (made : Generated) : PanelStore × AdminCall :=
  if update.guarded s.accounts existing then (s, lastAdmin)
  else
    write s ((update.fields existing made).bind (s.accounts.updateUser username)) (.ended 200 "")

def enter (s : PanelStore) (made : Generated) : AdminRequest → PanelStore × AdminCall
  | .updateUser username update =>
    match s.accounts.getUser username with
    | none => (s, notFound)
    | some existing =>
      if update.guarded s.accounts existing then (s, lastAdmin)
      else if update.agentRunnerType.any fun type => (runnerTypeOf type).isNone then
        (s, .ended 400 "Invalid agent_runner_type")
      else if update.env then (s, .pushing username update existing)
      else finishUpdate s username update existing made
  | .disableUser username current =>
    if username = current then (s, .ended 400 "Cannot disable your own account")
    else
      match s.accounts.getUser username with
      | none => (s, notFound)
      | some existing =>
        if existing.status = .purged then (s, .ended 400 "Account is being purged")
        else if s.accounts.last existing then (s, lastAdmin)
        else write s (s.accounts.updateUser username { status := some .disabled }) (.ended 200 "")
  | .enableUser username =>
    match s.accounts.getUser username with
    | none => (s, notFound)
    | some existing =>
      if existing.status = .purged then (s, .ended 400 "Account is being purged")
      else write s (s.accounts.updateUser username { status := some .active }) (.ended 200 "")
  | .deleteUser username current =>
    if username = current then (s, .ended 400 "Cannot delete your own account")
    else
      match s.accounts.getUser username with
      | none => (s, notFound)
      | some existing =>
        if s.accounts.last existing then (s, lastAdmin)
        else write s (s.accounts.updateUser username { status := some .purged }) (.ended 202 "")
  | .approveRegistration requestId =>
    match s.registrations.find? (·.requestId = requestId) with
    | none => (s, .ended 404 "Registration request not found")
    | some pending =>
      if pending.pending = false then (s, .ended 409 "Request already decided")
      else if (s.accounts.getUser pending.username).isSome then (s, .ended 409 "User already exists")
      else
        match s.accounts.createUser
            { accountId := made.accountId
              username := pending.username
              agentRunnerType := pending.runnerType
              passwordEpoch := pending.passwordEpoch } with
        | none => (s, .ended 400 "")
        | some accounts =>
          ({ accounts := accounts
             registrations := s.registrations.map fun r =>
               if r.requestId = requestId then { r with pending := false } else r }, .ended 200 "")

def act (s : PanelStore) (call : AdminCall) (made : Generated) : Option (PanelStore × AdminCall) :=
  match call with
  | .entered request => some (enter s made request)
  | .pushing username update existing => some (finishUpdate s username update existing made)
  | .ended _ _ => none

end AdminCall

def adminProgram : Program PanelStore AdminCall AdminRequest Generated Empty where
  enter := AdminCall.entered
  act := AdminCall.act
  outside := fun _ event => nomatch event

variable {fields : AccountFields} {existing user : UserRecord} {username : Text}
variable {update : UserUpdate}

section Accounts

variable {t t' : Accounts}

theorem count_le_one_of_unique {k : String} (h : ∀ user ∈ t.rows, user.activeAdmin = true → user.accountId = k) :
    t.activeAdminCount ≤ 1 := by
  have hnodup : ((t.rows.filter UserRecord.activeAdmin).map UserRecord.accountId).Nodup :=
    t.nodup.sublist (List.Sublist.map _ List.filter_sublist)
  have hconst : (t.rows.filter UserRecord.activeAdmin).map UserRecord.accountId =
      List.replicate t.activeAdminCount k := by
    rw [List.eq_replicate_iff]
    refine ⟨by simp [Accounts.activeAdminCount], ?_⟩
    intro id hid
    obtain ⟨user, huser, rfl⟩ := List.mem_map.mp hid
    obtain ⟨hmem, hadmin⟩ := List.mem_filter.mp huser
    exact h user hmem hadmin
  rw [hconst, List.nodup_replicate] at hnodup
  exact hnodup

theorem eq_of_accountId {other : UserRecord} (hu : user ∈ t.rows) (ho : other ∈ t.rows)
    (h : other.accountId = user.accountId) : other = user :=
  List.inj_on_of_nodup_map t.nodup ho hu h

theorem exists_other_admin (h : t.Administered) (hu : user ∈ t.rows)
    (hlast : t.last user = false) : ∃ other ∈ t.rows, other.activeAdmin = true ∧ other.accountId ≠ user.accountId := by
  by_contra hnone
  have hunique (other : UserRecord) (ho : other ∈ t.rows) (hadmin : other.activeAdmin = true) :
      other.accountId = user.accountId := by
    by_contra hne
    exact hnone ⟨other, ho, hadmin, hne⟩
  obtain ⟨admin, hmem, hadmin⟩ := h
  have hsame := eq_of_accountId hu hmem (hunique admin hmem hadmin)
  subst hsame
  have hcount := count_le_one_of_unique hunique
  simp [Accounts.last, hadmin, hcount] at hlast

theorem eq_of_last {other : UserRecord} (hu : user ∈ t.rows) (hlast : t.last user = true) (ho : other ∈ t.rows)
    (hadmin : other.activeAdmin = true) : other = user := by
  obtain ⟨hactive, hone⟩ := Bool.and_eq_true_iff.mp hlast
  have hcount : (t.rows.filter UserRecord.activeAdmin).length ≤ 1 := of_decide_eq_true hone
  have huser : user ∈ t.rows.filter UserRecord.activeAdmin := List.mem_filter.mpr ⟨hu, hactive⟩
  have hother : other ∈ t.rows.filter UserRecord.activeAdmin := List.mem_filter.mpr ⟨ho, hadmin⟩
  clear hone hlast
  generalize t.rows.filter UserRecord.activeAdmin = admins at hcount huser hother
  match admins with
  | [] => cases huser
  | [admin] => rw [List.mem_singleton.mp huser, List.mem_singleton.mp hother]
  | _ :: _ :: _ =>
    simp at hcount

theorem administered_updateUser (h : t.Administered)
    (hkeep : ∀ user, t.getUser username = some user →
      t.last user = false ∨ (user.activeAdmin = true → (fields.apply user).activeAdmin = true))
    (hw : t.updateUser username fields = some t') : t'.Administered := by
  unfold Accounts.updateUser at hw
  cases hu : t.getUser username with
  | none =>
    rw [hu] at hw
    cases hw
  | some user =>
    rw [hu] at hw
    cases hw
    have hmem := Accounts.mem_of_getUser hu
    have hrow (r : UserRecord) (hr : r ∈ t.rows) :
        (if r.accountId = user.accountId then fields.apply r else r) ∈
          (t.modify user.accountId fields.apply fun _ => rfl).rows := List.mem_map.mpr ⟨r, hr, rfl⟩
    rcases hkeep user hu with hlast | hstays
    · obtain ⟨other, ho, hadmin, hne⟩ := exists_other_admin h hmem hlast
      have hin := hrow other ho
      rw [if_neg hne] at hin
      exact ⟨other, hin, hadmin⟩
    · obtain ⟨admin, ha, hadmin⟩ := h
      have hin := hrow admin ha
      by_cases hsame : admin.accountId = user.accountId
      · rw [if_pos hsame] at hin
        refine ⟨_, hin, ?_⟩
        rw [eq_of_accountId hmem ha hsame] at hadmin ⊢
        exact hstays hadmin
      · rw [if_neg hsame] at hin
        exact ⟨admin, hin, hadmin⟩

theorem not_administered_updateUser
    (hread : t.getUser username = some user) (hlast : t.last user = true) (hrole : fields.role = some .user)
    (hw : t.updateUser username fields = some t') : ¬ t'.Administered := by
  rintro ⟨admin, hmem, hadmin⟩
  rw [Accounts.updateUser, hread] at hw
  cases hw
  obtain ⟨other, ho, rfl⟩ := List.mem_map.mp hmem
  by_cases hsame : other.accountId = user.accountId
  · rw [if_pos hsame] at hadmin
    simp [AccountFields.apply, UserRecord.activeAdmin, hrole] at hadmin
  · rw [if_neg hsame] at hadmin
    exact hsame (congrArg UserRecord.accountId (eq_of_last (Accounts.mem_of_getUser hread) hlast ho hadmin))

theorem administered_createUser (h : t.Administered) (hw : t.createUser user = some t') :
    t'.Administered := by
  unfold Accounts.createUser at hw
  split at hw
  · cases hw
  · obtain ⟨admin, ha, hadmin⟩ := h
    refine ⟨admin, ?_, hadmin⟩
    rw [Table.insert_rows hw]
    exact List.mem_append_left _ ha

end Accounts

theorem fields_role {made : Generated} (h : update.fields existing made = some fields) :
    fields.role = update.role.bind roleOf ∧ fields.status = none := by
  unfold UserUpdate.fields at h
  cases hr : update.role with
  | none =>
    rw [hr] at h
    cases h
    exact ⟨rfl, rfl⟩
  | some role =>
    rw [hr] at h
    obtain ⟨known, hknown, rfl⟩ := Option.map_eq_some_iff.mp h
    exact ⟨hknown.symm, rfl⟩

/-- Only the role `user` takes the administration away. -/
theorem activeAdmin_apply {made : Generated}
    (h : update.fields existing made = some fields) (hrole : update.role ≠ some "user")
    (hadmin : user.activeAdmin = true) : (fields.apply user).activeAdmin = true := by
  obtain ⟨hfields, hstatus⟩ := fields_role h
  have hkeeps : fields.role = none ∨ fields.role = some .admin := by
    rw [hfields]
    cases hr : update.role with
    | none => exact .inl rfl
    | some role =>
      rw [Option.bind_some]
      unfold roleOf
      split
      · exact .inr rfl
      · exact absurd hr hrole
      · exact .inl rfl
  simp only [UserRecord.activeAdmin, Bool.and_eq_true, decide_eq_true_eq] at hadmin
  rcases hkeeps with hnone | hsome
  · simp [AccountFields.apply, UserRecord.activeAdmin, hnone, hstatus, hadmin]
  · simp [AccountFields.apply, UserRecord.activeAdmin, hsome, hstatus, hadmin]

namespace AdminCall

variable {s : PanelStore} {made : Generated}

theorem administered_write {accounts : Option Accounts} {done : AdminCall} (h : s.accounts.Administered)
    (hw : ∀ t, accounts = some t → t.Administered) : (write s accounts done).1.accounts.Administered := by
  unfold write
  cases hacc : accounts with
  | none => exact h
  | some t => exact hw t hacc

/-- The second guard holds of the record that was read before the push; the account that is written may be
another one by then. -/
theorem administered_finishUpdate (h : s.accounts.Administered)
    (hfresh : update.role = some "user" → ∀ user, s.accounts.getUser username = some user →
      s.accounts.last user = true → existing.activeAdmin = true) :
    (finishUpdate s username update existing made).1.accounts.Administered := by
  unfold finishUpdate
  by_cases hguard : update.guarded s.accounts existing = true
  · rw [if_pos hguard]
    exact h
  · rw [if_neg hguard]
    refine administered_write h ?_
    intro t ht
    obtain ⟨fields, hfields, hw⟩ := Option.bind_eq_some_iff.mp ht
    refine administered_updateUser h ?_ hw
    intro user huser
    by_cases hrole : update.role = some "user"
    · left
      by_contra hlast
      have hlast : s.accounts.last user = true := by simpa using hlast
      have hadmin := hfresh hrole user huser hlast
      simp only [UserRecord.activeAdmin, Bool.and_eq_true, decide_eq_true_eq] at hadmin
      simp only [Accounts.last, Bool.and_eq_true, decide_eq_true_eq] at hlast
      simp [UserUpdate.guarded, UserUpdate.demotes, hrole, hadmin, hlast.2] at hguard
    · exact .inr fun hadmin => activeAdmin_apply hfields hrole hadmin

theorem administered_freeze {status : AccountStatus} {done : AdminCall}
    (h : s.accounts.Administered) (hread : s.accounts.getUser username = some existing) :
    (if s.accounts.last existing then (s, lastAdmin)
      else write s (s.accounts.updateUser username { status := some status }) done).1.accounts.Administered := by
  by_cases hlast : s.accounts.last existing = true
  · rw [if_pos hlast]
    exact h
  · rw [if_neg hlast]
    refine administered_write h ?_
    intro t ht
    refine administered_updateUser h ?_ ht
    intro user huser
    rw [hread] at huser
    cases huser
    exact .inl (by simpa using hlast)

theorem administered_enter (request : AdminRequest) (h : s.accounts.Administered) :
    (enter s made request).1.accounts.Administered := by
  cases request with
  | updateUser username update =>
    simp only [enter]
    cases hread : s.accounts.getUser username with
    | none => exact h
    | some existing =>
      dsimp only
      split
      · exact h
      · split
        · exact h
        · split
          · exact h
          · refine administered_finishUpdate h ?_
            intro _ user huser hlast
            rw [hread] at huser
            cases huser
            exact (Bool.and_eq_true_iff.mp hlast).1
  | disableUser username current =>
    simp only [enter]
    split
    · exact h
    · cases hread : s.accounts.getUser username with
      | none => exact h
      | some existing =>
        dsimp only
        split
        · exact h
        · exact administered_freeze h hread
  | enableUser username =>
    simp only [enter]
    cases hread : s.accounts.getUser username with
    | none => exact h
    | some existing =>
      dsimp only
      split
      · exact h
      · refine administered_write h ?_
        intro t ht
        refine administered_updateUser h ?_ ht
        intro user _
        right
        intro hadmin
        simp only [UserRecord.activeAdmin, Bool.and_eq_true, decide_eq_true_eq] at hadmin
        simp [AccountFields.apply, UserRecord.activeAdmin, hadmin]
  | deleteUser username current =>
    simp only [enter]
    split
    · exact h
    · cases hread : s.accounts.getUser username with
      | none => exact h
      | some existing => exact administered_freeze h hread
  | approveRegistration requestId =>
    simp only [enter]
    split
    · exact h
    · split
      · exact h
      · split
        · exact h
        · split
          · exact h
          · rename_i hcreate
            exact administered_createUser h hcreate

theorem not_administered_finishUpdate
    (hread : s.accounts.getUser username = some user) (hrole : update.role = some "user")
    (hlast : s.accounts.last user = true) (hstale : existing.activeAdmin = false) :
    ¬ (finishUpdate s username update existing made).1.accounts.Administered := by
  have hunguarded : update.guarded s.accounts existing = false := by
    by_contra hguard
    simp only [UserUpdate.guarded, Bool.not_eq_false, Bool.and_eq_true, decide_eq_true_eq] at hguard
    simp [UserRecord.activeAdmin, hguard] at hstale
  have hfields : ∃ fields, update.fields existing made = some fields := by
    simp [UserUpdate.fields, hrole, roleOf]
  obtain ⟨fields, hfields⟩ := hfields
  obtain ⟨hf, -⟩ := fields_role hfields
  have hw : s.accounts.updateUser username fields =
      some (s.accounts.modify user.accountId fields.apply fun _ => rfl) := by
    rw [Accounts.updateUser, hread]
  rw [finishUpdate, hunguarded, hfields, Option.bind_some, hw]
  rw [hrole] at hf
  exact not_administered_updateUser hread hlast hf hw

end AdminCall

abbrev AdminState : Type := Processes PanelStore AdminCall

abbrev AdminEvent : Type := ProcessEvent AdminRequest Generated Empty

/-- An update that takes the role away does not resume on the last active administrator with a record of
the account that was not one. -/
def Fresh (s : AdminState) : AdminEvent → Prop
  | .advance i _ =>
    match s.procs[i]? with
    | some (.pushing username update existing) => update.role = some "user" →
        ∀ user ∈ s.shared.accounts.getUser username,
          s.shared.accounts.last user = true → existing.activeAdmin = true
    | _ => True
  | _ => True

instance (s : AdminState) (event : AdminEvent) : Decidable (Fresh s event) := by
  unfold Fresh
  split <;> first | infer_instance | (split <;> infer_instance)

theorem administered_step_iff {s s' : AdminState} {event : AdminEvent} (h : s.shared.accounts.Administered)
    (hs : adminProgram.step s event = some s') : s'.shared.accounts.Administered ↔ Fresh s event := by
  cases event with
  | spawn request =>
    cases hs
    exact iff_of_true h trivial
  | advance i made =>
    obtain ⟨call, next, hcall, hact, rfl⟩ := Program.advance_eq_some hs
    simp only [Fresh, hcall]
    cases call with
    | entered request =>
      cases hact
      exact iff_of_true (AdminCall.administered_enter request h) trivial
    | pushing username update existing =>
      cases hact
      constructor
      · intro hadministered hrole user hread hlast
        by_contra hstale
        exact AdminCall.not_administered_finishUpdate hread hrole hlast (by simpa using hstale) hadministered
      · exact AdminCall.administered_finishUpdate h
    | ended code detail => cases hact
  | outside event => exact nomatch event

/-- Every run in which no update resumes stale keeps an active administrator. -/
theorem administered_of_fresh {s s' : AdminState} {events : List AdminEvent} (h : s.shared.accounts.Administered)
    (hm : RunMeets adminProgram.step Fresh s events) (hrun : run adminProgram.step s events = some s') :
    s'.shared.accounts.Administered := by
  have hstep (s : AdminState) (event : AdminEvent) (s' : AdminState) (h : s.shared.accounts.Administered)
      (hfresh : Fresh s event) (hs : adminProgram.step s event = some s') : s'.shared.accounts.Administered :=
    (administered_step_iff h hs).mpr hfresh
  exact run_invariant hstep h hm hrun

def smallPanel : AdminState where
  shared.accounts.rows := [{ accountId := "1", username := ['a'], role := .admin }, { accountId := "2", username := ['u'] }]
  shared.accounts.nodup := by decide
  procs := []

/-- Two administrators demote each other, both with credentials to push. -/
def mutualDemotion : List AdminEvent :=
  [.spawn (.updateUser ['u'] { role := some "admin" }), .advance 0 {},
    .spawn (.updateUser ['a'] { role := some "user", env := true }), .advance 1 {},
    .spawn (.updateUser ['u'] { role := some "user", env := true }), .advance 2 {}, .advance 1 {}, .advance 2 {}]

theorem administered_mutualDemotion : ∃ s', run adminProgram.step smallPanel mutualDemotion = some s' ∧
    s'.shared.accounts.Administered := by
  have hm : RunMeets adminProgram.step Fresh smallPanel mutualDemotion := by decide
  obtain ⟨s', hrun, -⟩ := exists_run_of_map adminProgram.step smallPanel mutualDemotion (fun _ => true)
    (by decide)
  exact ⟨s', hrun, administered_of_fresh (by decide) hm hrun⟩

/-- A demotion of a user waits for its push; meanwhile the user becomes the only administrator. -/
def staleDemotion : List AdminEvent :=
  [.spawn (.updateUser ['u'] { role := some "user", env := true }), .advance 0 {},
    .spawn (.updateUser ['u'] { role := some "admin" }), .advance 1 {},
    .spawn (.disableUser ['a'] ['u']), .advance 2 {}, .advance 0 {}]

theorem staleDemotion_not_administered : smallPanel.shared.accounts.Administered ∧
    ∃ s', run adminProgram.step smallPanel staleDemotion = some s' ∧ ¬ s'.shared.accounts.Administered := by
  refine ⟨by decide, ?_⟩
  obtain ⟨s', hrun, hnone⟩ := exists_run_of_map adminProgram.step smallPanel staleDemotion
    (fun s => decide (¬ s.shared.accounts.Administered)) (by decide)
  exact ⟨s', hrun, of_decide_eq_true hnone⟩

end PrivaCloud.ControlPanel
