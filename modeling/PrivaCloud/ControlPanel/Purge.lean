import PrivaCloud.ControlPanel.Provisioner

/-!
# The purge of an account

A tombstone is final as long as it is not written behind the back of a process that has decided something
from what it read before: to enable the account, to create its tenant, or to reap the row of an account
that has none.
-/

namespace PrivaCloud.ControlPanel

open Framework

namespace ControlPlane

variable (s : ControlPlane)

def status (id : String) : Option AccountStatus := (s.accounts.find? id).map UserRecord.status

def Alive (id : String) : Prop := ∃ user, s.accounts.find? id = some user ∧ user.status ≠ .purged

/-- The account is purged, or its row has been removed. -/
def Buried (id : String) : Prop :=
  id ∈ s.issued ∧ ∀ user, s.accounts.find? id = some user → user.status = .purged

/-- What the tables promise. -/
structure Sound : Prop where
  issued : ∀ user ∈ s.accounts.rows, user.accountId ∈ s.issued
  usernames : (s.accounts.rows.map UserRecord.username).Nodup

end ControlPlane

def TenantCall.Knows (s : ControlPlane) : TenantCall → Prop
  | .creating wanted _ _ _ => s.Alive wanted.accountId
  | .reaping accountId => s.Buried accountId ∧ s.hasTenant accountId = false
  | _ => True

/-- What a pass knows of an account that it has not reached yet. -/
def SyncLists.Knows (lists : SyncLists) (s : ControlPlane) (user : UserRecord) : Prop :=
  ∀ call, lists.plan user = .inr call → call.Knows s

def LifecycleCall.Knows (s : ControlPlane) : LifecycleCall → Prop
  | .specifying user _ | .defaulting user _ => s.Alive user.accountId
  | .guarding action _ _ => action ≠ .enable
  | .resolving .enable existing =>
    ∀ user, s.accounts.getUser existing.username = some user → user.status ≠ .purged
  | .writing .enable _ accountId => ∀ user, s.accounts.find? accountId = some user → user.status ≠ .purged
  | .requesting call _ _ => call.Knows s
  | .listingUsers lists => ∀ user ∈ s.accounts.rows, user.status = .purged →
      lists.tenant user.accountId ≠ none ∨ s.hasTenant user.accountId = false
  | .syncing lists _ call users => call.Knows s ∧ ∀ user ∈ users, lists.Knows s user
  | _ => True

def LifecycleCall.tombstone (call : LifecycleCall) (reply : CallReply) : Option String :=
  match call, reply with
  | .writing .delete _ _, .refused => none
  | .writing .delete _ accountId, _ => some accountId
  | _, _ => none

def TenantCall.expects (id : String) : TenantCall → Bool
  | .creating wanted _ _ _ => wanted.accountId = id
  | _ => false

/-- The process has decided something that does not hold of the account once it is purged: it is about to
enable it or to create its tenant, or it has listed the tenants without the one of the account. -/
def LifecycleCall.expects (s : ControlPlane) (id : String) : LifecycleCall → Bool
  | .specifying user _ | .defaulting user _ => user.accountId = id
  | .resolving .enable existing => (s.accounts.getUser existing.username).any (·.accountId = id)
  | .writing .enable _ accountId => accountId = id
  | .requesting call _ _ => call.expects id
  | .listingUsers lists => (lists.tenant id).isNone && s.hasTenant id
  | .syncing lists _ call users => call.expects id || users.any fun user =>
    match lists.plan user with
    | .inr call => call.expects id
    | .inl _ => false
  | _ => false

abbrev LifecycleState : Type := Processes ControlPlane LifecycleCall

abbrev LifecycleEvent : Type := ProcessEvent LifecycleRequest LifecycleInput LifecycleOutside

/-- No process counts on an account that is being purged. -/
def Timely (s : LifecycleState) : LifecycleEvent → Prop
  | .advance i input => ∀ call ∈ s.procs[i]?, ∀ id ∈ call.tombstone input.reply,
      ∀ other ∈ s.procs, other.expects s.shared id = false
  | .spawn _ | .outside _ => True

instance (s : LifecycleState) : (event : LifecycleEvent) → Decidable (Timely s event)
  | .advance i _ => inferInstanceAs (Decidable (∀ call ∈ s.procs[i]?, _))
  | .spawn _ | .outside _ => .isTrue trivial

/-- From an earlier state to a step of the run: a purged account does not become active again, a row goes
only when there is no tenant, and once it has gone no tenant is created. -/
structure PurgeFinal (earlier s s' : ControlPlane) (id : String) : Prop where
  tombstone : earlier.status id = some .purged → s'.status id ≠ some .active
  reaped : s.status id ≠ none → s'.status id = none → s.hasTenant id = false
  gone : earlier.status id ≠ none → s.status id = none → s.hasTenant id = false → s'.hasTenant id = false

instance (earlier s s' : ControlPlane) (id : String) : Decidable (PurgeFinal earlier s s' id) :=
  decidable_of_iff
    ((earlier.status id = some .purged → s'.status id ≠ some .active) ∧
      (s.status id ≠ none → s'.status id = none → s.hasTenant id = false) ∧
      (earlier.status id ≠ none → s.status id = none → s.hasTenant id = false → s'.hasTenant id = false))
    ⟨fun h => ⟨h.1, h.2.1, h.2.2⟩, fun h => ⟨h.tombstone, h.reaped, h.gone⟩⟩

/-- What a section keeps, which may purge one account. -/
structure Keeps (s s' : ControlPlane) (tomb : Option String) : Prop where
  issued : ∀ id ∈ s.issued, id ∈ s'.issued
  alive : ∀ id, tomb ≠ some id → s.Alive id → s'.Alive id
  buried : ∀ id, s.Buried id → s'.Buried id
  purged : ∀ id user', s'.accounts.find? id = some user' → user'.status = .purged →
    ∃ user, s.accounts.find? id = some user ∧ user.username = user'.username ∧
      (user.status = .purged ∨ tomb = some id)
  bare : ∀ id, s.Buried id ∨ tomb = some id → s.hasTenant id = false → s'.hasTenant id = false
  reaped : ∀ id user, s.accounts.find? id = some user → s'.accounts.find? id = none → s.hasTenant id = false

variable {user : UserRecord} {id : String}

section Keeps

variable {s s' : ControlPlane}

private theorem hasTenant_eq_true {name : String} : s.hasTenant name = true ↔ ∃ t ∈ s.tenants.rows, t.name = name := by
  rw [ControlPlane.hasTenant, Option.isSome_iff_exists]
  exact exists_congr fun _ => Table.find?_eq_some

private theorem Keeps.of_accounts (ha : s'.accounts = s.accounts) (hi : s'.issued = s.issued)
    (ht : ∀ id, s.Buried id → s.hasTenant id = false → s'.hasTenant id = false) : Keeps s s' none := by
  refine ⟨?_, ?_, ?_, ?_, ?_, ?_⟩
  · intro id hid
    rw [hi]
    exact hid
  · intro id _ halive
    rw [ControlPlane.Alive, ha]
    exact halive
  · intro id hburied
    rw [ControlPlane.Buried, ha, hi]
    exact hburied
  · intro id user' hfind hpurged
    rw [ha] at hfind
    exact ⟨user', hfind, rfl, .inl hpurged⟩
  · rintro id (hburied | htomb) hnone
    · exact ht id hburied hnone
    · cases htomb
  · intro id user hfind hgone
    rw [ha, hfind] at hgone
    cases hgone

private theorem Keeps.refl (s : ControlPlane) (tomb : Option String) : Keeps s s tomb := by
  refine ⟨fun _ h => h, fun _ _ h => h, fun _ h => h, ?_, fun _ _ h => h, ?_⟩
  · intro id user hfind hpurged
    exact ⟨user, hfind, rfl, .inl hpurged⟩
  · intro id user hfind hgone
    rw [hfind] at hgone
    cases hgone

private theorem find?_update (s : ControlPlane) (id : String) (fields : AccountFields) (k : String) :
    (s.update id fields).accounts.find? k =
      if k = id then (s.accounts.find? id).map fields.apply else s.accounts.find? k :=
  Table.find?_modify s.accounts id fields.apply (fun _ => rfl) k

/-- A write of an account that does not purge it, unless it is the tombstone, and does not revive it. -/
theorem keeps_update {fields : AccountFields} {tomb : Option String}
    (hstatus : ∀ user, s.accounts.find? id = some user → (fields.apply user).status = user.status ∨
      (user.status ≠ .purged ∧ (fields.apply user).status ≠ .purged) ∨
      (tomb = some id ∧ (fields.apply user).status = .purged)) :
    Keeps s (s.update id fields) tomb := by
  refine ⟨fun _ h => h, ?_, ?_, ?_, fun _ _ h => h, ?_⟩
  · rintro k hk ⟨user, hfind, hlive⟩
    by_cases hid : k = id
    · subst hid
      refine ⟨fields.apply user, ?_, ?_⟩
      · rw [find?_update, if_pos rfl, hfind]
        rfl
      · grind
    · refine ⟨user, ?_, hlive⟩
      rw [find?_update, if_neg hid]
      exact hfind
  · rintro k ⟨hissued, hpurged⟩
    refine ⟨hissued, ?_⟩
    intro user' hfind
    rw [find?_update] at hfind
    by_cases hid : k = id
    · subst hid
      rw [if_pos rfl] at hfind
      obtain ⟨user, hu, rfl⟩ := Option.map_eq_some_iff.mp hfind
      grind
    · rw [if_neg hid] at hfind
      exact hpurged user' hfind
  · intro k user' hfind hpurged
    rw [find?_update] at hfind
    by_cases hid : k = id
    · subst hid
      rw [if_pos rfl] at hfind
      obtain ⟨user, hu, rfl⟩ := Option.map_eq_some_iff.mp hfind
      rcases hstatus user hu with hsame | ⟨-, hnot⟩ | ⟨hself, -⟩
      · exact ⟨user, hu, rfl, .inl (hsame.symm.trans hpurged)⟩
      · exact absurd hpurged hnot
      · exact ⟨user, hu, rfl, .inr hself⟩
    · rw [if_neg hid] at hfind
      exact ⟨user', hfind, rfl, .inl hpurged⟩
  · intro k user hfind hgone
    rw [find?_update] at hgone
    grind

private theorem find?_reap (s : ControlPlane) (id k : String) :
    (s.reap id).accounts.find? k = if k = id then none else s.accounts.find? k := by
  rw [ControlPlane.reap, Table.find?_filter s.accounts (fun key => decide (key ≠ id)) k]
  by_cases h : k = id
  · simp [h]
  · simp [h]

private theorem keeps_reap (hburied : s.Buried id) (hbare : s.hasTenant id = false) :
    Keeps s (s.reap id) none := by
  refine ⟨fun _ h => h, ?_, ?_, ?_, fun _ _ h => h, ?_⟩
  · rintro k - ⟨user, hfind, hlive⟩
    have hk : k ≠ id := by
      rintro rfl
      exact hlive (hburied.2 user hfind)
    refine ⟨user, ?_, hlive⟩
    rw [find?_reap, if_neg hk]
    exact hfind
  · rintro k ⟨hissued, hpurged⟩
    refine ⟨hissued, ?_⟩
    intro user hfind
    rw [find?_reap] at hfind
    split at hfind
    · cases hfind
    · exact hpurged user hfind
  · intro k user' hfind hpurged
    rw [find?_reap] at hfind
    split at hfind
    · cases hfind
    · exact ⟨user', hfind, rfl, .inl hpurged⟩
  · intro k user hfind hgone
    rw [find?_reap] at hgone
    grind

private theorem insert_of_createUser {t t' : Accounts} (h : t.createUser user = some t') :
    t.insert user = some t' := by
  unfold Accounts.createUser at h
  split at h
  · cases h
  · exact h

private theorem keeps_createUser {accounts : Accounts} (hnew : user.accountId ∉ s.issued)
    (hlive : user.status ≠ .purged) (hw : s.accounts.createUser user = some accounts) :
    Keeps s { s with accounts := accounts, issued := user.accountId :: s.issued } none := by
  have hfind (k : String) : accounts.find? k = if user.accountId = k then some user else s.accounts.find? k :=
    Table.find?_insert (insert_of_createUser hw) k
  refine ⟨fun _ h => List.mem_cons_of_mem _ h, ?_, ?_, ?_, ?_, ?_⟩
  · rintro k - ⟨old, hold, hnot⟩
    by_cases hk : user.accountId = k
    · refine ⟨user, ?_, hlive⟩
      rw [hfind, if_pos hk]
    · refine ⟨old, ?_, hnot⟩
      rw [hfind, if_neg hk]
      exact hold
  · rintro k ⟨hissued, hpurged⟩
    refine ⟨List.mem_cons_of_mem _ hissued, ?_⟩
    have hk : user.accountId ≠ k := by
      rintro rfl
      exact hnew hissued
    intro old hold
    rw [hfind, if_neg hk] at hold
    exact hpurged old hold
  · grind
  · rintro k (hburied | htomb) hnone
    · exact hnone
    · cases htomb
  · grind

private theorem alive_createUser {accounts : Accounts} (hlive : user.status ≠ .purged)
    (hw : s.accounts.createUser user = some accounts) :
    ControlPlane.Alive { s with accounts := accounts, issued := user.accountId :: s.issued } user.accountId := by
  refine ⟨user, ?_, hlive⟩
  have hfind := Table.find?_insert (insert_of_createUser hw) user.accountId
  rw [if_pos rfl] at hfind
  exact hfind

private theorem hasTenant_modify {f : AgentTenant → AgentTenant} {hf : ∀ t, (f t).name = t.name} {name k : String} :
    ({ s with tenants := s.tenants.modify name f hf } : ControlPlane).hasTenant k = s.hasTenant k := by
  unfold ControlPlane.hasTenant
  rw [Table.find?_modify]
  by_cases hk : k = name
  · rw [if_pos hk, hk, Option.isSome_map]
  · rw [if_neg hk]

private theorem keeps_patch (name : String) (f : AgentTenantSpec → AgentTenantSpec) : Keeps s (s.patch name f) none :=
  Keeps.of_accounts rfl rfl fun _ _ h => hasTenant_modify.trans h

private theorem keeps_delete (name : String) : Keeps s (s.delete name) none :=
  Keeps.of_accounts rfl rfl fun _ _ h => hasTenant_modify.trans h

private theorem keeps_release (name : String) : Keeps s (s.release name) none := by
  refine Keeps.of_accounts rfl rfl ?_
  intro id _ hnone
  rw [← Bool.not_eq_true, hasTenant_eq_true] at hnone ⊢
  rintro ⟨t, ht, hname⟩
  exact hnone ⟨t, List.mem_of_mem_filter ht, hname⟩

private theorem keeps_create {t : AgentTenant} {tenants : Table AgentTenant.name} (halive : s.Alive t.name)
    (hw : s.tenants.insert t = some tenants) : Keeps s { s with tenants := tenants } none := by
  refine Keeps.of_accounts rfl rfl ?_
  intro id hburied hnone
  have hid : t.name ≠ id := by
    rintro rfl
    obtain ⟨user, hfind, hlive⟩ := halive
    exact hlive (hburied.2 user hfind)
  rw [ControlPlane.hasTenant, Table.find?_insert hw, if_neg hid]
  exact hnone

end Keeps

section Sound

variable {s : ControlPlane}

private theorem sound_of_accounts {s' : ControlPlane} (h : s.Sound) (ha : s'.accounts = s.accounts)
    (hi : s'.issued = s.issued) : s'.Sound := by
  refine ⟨?_, ?_⟩
  · rw [ha, hi]
    exact h.issued
  · rw [ha]
    exact h.usernames

private theorem sound_update (h : s.Sound) (id : String) (fields : AccountFields) : (s.update id fields).Sound := by
  refine ⟨?_, ?_⟩
  · intro user hu
    obtain ⟨old, hold, rfl⟩ := List.mem_map.mp hu
    split
    · exact h.issued old hold
    · exact h.issued old hold
  · have hnames : (s.update id fields).accounts.rows.map UserRecord.username =
        s.accounts.rows.map UserRecord.username := by
      unfold ControlPlane.update Table.modify
      rw [List.map_map]
      apply List.map_congr_left
      intro user _
      simp only [Function.comp_apply]
      split
      · rfl
      · rfl
    rw [hnames]
    exact h.usernames

private theorem sound_reap (h : s.Sound) (id : String) : (s.reap id).Sound := by
  refine ⟨?_, ?_⟩
  · intro user hu
    exact h.issued user (List.mem_of_mem_filter hu)
  · exact h.usernames.sublist (List.Sublist.map _ List.filter_sublist)

private theorem sound_createUser {accounts : Accounts} (h : s.Sound)
    (hw : s.accounts.createUser user = some accounts) :
    ({ s with accounts := accounts, issued := user.accountId :: s.issued } : ControlPlane).Sound := by
  unfold Accounts.createUser at hw
  split at hw
  · cases hw
  · rename_i hfree
    have hrows := Table.insert_rows hw
    refine ⟨?_, ?_⟩
    · intro old hold
      rw [hrows] at hold
      rcases List.mem_append.mp hold with hold | hold
      · exact List.mem_cons_of_mem _ (h.issued old hold)
      · rw [List.mem_singleton.mp hold]
        exact List.mem_cons_self
    · rw [hrows, List.map_append]
      refine List.nodup_append.mpr ⟨h.usernames, List.nodup_singleton _, ?_⟩
      intro name hname name' hname' heq
      obtain ⟨old, hold, rfl⟩ := List.mem_map.mp hname
      have hother := List.find?_eq_none.mp hfree old hold
      rw [List.mem_singleton.mp hname'] at heq
      exact hother (decide_eq_true heq)

private theorem getUser_of_mem (h : s.Sound) (hu : user ∈ s.accounts.rows) :
    s.accounts.getUser user.username = some user := by
  cases hfind : s.accounts.getUser user.username with
  | none => exact absurd (decide_eq_true rfl) (List.find?_eq_none.mp hfind user hu)
  | some other =>
    have hsame := Accounts.getUser_username hfind
    rw [List.inj_on_of_nodup_map h.usernames (Accounts.mem_of_getUser hfind) hu hsame]

end Sound

section Transfer

variable {s s' : ControlPlane} {tomb : Option String}

private theorem TenantCall.Knows.keeps {call : TenantCall} (h : call.Knows s) (hkeeps : Keeps s s' tomb)
    (hfree : ∀ id, tomb = some id → call.expects id = false) : call.Knows s' := by
  cases call with
  | creating wanted status runnerType resources =>
    refine hkeeps.alive _ ?_ h
    intro htomb
    have hexpects := hfree _ htomb
    simp [TenantCall.expects] at hexpects
  | reaping accountId => exact ⟨hkeeps.buried _ h.1, hkeeps.bare _ (.inl h.1) h.2⟩
  | deleting accountId => trivial
  | reading wanted tally converge => trivial
  | patching wanted tally converge => trivial
  | converging accountId desired => trivial
  | adjusting accountId runnerType resources => trivial

private theorem unpurged_of_keeps (hkeeps : Keeps s s' tomb) (htomb : tomb ≠ some id)
    (h : ∀ user, s.accounts.find? id = some user → user.status ≠ .purged) :
    ∀ user', s'.accounts.find? id = some user' → user'.status ≠ .purged := by
  intro user' hfind hpurged
  obtain ⟨user, hold, -, hwas | hself⟩ := hkeeps.purged id user' hfind hpurged
  · exact h user hold hwas
  · exact htomb hself

private theorem unpurgedName_of_keeps (hs : s.Sound) (hkeeps : Keeps s s' tomb) {username : Text}
    (htomb : ∀ id, tomb = some id → (s.accounts.getUser username).any (·.accountId = id) = false)
    (h : ∀ user, s.accounts.getUser username = some user → user.status ≠ .purged) :
    ∀ user', s'.accounts.getUser username = some user' → user'.status ≠ .purged := by
  intro user' hfind hpurged
  have hname := Accounts.getUser_username hfind
  have hkey := Table.find?_of_mem (Accounts.mem_of_getUser hfind)
  obtain ⟨user, hold, hsame, hcase⟩ := hkeeps.purged user'.accountId user' hkey hpurged
  have hget := getUser_of_mem hs (Table.mem_of_find? hold)
  rw [hsame, hname] at hget
  rcases hcase with hwas | hself
  · exact h user hget hwas
  · have hother := htomb _ hself
    simp [hget, Table.key_of_find? hold] at hother

private theorem LifecycleCall.Knows.keeps {call : LifecycleCall} (hs : s.Sound) (h : call.Knows s)
    (hkeeps : Keeps s s' tomb) (hfree : ∀ id, tomb = some id → call.expects s id = false) : call.Knows s' := by
  cases call with
  | specifying user resources =>
    refine hkeeps.alive _ ?_ h
    intro htomb
    simpa [LifecycleCall.expects] using hfree _ htomb
  | defaulting user resources =>
    refine hkeeps.alive _ ?_ h
    intro htomb
    simpa [LifecycleCall.expects] using hfree _ htomb
  | guarding action existing again => exact h
  | resolving action existing =>
    cases action with
    | enable => exact unpurgedName_of_keeps hs hkeeps hfree h
    | delete => trivial
    | update body resources => trivial
  | writing action existing accountId =>
    cases action with
    | enable =>
      refine unpurged_of_keeps hkeeps ?_ h
      intro htomb
      simpa [LifecycleCall.expects] using hfree _ htomb
    | delete => trivial
    | update body resources => trivial
  | requesting call code failed => exact TenantCall.Knows.keeps h hkeeps hfree
  | listingUsers lists =>
    intro user' hmem' hpurged
    obtain ⟨user, hold, -, hcase⟩ := hkeeps.purged _ user' (Table.find?_of_mem hmem') hpurged
    have hkey := Table.key_of_find? hold
    have hmem := Table.mem_of_find? hold
    rw [← hkey] at hcase ⊢
    rcases hcase with hwas | hself
    · rcases h user hmem hwas with hlisted | hbare
      · exact .inl hlisted
      · refine .inr (hkeeps.bare _ (.inl ⟨hs.issued user hmem, ?_⟩) hbare)
        intro other hother
        rw [hkey, hold] at hother
        cases hother
        exact hwas
    · have hfree := hfree _ hself
      simp only [LifecycleCall.expects, Bool.and_eq_false_iff] at hfree
      rcases hfree with hlisted | hbare
      · left
        intro hnone
        rw [hnone] at hlisted
        cases hlisted
      · exact .inr (hkeeps.bare _ (.inr hself) hbare)
  | syncing lists tallies call users =>
    have hfree' (id : String) (htomb : tomb = some id) := Bool.or_eq_false_iff.mp (hfree id htomb)
    refine ⟨h.1.keeps hkeeps fun id htomb => (hfree' id htomb).1, ?_⟩
    intro user hu next hplan
    refine (h.2 user hu next hplan).keeps hkeeps ?_
    intro id htomb
    have hnone := List.any_eq_false.mp (hfree' id htomb).2 user hu
    rw [hplan] at hnone
    simpa using hnone
  | creatingUser new => trivial
  | looking action username => trivial
  | setting accountId runnerType resources => trivial
  | readingDefaults => trivial
  | listingResources defaults => trivial
  | listingTenants defaults resources => trivial
  | synced tallies => trivial
  | ended code detail => trivial

end Transfer

section Act

variable {s : ControlPlane}

private theorem settle_cases {σ : Type} (reply : CallReply) (before after : σ) :
    reply.settle before after = before ∨ reply.settle before after = after := by
  cases reply with
  | refused => exact .inl rfl
  | answered => exact .inr rfl
  | lost => exact .inr rfl

/-- The state of a section is sound, and it keeps what it has to. -/
structure Moves (s s' : ControlPlane) (tomb : Option String) : Prop where
  sound : s'.Sound
  keeps : Keeps s s' tomb

private theorem Moves.refl (hs : s.Sound) (tomb : Option String) : Moves s s tomb := ⟨hs, Keeps.refl s tomb⟩

private theorem Moves.settle {after : ControlPlane} (hs : s.Sound) (h : Moves s after none) (reply : CallReply) :
    Moves s (reply.settle s after) none := by
  rcases settle_cases reply s after with hsame | hafter
  · rw [hsame]
    exact Moves.refl hs _
  · rw [hafter]
    exact h

private theorem moves_specs (hs : s.Sound) (specs : List (String × ResourceSpec)) :
    Moves s { s with resourceSpecs := specs } none :=
  ⟨sound_of_accounts hs rfl rfl, Keeps.of_accounts rfl rfl fun _ _ h => h⟩

private theorem moves_patch (hs : s.Sound) (name : String) (f : AgentTenantSpec → AgentTenantSpec) :
    Moves s (s.patch name f) none :=
  ⟨sound_of_accounts hs rfl rfl, keeps_patch name f⟩

private theorem exec_moves {call : TenantCall} (hs : s.Sound) (h : call.Knows s) (reply : CallReply) :
    Moves s (call.exec s reply).1 none := by
  cases call with
  | deleting accountId =>
    have hdelete : Moves s (s.delete accountId) none := ⟨sound_of_accounts hs rfl rfl, keeps_delete accountId⟩
    exact hdelete.settle hs reply
  | reaping accountId => exact Moves.settle hs ⟨sound_reap hs accountId, keeps_reap h.1 h.2⟩ reply
  | creating wanted status runnerType resources =>
    simp only [TenantCall.exec]
    cases hw : s.tenants.insert (wanted.manifest status runnerType resources) with
    | none => exact Moves.refl hs _
    | some tenants =>
      have hcreate : Moves s { s with tenants := tenants } none :=
        ⟨sound_of_accounts hs rfl rfl, keeps_create (t := wanted.manifest status runnerType resources) h hw⟩
      exact hcreate.settle hs reply
  | reading wanted tally converge =>
    have hsame : ((TenantCall.reading wanted tally converge).exec s reply).1 = s := by
      simp only [TenantCall.exec]
      repeat' split
      all_goals rfl
    rw [hsame]
    exact Moves.refl hs _
  | patching wanted tally converge => exact Moves.settle hs (moves_patch hs _ _) reply
  | converging accountId desired => exact Moves.settle hs (moves_patch hs _ _) reply
  | adjusting accountId runnerType resources => exact Moves.settle hs (moves_patch hs _ _) reply

private theorem repaired_call {wanted : Wanted} {tally : Tally} {converge : Option DesiredState} {next : TenantCall}
    (h : TenantCall.repaired wanted tally converge = .call next) (s : ControlPlane) : next.Knows s := by
  cases converge with
  | none => cases h
  | some desired =>
    cases h
    trivial

private theorem exec_next {call next : TenantCall} {reply : CallReply} (h : (call.exec s reply).2 = .call next)
    (s' : ControlPlane) : next.Knows s' := by
  cases call with
  | creating wanted status runnerType resources =>
    simp only [TenantCall.exec] at h
    split at h
    · split at h <;> cases h
      trivial
    · split at h
      · cases h
      · cases h
  | reading wanted tally converge =>
    simp only [TenantCall.exec] at h
    split at h
    · split at h
      · cases h
      · split at h
        · cases h
        · split at h
          · exact repaired_call h s'
          · cases h
            trivial
    · cases h
  | patching wanted tally converge =>
    simp only [TenantCall.exec] at h
    split at h
    · exact repaired_call h s'
    · cases h
  | deleting accountId =>
    simp only [TenantCall.exec] at h
    split at h
    · cases h
    · cases h
  | reaping accountId =>
    simp only [TenantCall.exec] at h
    split at h
    · cases h
    · cases h
  | converging accountId desired =>
    simp only [TenantCall.exec] at h
    split at h
    · cases h
    · cases h
  | adjusting accountId runnerType resources =>
    simp only [TenantCall.exec] at h
    split at h
    · cases h
    · cases h

namespace LifecycleCall

private theorem knows_seek {lists : SyncLists} {users : List UserRecord} (h : ∀ user ∈ users, lists.Knows s user)
    (tallies : List Tally) : (seek lists tallies users).Knows s := by
  induction users generalizing tallies with
  | nil => trivial
  | cons user users ih =>
    have hrest (other : UserRecord) (hmem : other ∈ users) : lists.Knows s other :=
      h other (List.mem_cons_of_mem _ hmem)
    unfold seek
    cases hplan : lists.plan user with
    | inl tally => exact ih hrest (tallies ++ [tally])
    | inr call => exact ⟨h user List.mem_cons_self call hplan, hrest⟩

private theorem knows_proceed {lists : SyncLists} {users : List UserRecord} {call : TenantCall} {next : TenantNext}
    (hcall : ∀ c, next = .call c → c.Knows s) (h : ∀ user ∈ users, lists.Knows s user) (tallies : List Tally) :
    (proceed lists tallies call users next).Knows s := by
  cases next with
  | call next => exact ⟨hcall next rfl, h⟩
  | done tally => exact knows_seek h (tallies ++ [tally])
  | raised =>
    simp only [proceed]
    split
    · exact knows_seek h (tallies ++ [.skipped])
    · trivial

end LifecycleCall

/-- What the list of the accounts says of each, if every purged one without a listed tenant has none. -/
theorem lists_knows (hs : s.Sound) {lists : SyncLists} (h : (LifecycleCall.listingUsers lists).Knows s)
    (hu : user ∈ s.accounts.rows) : lists.Knows s user := by
  intro call hplan
  have hfind := Table.find?_of_mem hu
  unfold SyncLists.plan at hplan
  dsimp only at hplan
  split at hplan
  · cases hplan
  · split at hplan
    · rename_i hpurged
      split at hplan
      · cases hplan
        trivial
      · rename_i hunlisted
        cases hplan
        refine ⟨⟨hs.issued user hu, ?_⟩, ?_⟩
        · intro other hother
          rw [hfind] at hother
          cases hother
          exact hpurged
        · rcases h user hu hpurged with hlisted | hbare
          · exact absurd hunlisted hlisted
          · exact hbare
    · rename_i hlive
      split at hplan
      · split at hplan
        · split at hplan <;> cases hplan
          trivial
        · cases hplan
          trivial
      · split at hplan <;> cases hplan
        exact ⟨user, hfind, hlive⟩

namespace LifecycleCall

variable {call next : LifecycleCall} {reply : CallReply} {r : ControlPlane × LifecycleCall}

private theorem answer_spec (hs : s.Sound) (hnext : next.Knows s) (h : answer s reply next = some r) :
    Moves s r.1 none ∧ r.2.Knows r.1 := by
  cases h
  refine ⟨Moves.refl hs _, ?_⟩
  dsimp only
  split
  · exact hnext
  · trivial

private theorem settle_spec {after : ControlPlane} {tomb : Option String} (hs : s.Sound) (hmoves : Moves s after tomb)
    (hrefused : reply = .refused → tomb = none) (hnext : next.Knows after) (h : settle s after reply next = some r) :
    Moves s r.1 tomb ∧ r.2.Knows r.1 := by
  cases h
  cases reply with
  | answered => exact ⟨hmoves, hnext⟩
  | lost => exact ⟨hmoves, trivial⟩
  | refused =>
    rw [hrefused rfl]
    exact ⟨Moves.refl hs _, trivial⟩

variable {action : AccountAction}

private theorem knows_validated (hnext : next.Knows s) : (validated action next).Knows s := by
  unfold validated
  split
  · split
    · trivial
    · exact hnext
  · exact hnext
  · exact hnext

private theorem knows_looked {username : Text} {existing : UserRecord}
    (hread : s.accounts.getUser username = some existing) : (looked action existing).Knows s := by
  unfold looked
  split
  · trivial
  · rename_i hpurged
    split
    · rename_i hguards
      rintro rfl
      cases hguards
    · apply knows_validated
      cases action with
      | delete => trivial
      | update body resources => trivial
      | enable =>
        intro user huser
        rw [Accounts.getUser_username hread, hread] at huser
        cases huser
        exact fun hwas => hpurged ⟨rfl, hwas⟩

private theorem knows_guarded (haction : action ≠ .enable) (existing : UserRecord) (again : Bool) :
    (guarded action existing again).Knows s := by
  cases action with
  | enable => exact absurd rfl haction
  | delete => trivial
  | update body resources =>
    cases again with
    | true => trivial
    | false =>
      simp only [guarded]
      apply knows_validated
      rintro ⟨⟩

private theorem knows_requested {code failed : Nat} {next : TenantNext} (h : ∀ call, next = .call call → call.Knows s) :
    (requested code failed next).Knows s := by
  cases next with
  | call next => exact h next rfl
  | done tally => trivial
  | raised => trivial

private theorem knows_written (action : AccountAction) (existing : UserRecord) (accountId : String) (s : ControlPlane) :
    (written action existing accountId).Knows s := by
  cases action with
  | delete => trivial
  | enable => trivial
  | update body resources =>
    simp only [written]
    split
    · trivial
    · split
      · trivial
      · trivial

/-- The write of an account: a tombstone, an account that is not purged, or columns beside the status. -/
theorem writing_moves {existing : UserRecord} {accountId : String} {made : Generated}
    {fields : AccountFields} (hs : s.Sound) (hknows : (writing action existing accountId).Knows s)
    (hfields : action.fields existing made = some fields) (heffect : reply ≠ .refused) :
    Moves s (s.update accountId fields) ((writing action existing accountId).tombstone reply) := by
  refine ⟨sound_update hs accountId fields, ?_⟩
  apply keeps_update
  intro user hfind
  cases action with
  | delete =>
    cases hfields
    right
    right
    cases reply with
    | refused => exact absurd rfl heffect
    | answered => exact ⟨rfl, rfl⟩
    | lost => exact ⟨rfl, rfl⟩
  | enable =>
    cases hfields
    right
    left
    exact ⟨hknows user hfind, by simp [AccountFields.apply]⟩
  | update body resources =>
    left
    have hwrites : body.fields existing made = some fields := hfields
    have hstatus := (fields_role hwrites).2
    simp [AccountFields.apply, hstatus]

private theorem act_spec {input : LifecycleInput} (hs : s.Sound) (hknows : call.Knows s)
    (h : act s call input = some r) : Moves s r.1 (call.tombstone input.reply) ∧ r.2.Knows r.1 := by
  cases call with
  | creatingUser new =>
    simp only [act] at h
    split at h
    · cases h
    · rename_i hfresh
      split at h
      · exact answer_spec hs (by trivial) h
      · rename_i accounts hw
        have hnew : input.made.accountId ∉ s.issued := fun hin => hfresh (.inl hin)
        have hmoves : Moves s { s with accounts := accounts, issued := input.made.accountId :: s.issued } none :=
          ⟨sound_createUser hs hw, keeps_createUser hnew (by rintro ⟨⟩) hw⟩
        refine settle_spec hs hmoves (fun _ => rfl) ?_ h
        have halive := alive_createUser (s := s) (by rintro ⟨⟩) hw
        split
        · exact halive
        · exact halive
  | specifying user resources =>
    refine settle_spec hs (moves_specs hs _) (fun _ => rfl) ?_ h
    exact hknows
  | defaulting user resources =>
    refine answer_spec hs ?_ h
    exact hknows
  | looking action username =>
    refine answer_spec hs ?_ h
    split
    · trivial
    · rename_i existing hread
      exact knows_looked hread
  | guarding action existing again =>
    refine answer_spec hs ?_ h
    split
    · trivial
    · exact knows_guarded hknows existing again
  | resolving action existing =>
    refine answer_spec hs ?_ h
    split
    · trivial
    · rename_i rec hread
      cases action with
      | delete => trivial
      | update body resources => trivial
      | enable =>
        intro user huser
        rw [Table.find?_of_mem (Accounts.mem_of_getUser hread)] at huser
        cases huser
        exact hknows rec hread
  | writing action existing accountId =>
    simp only [act] at h
    split at h
    · rename_i user fields hfind hfields
      by_cases heffect : input.reply = .refused
      · cases h
        rw [heffect]
        cases action with
        | delete => exact ⟨Moves.refl hs _, trivial⟩
        | enable => exact ⟨Moves.refl hs _, trivial⟩
        | update body resources => exact ⟨Moves.refl hs _, trivial⟩
      · exact settle_spec hs (writing_moves hs hknows hfields heffect) (fun hrefused => absurd hrefused heffect)
          (knows_written action existing accountId _) h
    · cases h
      refine ⟨Moves.refl hs _, ?_⟩
      dsimp only
      split
      · trivial
      · trivial
  | setting accountId runnerType resources =>
    refine settle_spec hs (moves_specs hs _) (fun _ => rfl) ?_ h
    trivial
  | requesting call code failed =>
    cases h
    exact ⟨exec_moves hs hknows input.reply, knows_requested (fun next hnext => exec_next hnext _)⟩
  | readingDefaults => exact answer_spec hs (by trivial) h
  | listingResources defaults => exact answer_spec hs (by trivial) h
  | listingTenants defaults resources =>
    refine answer_spec hs ?_ h
    intro user _ _
    cases hfind : s.tenants.find? user.accountId with
    | none =>
      right
      rw [ControlPlane.hasTenant, hfind]
      rfl
    | some tenant =>
      left
      intro hnone
      have hlisted : s.tenants.find? user.accountId = none := hnone
      rw [hfind] at hlisted
      cases hlisted
  | listingUsers lists => exact answer_spec hs (knows_seek (fun user hu => lists_knows hs hknows hu) []) h
  | syncing lists tallies call users =>
    cases h
    have hmoves := exec_moves hs hknows.1 input.reply
    refine ⟨hmoves, ?_⟩
    apply knows_proceed
    · exact fun next hnext => exec_next hnext _
    · intro user hu next hplan
      exact (hknows.2 user hu next hplan).keeps hmoves.keeps (by rintro _ ⟨⟩)
  | synced tallies => cases h
  | ended code detail => cases h

end LifecycleCall

end Act

/-- What holds between the sections. -/
abbrev Settled (s : LifecycleState) : Prop :=
  Program.Holds ControlPlane.Sound (fun shared call => LifecycleCall.Knows shared call) s

private theorem lifecycle_step {s s' : LifecycleState} {event : LifecycleEvent} (hi : Settled s) (hc : Timely s event)
    (hs : lifecycleProgram.step s event = some s') :
    Settled s' ∧ ∃ tomb, Keeps s.shared s'.shared tomb := by
  constructor
  · refine hi.step Timely event hc ?_ ?_ ?_ hs
    · intro s request _ _
      cases request with
      | createUser new => trivial
      | deleteUser username current =>
        simp only [lifecycleProgram, LifecycleCall.enter]
        split
        · trivial
        · trivial
      | enableUser username => trivial
      | updateUser username update resources => trivial
      | syncAllTenants defaults =>
        cases defaults with
        | none => trivial
        | some defaults => trivial
    · intro s i input call r hi hc hcall hact
      obtain ⟨hmoves, hknows⟩ := LifecycleCall.act_spec hi.1 (hi.2 call (List.mem_of_getElem? hcall)) hact
      refine ⟨hmoves.sound, hknows, ?_⟩
      intro j other _ hother hknows'
      refine hknows'.keeps hi.1 hmoves.keeps ?_
      intro id htomb
      exact hc call hcall id htomb other (List.mem_of_getElem? hother)
    · intro s event shared hi _ ho
      have hmoves : Moves s.shared shared none := by
        cases event with
        | release name =>
          cases ho
          exact ⟨sound_of_accounts hi.1 rfl rfl, keeps_release name⟩
        | setDefaults defaults =>
          cases ho
          exact ⟨sound_of_accounts hi.1 rfl rfl, Keeps.of_accounts rfl rfl fun _ _ h => h⟩
      exact ⟨hmoves.sound, fun other _ hknows => hknows.keeps hi.1 hmoves.keeps (by rintro _ ⟨⟩)⟩
  · cases event with
    | spawn request =>
      cases hs
      exact ⟨none, Keeps.refl _ _⟩
    | advance i input =>
      obtain ⟨call, r, hcall, hact, rfl⟩ := Program.advance_eq_some hs
      exact ⟨_, (LifecycleCall.act_spec hi.1 (hi.2 call (List.mem_of_getElem? hcall)) hact).1.keeps⟩
    | outside event =>
      obtain ⟨shared, ho, rfl⟩ := Program.outside_eq_some hs
      cases event with
      | release name =>
        cases ho
        exact ⟨none, keeps_release name⟩
      | setDefaults defaults =>
        cases ho
        exact ⟨none, Keeps.of_accounts rfl rfl fun _ _ h => h⟩

/-- What is buried stays buried, and no id is given twice. -/
def Buries (s s' : LifecycleState) : Prop :=
  ∀ id, (s.shared.Buried id → s'.shared.Buried id) ∧ (id ∈ s.shared.issued → id ∈ s'.shared.issued)

private theorem buries_run {s s' : LifecycleState} {events : List LifecycleEvent} (hi : Settled s)
    (hm : RunMeets lifecycleProgram.step Timely s events) (hrun : run lifecycleProgram.step s events = some s') :
    Settled s' ∧ Buries s s' := by
  refine ⟨run_invariant (fun _ _ _ hi hc hs => (lifecycle_step hi hc hs).1) hi hm hrun, ?_⟩
  have hrefl (s : LifecycleState) : Buries s s := fun _ => ⟨id, id⟩
  have htrans (s t u : LifecycleState) (h : Buries s t) (h' : Buries t u) : Buries s u :=
    fun id => ⟨(h' id).1 ∘ (h id).1, (h' id).2 ∘ (h id).2⟩
  have hstep (s : LifecycleState) (event : LifecycleEvent) (s' : LifecycleState) (hi : Settled s)
      (hc : Timely s event) (hs : lifecycleProgram.step s event = some s') : Settled s' ∧ Buries s s' := by
    obtain ⟨hi', tomb, hkeeps⟩ := lifecycle_step hi hc hs
    exact ⟨hi', fun id => ⟨hkeeps.buried id, hkeeps.issued id⟩⟩
  exact run_relation hrefl htrans hstep hi hm hrun

/-- In every run with timely tombstones a purge is final. -/
theorem purgeFinal_of_timely {start earlier s s' : LifecycleState} {past events : List LifecycleEvent}
    {event : LifecycleEvent} (hidle : start.procs = []) (hsound : start.shared.Sound)
    (hm : RunMeets lifecycleProgram.step Timely start (past ++ (events ++ [event])))
    (hpast : run lifecycleProgram.step start past = some earlier)
    (hrun : run lifecycleProgram.step earlier events = some s)
    (hs : lifecycleProgram.step s event = some s') (id : String) :
    PurgeFinal earlier.shared s.shared s'.shared id := by
  have hstart : Settled start := by
    refine ⟨hsound, ?_⟩
    rw [hidle]
    simp
  obtain ⟨hmpast, hmrest⟩ := hm.split hpast
  obtain ⟨hmevents, hmevent⟩ := hmrest.split hrun
  obtain ⟨hearlier, -⟩ := buries_run hstart hmpast hpast
  obtain ⟨hs', hburies⟩ := buries_run hearlier hmevents hrun
  obtain ⟨-, tomb, hkeeps⟩ := lifecycle_step hs' hmevent.1 hs
  refine ⟨?_, ?_, ?_⟩
  · intro hpurged hactive
    obtain ⟨user, hfind, hstatus⟩ := Option.map_eq_some_iff.mp hpurged
    have hburied : earlier.shared.Buried id := by
      refine ⟨?_, ?_⟩
      · rw [← Table.key_of_find? hfind]
        exact hearlier.1.issued user (Table.mem_of_find? hfind)
      · intro other hother
        rw [hfind] at hother
        cases hother
        exact hstatus
    obtain ⟨user', hfind', hstatus'⟩ := Option.map_eq_some_iff.mp hactive
    have hstill := (hkeeps.buried id ((hburies id).1 hburied)).2 user' hfind'
    rw [hstill] at hstatus'
    cases hstatus'
  · intro hthere hgone
    obtain ⟨status, hstatus⟩ := Option.ne_none_iff_exists'.mp hthere
    obtain ⟨user, hfind, -⟩ := Option.map_eq_some_iff.mp hstatus
    exact hkeeps.reaped id user hfind (Option.map_eq_none_iff.mp hgone)
  · intro hthere hgone hbare
    obtain ⟨status, hstatus⟩ := Option.ne_none_iff_exists'.mp hthere
    obtain ⟨user, hfind, -⟩ := Option.map_eq_some_iff.mp hstatus
    have hissued := hearlier.1.issued user (Table.mem_of_find? hfind)
    rw [Table.key_of_find? hfind] at hissued
    refine hkeeps.bare id (.inl ⟨(hburies id).2 hissued, ?_⟩) hbare
    intro other hother
    rw [Option.map_eq_none_iff.mp hgone] at hother
    cases hother

/-- An administrator with a tenant, and a user without one. -/
def smallPlane : ControlPlane where
  accounts.rows := [{ accountId := "1", username := ['a'], role := .admin }, { accountId := "2", username := ['b'] }]
  accounts.nodup := by decide
  tenants.rows := [Wanted.manifest ⟨"1", ['a'], {}⟩ .active .autoScale {}]
  issued := ["1", "2"]

def advances (i : Nat) (n : Nat) : List LifecycleEvent := List.replicate n (.advance i {})

def provisioned : List LifecycleEvent := .spawn (.syncAllTenants none) :: advances 0 5

/-- The user is deleted, and enabled in vain; the operator releases the tenant, and a pass reaps the row. -/
def offboarded : List LifecycleEvent :=
  .spawn (.deleteUser ['b'] ['a']) :: advances 1 4 ++
    .spawn (.enableUser ['b']) :: advances 2 1 ++ .outside (.release "2") ::
    .spawn (.syncAllTenants (some {})) :: advances 3 3

theorem purgeFinal_offboarded :
    (∃ s', run lifecycleProgram.step ⟨smallPlane, []⟩ (provisioned ++ (offboarded ++ [.advance 3 {}])) = some s' ∧
      s'.shared.status "2" = none) ∧
    RunMeets lifecycleProgram.step Timely ⟨smallPlane, []⟩ (provisioned ++ (offboarded ++ [.advance 3 {}])) ∧
    ∀ earlier s s', run lifecycleProgram.step ⟨smallPlane, []⟩ provisioned = some earlier →
      run lifecycleProgram.step earlier offboarded = some s →
      lifecycleProgram.step s (.advance 3 {}) = some s' →
      PurgeFinal earlier.shared s.shared s'.shared "2" := by
  have hm : RunMeets lifecycleProgram.step Timely ⟨smallPlane, []⟩
      (provisioned ++ (offboarded ++ [.advance 3 {}])) := by decide
  refine ⟨?_, hm, ?_⟩
  · obtain ⟨s', hrun, hnone⟩ := exists_run_of_map lifecycleProgram.step ⟨smallPlane, []⟩
      (provisioned ++ (offboarded ++ [.advance 3 {}])) (fun s => decide (s.shared.status "2" = none))
      (by decide)
    exact ⟨s', hrun, of_decide_eq_true hnone⟩
  · intro earlier s s' hpast hrun hs
    exact purgeFinal_of_timely rfl ⟨by decide, by decide⟩ hm hpast hrun hs "2"

def Unfinal (past events : List LifecycleEvent) (event : LifecycleEvent) (id : String) : Prop :=
  ∃ earlier s s', run lifecycleProgram.step ⟨smallPlane, []⟩ past = some earlier ∧
    run lifecycleProgram.step earlier events = some s ∧ lifecycleProgram.step s event = some s' ∧
    ¬ PurgeFinal earlier.shared s.shared s'.shared id

private theorem unfinal_of_eq_false {past events : List LifecycleEvent} {event : LifecycleEvent}
    (h : ((run lifecycleProgram.step ⟨smallPlane, []⟩ past).bind fun earlier =>
      (run lifecycleProgram.step earlier events).bind fun s =>
        (lifecycleProgram.step s event).map fun s' =>
          decide (PurgeFinal earlier.shared s.shared s'.shared id)) = some false) : Unfinal past events event id := by
  obtain ⟨earlier, hpast, h⟩ := Option.bind_eq_some_iff.mp h
  obtain ⟨s, hrun, h⟩ := Option.bind_eq_some_iff.mp h
  obtain ⟨s', hs, hfinal⟩ := Option.map_eq_some_iff.mp h
  exact ⟨earlier, s, s', hpast, hrun, hs, of_decide_eq_false hfinal⟩

/-- The user is purged between the check of `enable_user` and its write. -/
def resurrected : List LifecycleEvent :=
  .spawn (.enableUser ['b']) :: advances 0 2 ++ .spawn (.deleteUser ['b'] ['a']) :: advances 1 3

/-- The user is purged between the two lists of a pass, after another pass has made the tenant. -/
def reapedEarly : List LifecycleEvent :=
  .spawn (.syncAllTenants none) :: advances 0 3 ++ .spawn (.syncAllTenants none) :: advances 1 5 ++
    .spawn (.deleteUser ['b'] ['a']) :: advances 2 3 ++ advances 0 1

/-- The user is purged, and reaped by another pass, while a pass is about to make the tenant. -/
def orphaned : List LifecycleEvent :=
  .spawn (.syncAllTenants none) :: advances 0 4 ++ .spawn (.deleteUser ['b'] ['a']) :: advances 1 4 ++
    .spawn (.syncAllTenants none) :: advances 2 5

theorem untimelyTombstones_not_final : Unfinal resurrected [] (.advance 0 {}) "2" ∧
    Unfinal reapedEarly [] (.advance 0 {}) "2" ∧ Unfinal [] orphaned (.advance 0 {}) "2" := by
  refine ⟨?_, ?_, ?_⟩
  · exact unfinal_of_eq_false (by decide)
  · exact unfinal_of_eq_false (by decide)
  · exact unfinal_of_eq_false (by decide)

end PrivaCloud.ControlPanel
