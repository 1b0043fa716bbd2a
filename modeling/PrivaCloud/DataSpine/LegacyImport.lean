import PrivaCloud.Framework.Run
import PrivaCloud.Framework.Table

/-!
# The import of the legacy files

`run_migration` as a list of store calls that a crash may cut short and that the next run begins anew. The parsed
files are given, with `none` for what does not validate; a call that raises ends a run like a crash.
-/

namespace PrivaCloud.DataSpine.LegacyImport

open Framework

structure UserInfo where
  passwordHash : Option String
  apiKey : Option String
  role : Option String

structure AccountRow where
  accountId : String
  username : String
  passwordHash : String
  apiKey : Option String
  apiKeyLookup : Option String
  role : String
  status : String

structure QuotaRow where
  accountId : String
  tier : String := "default"
  maxConcurrentSessions : Nat := 3
  idleGraceSeconds : Nat := 1800

structure ScheduledJobDefinition (α : Type) where
  id : String
  content : α

structure JobRow (α : Type) where
  jobId : String
  accountId : String
  content : α

structure RunColumns where
  runId : String
  jobName : String
  sessionId : Option String
  startedAt : String
  finishedAt : Option String
  status : String
  durationMs : Option Int
  isError : Bool
  errorMessage : Option String
  numTurns : Option Int
  resultSummary : Option String
  deriving DecidableEq

structure JobRunRecord extends RunColumns where
  jobId : String
  deriving DecidableEq

structure RunRow extends RunColumns where
  jobId : Option String
  accountId : String

structure Store (α : Type) where
  accounts : Table AccountRow.username := {}
  quotas : Table QuotaRow.accountId := {}
  jobs : Table (JobRow.jobId (α := α)) := {}
  runs : Table (fun row : RunRow => row.runId) := {}

/-- A directory below the work directory, its history files sorted by their names -/
structure UserDir (α : Type) where
  name : String
  scheduledJobs : List (Option (ScheduledJobDefinition α))
  history : List (List (Option JobRunRecord))

structure LegacyTree (α : Type) where
  users : List (String × UserInfo)
  dirs : List (UserDir α)

/-- One turn of a loop of `run_migration`, that of the accounts in two parts -/
inductive Item (α : Type)
  | user (username : String) (info : UserInfo)
  | quota (accountId : String)
  | job (username : String) (defn : ScheduledJobDefinition α)
  | run (username : String) (rec : JobRunRecord)

variable {α : Type}

def UserDir.snapshots (dir : UserDir α) : List JobRunRecord := dir.history.flatten.filterMap id

def UserDir.items (dir : UserDir α) : List (Item α) :=
  if dir.name.toList.head? = some '.' then []
  else (dir.scheduledJobs.filterMap id).map (.job dir.name) ++ dir.snapshots.map (.run dir.name)

def LegacyTree.items (tree : LegacyTree α) : List (Item α) :=
  tree.users.map (fun user => .user user.1 user.2) ++ tree.dirs.flatMap UserDir.items

structure Counts where
  accounts : Nat := 0
  quota : Nat := 0
  jobs : Nat := 0
  runs : Nat := 0
  skipped : Nat := 0

structure Migration (α : Type) where
  store : Store α
  todo : List (Item α)
  counts : Counts := {}

inductive MigrationEvent
  /-- with the id that `uuid4` gives, if it is asked -/
  | exec (uuid : String)
  | crash

namespace Migration

-- the look-up key of an encrypted api key
variable (lookup : String → String)

def accountRow (uuid username : String) (info : UserInfo) : AccountRow where
  accountId := uuid
  username := username
  passwordHash := info.passwordHash.getD ""
  apiKey := info.apiKey
  apiKeyLookup := (info.apiKey.filter (· ≠ "")).map lookup
  role := info.role.getD "user"
  status := "active"

def exec (m : Migration α) (uuid : String) : Option (Migration α) :=
  let store := m.store
  let counts := m.counts
  let skip todo := some { m with todo := todo, counts := { counts with skipped := counts.skipped + 1 } }
  match m.todo with
  | [] => none
  | .user username info :: todo =>
    if (store.accounts.find? username).isSome then skip todo
    else some
      { store := { store with accounts := store.accounts.insertNew (accountRow lookup uuid username info) }
        todo := .quota uuid :: todo
        counts := { counts with accounts := counts.accounts + 1, quota := counts.quota + 1 } }
  | .quota accountId :: todo =>
    some { m with
      store := { store with quotas := store.quotas.insertNew { accountId := accountId } }
      todo := todo }
  | .job username defn :: todo =>
    match store.accounts.find? username with
    | none => some { m with todo := todo }
    | some account =>
      if (store.jobs.find? defn.id).isSome then skip todo
      else some
        { store := { store with jobs := store.jobs.insertNew ⟨defn.id, account.accountId, defn.content⟩ }
          todo := todo
          counts := { counts with jobs := counts.jobs + 1 } }
  | .run username rec :: todo =>
    match store.accounts.find? username with
    | none => some { m with todo := todo }
    | some account =>
      if (store.runs.find? rec.runId).isSome then skip todo
      else
        let jobId := if rec.jobId ≠ "" ∧ (store.jobs.find? rec.jobId).isSome then some rec.jobId else none
        some
          { store := { store with runs := store.runs.insertNew ⟨rec.toRunColumns, jobId, account.accountId⟩ }
            todo := todo
            counts := { counts with runs := counts.runs + 1 } }

variable (tree : LegacyTree α)

def step (m : Migration α) : MigrationEvent → Option (Migration α)
  | .exec uuid => m.exec lookup uuid
  | .crash => some { m with todo := tree.items, counts := {} }

def start (store : Store α) : Migration α := { store := store, todo := tree.items }

end Migration

structure Store.Grows (before after : Store α) : Prop where
  accounts : ∀ k row, before.accounts.find? k = some row → after.accounts.find? k = some row
  quotas : ∀ k row, before.quotas.find? k = some row → after.quotas.find? k = some row
  jobs : ∀ k row, before.jobs.find? k = some row → after.jobs.find? k = some row
  runs : ∀ k row, before.runs.find? k = some row → after.runs.find? k = some row

/-- The row has the columns of the record; its job is left out if the store has no such job. -/
def RunRow.IsOf (row : RunRow) (accountId : String) (rec : JobRunRecord) : Prop :=
  row.toRunColumns = rec.toRunColumns ∧ row.accountId = accountId ∧ (row.jobId = none ∨ row.jobId = some rec.jobId)

def UserDir.lastSnapshot (dir : UserDir α) (runId : String) : Option JobRunRecord :=
  dir.snapshots.reverse.find? fun rec => rec.runId = runId

structure Imported (tree : LegacyTree α) (before after : Store α) : Prop where
  accounts : ∀ user ∈ tree.users, ∃ account, after.accounts.find? user.1 = some account ∧
    after.quotas.find? account.accountId ≠ none
  jobs : ∀ dir ∈ tree.dirs, dir.name.toList.head? ≠ some '.' → after.accounts.find? dir.name ≠ none →
    ∀ defn, some defn ∈ dir.scheduledJobs → after.jobs.find? defn.id ≠ none
  runs : ∀ dir ∈ tree.dirs, dir.name.toList.head? ≠ some '.' →
    ∀ account, after.accounts.find? dir.name = some account →
    ∀ runId last, dir.lastSnapshot runId = some last → before.runs.find? runId = none →
    ∃ row, after.runs.find? runId = some row ∧ row.IsOf account.accountId last
  kept : before.Grows after

def Migration.Careful (m : Migration α) : MigrationEvent → Prop
  | .crash => ∀ accountId, m.todo.head? ≠ some (.quota accountId)
  | .exec _ => True

def LegacyTree.known (tree : LegacyTree α) (before : Store α) (username : String) : Bool :=
  username ∈ tree.users.map (·.1) || (before.accounts.find? username).isSome

def LegacyTree.isFirst (tree : LegacyTree α) (before : Store α) (runId : String) : Item α → Bool
  | .run username rec => tree.known before username && rec.runId = runId
  | _ => false

/-- The first snapshot of each new run is as the last one in the files of its owner. -/
def LegacyTree.Settled (tree : LegacyTree α) (before : Store α) : Prop :=
  ∀ dir ∈ tree.dirs, dir.name.toList.head? ≠ some '.' → tree.known before dir.name = true →
    ∀ runId last, dir.lastSnapshot runId = some last → before.runs.find? runId = none →
    ∀ username rec, tree.items.find? (tree.isFirst before runId) = some (.run username rec) →
      username = dir.name ∧ rec = last

def LegacyTree.HasQuotas (tree : LegacyTree α) (before : Store α) : Prop :=
  ∀ user ∈ tree.users, ∀ account, before.accounts.find? user.1 = some account →
    before.quotas.find? account.accountId ≠ none

section Proof

variable {lookup : String → String} {tree : LegacyTree α} {before store store' : Store α} {m m' : Migration α}

namespace Store.Grows

private theorem refl (store : Store α) : store.Grows store :=
  ⟨fun _ _ h => h, fun _ _ h => h, fun _ _ h => h, fun _ _ h => h⟩

private theorem trans (h : before.Grows store) (h' : store.Grows store') : before.Grows store' :=
  ⟨fun k row hrow => h'.accounts k row (h.accounts k row hrow),
    fun k row hrow => h'.quotas k row (h.quotas k row hrow),
    fun k row hrow => h'.jobs k row (h.jobs k row hrow), fun k row hrow => h'.runs k row (h.runs k row hrow)⟩

end Store.Grows

def Done (known : String → Bool) (store : Store α) : Item α → Prop
  | .user username _ => store.accounts.find? username ≠ none
  | .quota _ => True
  | .job username defn => known username = true → store.jobs.find? defn.id ≠ none
  | .run username rec => known username = true → store.runs.find? rec.runId ≠ none

private theorem ne_none_of_grows {β : Type} {o o' : Option β} (h : ∀ b, o = some b → o' = some b) (hne : o ≠ none) :
    o' ≠ none := by
  obtain ⟨b, hb⟩ := Option.ne_none_iff_exists'.mp hne
  rw [h b hb]
  exact nofun

private theorem Done.mono {known : String → Bool} {item : Item α} (hgrows : store.Grows store')
    (h : Done known store item) : Done known store' item := by
  cases item with
  | user username info => exact ne_none_of_grows (hgrows.accounts _) h
  | quota accountId => trivial
  | job username defn => exact fun hknown => ne_none_of_grows (hgrows.jobs _) (h hknown)
  | run username rec => exact fun hknown => ne_none_of_grows (hgrows.runs _) (h hknown)

/-- Only accounts of the legacy files are new, and a new run is the first snapshot of it. -/
structure Sound (tree : LegacyTree α) (before store : Store α) : Prop where
  grows : before.Grows store
  accounts : ∀ username row, store.accounts.find? username = some row → tree.known before username = true
  runs : ∀ runId row, store.runs.find? runId = some row → before.runs.find? runId = some row ∨
    ∃ username rec account, tree.items.find? (tree.isFirst before runId) = some (.run username rec) ∧
      store.accounts.find? username = some account ∧ row.IsOf account.accountId rec

/-- Where a migration is: what comes before the rest of its items is done, and of the accounts of the files only
the one that has just been inserted has no quota. -/
structure Inv (tree : LegacyTree α) (before : Store α) (m : Migration α) : Prop where
  sound : Sound tree before m.store
  place : ∃ done rest, tree.items = done ++ rest ∧
    (m.todo = rest ∨ ∃ accountId, m.todo = .quota accountId :: rest) ∧
    ∀ item ∈ done, Done (tree.known before) m.store item
  quotas : ∀ user ∈ tree.users, ∀ account, m.store.accounts.find? user.1 = some account →
    m.store.quotas.find? account.accountId ≠ none ∨ m.todo.head? = some (.quota account.accountId)

private theorem mem_items {item : Item α} : item ∈ tree.items ↔ (∃ user ∈ tree.users, item = .user user.1 user.2) ∨
    ∃ dir ∈ tree.dirs, dir.name.toList.head? ≠ some '.' ∧
      ((∃ defn, some defn ∈ dir.scheduledJobs ∧ item = .job dir.name defn) ∨
        ∃ rec ∈ dir.snapshots, item = .run dir.name rec) := by
  have hdir : ∀ dir : UserDir α, item ∈ dir.items ↔ dir.name.toList.head? ≠ some '.' ∧
      ((∃ defn, some defn ∈ dir.scheduledJobs ∧ item = .job dir.name defn) ∨
        ∃ rec ∈ dir.snapshots, item = .run dir.name rec) := by
    intro dir
    unfold UserDir.items
    split
    · rename_i hhidden
      simp [hhidden]
    · rename_i hvisible
      simp [hvisible, eq_comm]
  unfold LegacyTree.items
  rw [List.mem_append, List.mem_flatMap]
  simp only [hdir, List.mem_map, eq_comm]

private theorem user_mem_done {done rest : List (Item α)} {item : Item α} (hitems : tree.items = done ++ item :: rest)
    (hitem : ∀ username info, item ≠ .user username info) {user : String × UserInfo} (huser : user ∈ tree.users) :
    .user user.1 user.2 ∈ done := by
  have hmem : Item.user user.1 user.2 ∈ tree.users.map (fun user => (.user user.1 user.2 : Item α)) :=
    List.mem_map.mpr ⟨user, huser, rfl⟩
  rcases List.append_eq_append_iff.mp hitems with ⟨more, hdone, -⟩ | ⟨more, husers, hrest⟩
  · rw [hdone]
    exact List.mem_append_left _ hmem
  · cases more with
    | nil =>
      rw [List.append_nil] at husers
      rwa [← husers]
    | cons first more =>
      obtain ⟨rfl, -⟩ := List.cons.inj hrest
      have hfirst : item ∈ tree.users.map (fun user => (.user user.1 user.2 : Item α)) := by
        rw [husers]
        exact List.mem_append_right _ List.mem_cons_self
      obtain ⟨other, -, hother⟩ := List.mem_map.mp hfirst
      exact absurd hother.symm (hitem other.1 other.2)

namespace Inv

variable {item : Item α} {todo : List (Item α)}

private theorem place_cons (h : Inv tree before m) (htodo : m.todo = item :: todo) (hitem : ∀ id, item ≠ .quota id) :
    ∃ done, tree.items = done ++ item :: todo ∧ ∀ other ∈ done, Done (tree.known before) m.store other := by
  obtain ⟨done, rest, hitems, hrest | ⟨accountId, hrest⟩, hdone⟩ := h.place
  · rw [← hrest, htodo] at hitems
    exact ⟨done, hitems, hdone⟩
  · rw [htodo] at hrest
    exact absurd (List.cons.inj hrest).1 (hitem accountId)

private theorem quota_of (h : Inv tree before m) (htodo : m.todo = item :: todo) (hitem : ∀ id, item ≠ .quota id)
    {user : String × UserInfo} (huser : user ∈ tree.users) {account : AccountRow}
    (haccount : m.store.accounts.find? user.1 = some account) :
    m.store.quotas.find? account.accountId ≠ none := by
  refine (h.quotas user huser account haccount).resolve_right fun hhead => ?_
  rw [htodo] at hhead
  exact hitem _ (Option.some.inj hhead)

private theorem next (h : Inv tree before m) (htodo : m.todo = item :: todo) (hitem : ∀ id, item ≠ .quota id)
    {counts : Counts} (hgrows : m.store.Grows store) (hsound : Sound tree before store)
    (haccounts : store.accounts = m.store.accounts) (hdone : Done (tree.known before) store item) :
    Inv tree before { store := store, todo := todo, counts := counts } := by
  obtain ⟨done, hitems, hold⟩ := h.place_cons htodo hitem
  refine ⟨hsound, ⟨done ++ [item], todo, by simp [hitems], .inl rfl, fun other hother => ?_⟩,
    fun user huser account haccount => .inl ?_⟩
  · rcases List.mem_append.mp hother with hother | hother
    · exact (hold other hother).mono hgrows
    · rwa [List.mem_singleton.mp hother]
  · rw [haccounts] at haccount
    exact ne_none_of_grows (hgrows.quotas _) (h.quota_of htodo hitem huser haccount)

theorem account_of_known (h : Inv tree before m) (htodo : m.todo = item :: todo) (hquota : ∀ id, item ≠ .quota id)
    (huser : ∀ username info, item ≠ .user username info) {username : String}
    (hknown : tree.known before username = true) : m.store.accounts.find? username ≠ none := by
  obtain ⟨done, hitems, hdone⟩ := h.place_cons htodo hquota
  rcases Bool.or_eq_true_iff.mp hknown with hlisted | hold
  · obtain ⟨user, hmem, rfl⟩ := List.mem_map.mp (of_decide_eq_true hlisted)
    exact hdone _ (user_mem_done hitems huser hmem)
  · obtain ⟨account, haccount⟩ := Option.isSome_iff_exists.mp hold
    rw [h.sound.grows.accounts _ _ haccount]
    exact nofun

end Inv

private theorem Inv.exec (h : Inv tree before m) {uuid : String} (hs : m.exec lookup uuid = some m') :
    Inv tree before m' := by
  unfold Migration.exec at hs
  simp only at hs
  split at hs
  · cases hs
  · rename_i username info todo htodo
    have hitem : ∀ id, Item.user (α := α) username info ≠ .quota id := by simp
    split at hs
    · rename_i hthere
      cases hs
      exact h.next htodo hitem (.refl _) h.sound rfl (Option.isSome_iff_ne_none.mp hthere)
    · cases hs
      obtain ⟨done, hitems, hdone⟩ := h.place_cons htodo hitem
      have hgrows : m.store.Grows { m.store with
          accounts := m.store.accounts.insertNew (Migration.accountRow lookup uuid username info) } :=
        { Store.Grows.refl m.store with accounts := Table.find?_insertNew_of_some _ _ }
      have hlisted : username ∈ tree.users.map (·.1) := by
        have hmem : Item.user username info ∈ tree.items := by simp [hitems]
        rcases mem_items.mp hmem with ⟨user, huser, heq⟩ | ⟨dir, -, -, ⟨defn, -, heq⟩ | ⟨rec, -, heq⟩⟩
        · cases heq
          exact List.mem_map_of_mem huser
        · cases heq
        · cases heq
      refine ⟨⟨h.sound.grows.trans hgrows, fun name row hrow => ?_, fun runId row hrow => ?_⟩,
        ⟨done ++ [.user username info], todo, by simp [hitems], .inr ⟨uuid, rfl⟩, fun other hother => ?_⟩,
        fun user huser account haccount => ?_⟩
      · rw [Table.find?_insertNew, Option.or_eq_some_iff] at hrow
        rcases hrow with hrow | ⟨-, hrow⟩
        · exact h.sound.accounts name row hrow
        · split at hrow
          · rename_i hname
            rw [← hname]
            exact Bool.or_eq_true_iff.mpr (.inl (decide_eq_true hlisted))
          · cases hrow
      · refine (h.sound.runs runId row hrow).imp_right fun hown => ?_
        obtain ⟨owner, rec, account, hfirst, haccount, hrow⟩ := hown
        exact ⟨owner, rec, account, hfirst, hgrows.accounts _ _ haccount, hrow⟩
      · rcases List.mem_append.mp hother with hother | hother
        · exact (hdone other hother).mono hgrows
        · rw [List.mem_singleton.mp hother]
          exact Table.find?_insertNew_ne_none _ _
      · rw [Table.find?_insertNew, Option.or_eq_some_iff] at haccount
        rcases haccount with haccount | ⟨-, haccount⟩
        · exact .inl (h.quota_of htodo hitem huser haccount)
        · split at haccount <;> cases haccount
          exact .inr rfl
  · rename_i accountId todo htodo
    cases hs
    obtain ⟨done, rest, hitems, hrest | ⟨id, hrest⟩, hdone⟩ := h.place
    · rw [← hrest, htodo] at hitems
      have hmem : Item.quota accountId ∈ tree.items := by simp [hitems]
      rcases mem_items.mp hmem with ⟨user, -, heq⟩ | ⟨dir, -, -, ⟨defn, -, heq⟩ | ⟨rec, -, heq⟩⟩
      all_goals cases heq
    · rw [htodo] at hrest
      obtain ⟨-, rfl⟩ := List.cons.inj hrest
      have hgrows : m.store.Grows { m.store with quotas := m.store.quotas.insertNew { accountId := accountId } } :=
        { Store.Grows.refl m.store with quotas := Table.find?_insertNew_of_some _ _ }
      refine ⟨⟨h.sound.grows.trans hgrows, h.sound.accounts, h.sound.runs⟩,
        ⟨done, todo, hitems, .inl rfl, fun other hother => (hdone other hother).mono hgrows⟩,
        fun user huser account haccount => .inl ?_⟩
      rcases h.quotas user huser account haccount with hthere | hhead
      · exact ne_none_of_grows (hgrows.quotas _) hthere
      · rw [htodo] at hhead
        cases hhead
        exact Table.find?_insertNew_ne_none _ _
  · rename_i username defn todo htodo
    have hquota : ∀ id, Item.job username defn ≠ .quota id := by simp
    split at hs
    · rename_i hnone
      cases hs
      exact h.next htodo hquota (.refl _) h.sound rfl
        fun hknown => absurd hnone (h.account_of_known htodo hquota (by simp) hknown)
    · rename_i account haccount
      split at hs
      · rename_i hthere
        cases hs
        exact h.next htodo hquota (.refl _) h.sound rfl fun _ => Option.isSome_iff_ne_none.mp hthere
      · cases hs
        have hgrows : m.store.Grows
            { m.store with jobs := m.store.jobs.insertNew ⟨defn.id, account.accountId, defn.content⟩ } :=
          { Store.Grows.refl m.store with jobs := Table.find?_insertNew_of_some _ _ }
        exact h.next htodo hquota hgrows ⟨h.sound.grows.trans hgrows, h.sound.accounts, h.sound.runs⟩ rfl
          fun _ => Table.find?_insertNew_ne_none _ _
  · rename_i username rec todo htodo
    have hquota : ∀ id, Item.run (α := α) username rec ≠ .quota id := by simp
    split at hs
    · rename_i hnone
      cases hs
      exact h.next htodo hquota (.refl _) h.sound rfl
        fun hknown => absurd hnone (h.account_of_known htodo hquota (by simp) hknown)
    · rename_i account haccount
      split at hs
      · rename_i hthere
        cases hs
        exact h.next htodo hquota (.refl _) h.sound rfl fun _ => Option.isSome_iff_ne_none.mp hthere
      · rename_i hnew
        cases hs
        generalize hrow' : RunRow.mk rec.toRunColumns _ account.accountId = inserted
        have hgrows : m.store.Grows { m.store with runs := m.store.runs.insertNew inserted } :=
          { Store.Grows.refl m.store with runs := Table.find?_insertNew_of_some _ _ }
        have hid : inserted.runId = rec.runId := by rw [← hrow']
        refine h.next htodo hquota hgrows
          ⟨h.sound.grows.trans hgrows, h.sound.accounts, fun runId row hrow => ?_⟩ rfl
          fun _ => hid ▸ Table.find?_insertNew_ne_none _ _
        rw [Table.find?_insertNew, Option.or_eq_some_iff] at hrow
        rcases hrow with hrow | ⟨-, hrow⟩
        · exact h.sound.runs runId row hrow
        · split at hrow <;> cases hrow
          rename_i hrunId
          have hsame : rec.runId = runId := hid.symm.trans hrunId
          obtain ⟨done, hitems, hdone⟩ := h.place_cons htodo hquota
          refine .inr ⟨username, rec, account, ?_, haccount, ?_⟩
          · -- what is done has left no row for this run
            have hearlier : done.find? (tree.isFirst before runId) = none := by
              refine List.find?_eq_none.mpr fun other hother hfirst => ?_
              cases other with
              | user _ _ | quota _ | job _ _ => cases hfirst
              | run owner earlier =>
                obtain ⟨hknown, hrun⟩ := Bool.and_eq_true_iff.mp hfirst
                have hleft := hdone _ hother hknown
                rw [of_decide_eq_true hrun, ← hsame] at hleft
                exact hnew (Option.isSome_iff_ne_none.mpr hleft)
            rw [hitems, List.find?_append, hearlier, Option.none_or, List.find?_cons_of_pos]
            exact Bool.and_eq_true_iff.mpr ⟨h.sound.accounts _ _ haccount, decide_eq_true hsame⟩
          · rw [← hrow']
            refine ⟨rfl, rfl, ?_⟩
            simp only
            split
            · exact .inr rfl
            · exact .inl rfl

private theorem Inv.step (h : Inv tree before m) {e : MigrationEvent} (hc : m.Careful e)
    (hs : m.step lookup tree e = some m') : Inv tree before m' := by
  cases e with
  | exec uuid => exact h.exec hs
  | crash =>
    cases hs
    exact ⟨h.sound, ⟨[], tree.items, rfl, .inl rfl, fun _ hitem => absurd hitem List.not_mem_nil⟩,
      fun user huser account haccount => .inl ((h.quotas user huser account haccount).resolve_right (hc _))⟩

private theorem store_of_done (hdone : ∀ item ∈ tree.items, Done (tree.known before) store item)
    (hknown : ∀ username row, store.accounts.find? username = some row → tree.known before username = true)
    {es : List MigrationEvent} (hr : run (Migration.step lookup tree) (Migration.start tree store) es = some m) :
    m.store = store := by
  have hstep : ∀ (m : Migration α) e m', m.store = store ∧ (∀ item ∈ m.todo, item ∈ tree.items) →
      m.step lookup tree e = some m' → m'.store = store ∧ ∀ item ∈ m'.todo, item ∈ tree.items := by
    rintro ⟨_, todo, counts⟩ e m' ⟨rfl, htodo⟩ hs
    cases e with
    | crash =>
      cases hs
      exact ⟨rfl, fun item hitem => hitem⟩
    | exec uuid =>
      cases todo with
      | nil => cases hs
      | cons item todo =>
        obtain ⟨hitem, hrest⟩ := List.forall_mem_cons.mp htodo
        have hleft := hdone item hitem
        simp only [Migration.step, Migration.exec] at hs
        cases item with
        | quota accountId =>
          rcases mem_items.mp hitem with ⟨user, -, heq⟩ | ⟨dir, -, -, ⟨defn, -, heq⟩ | ⟨rec, -, heq⟩⟩
          all_goals cases heq
        | user username info =>
          simp only [if_pos (Option.isSome_iff_ne_none.mpr hleft)] at hs
          cases hs
          exact ⟨rfl, hrest⟩
        | job username defn =>
          simp only at hs
          split at hs
          · cases hs
            exact ⟨rfl, hrest⟩
          · rename_i account haccount
            rw [if_pos (Option.isSome_iff_ne_none.mpr (hleft (hknown _ _ haccount)))] at hs
            cases hs
            exact ⟨rfl, hrest⟩
        | run username rec =>
          simp only at hs
          split at hs
          · cases hs
            exact ⟨rfl, hrest⟩
          · rename_i account haccount
            rw [if_pos (Option.isSome_iff_ne_none.mpr (hleft (hknown _ _ haccount)))] at hs
            cases hs
            exact ⟨rfl, hrest⟩
  exact (run_invariant_always hstep ⟨rfl, fun item hitem => hitem⟩ hr).1

/-- After a complete migration the files are imported, and a further one changes nothing. -/
theorem imported_of_careful (hquotas : tree.HasQuotas before) (hsettled : tree.Settled before)
    {es : List MigrationEvent}
    (hm : RunMeets (Migration.step lookup tree) Migration.Careful (Migration.start tree before) es)
    (hr : run (Migration.step lookup tree) (Migration.start tree before) es = some m) (hend : m.todo = []) :
    Imported tree before m.store ∧
      ∀ es' m', run (Migration.step lookup tree) (Migration.start tree m.store) es' = some m' →
        m'.store = m.store := by
  have hinit : Inv tree before (Migration.start tree before) := by
    refine ⟨⟨.refl _, fun username row hrow => ?_, fun _ _ hrow => .inl hrow⟩,
      ⟨[], tree.items, rfl, .inl rfl, fun _ hitem => absurd hitem List.not_mem_nil⟩,
      fun user huser account haccount => .inl (hquotas user huser account haccount)⟩
    exact Bool.or_eq_true_iff.mpr (.inr (Option.isSome_iff_exists.mpr ⟨row, hrow⟩))
  have h := run_invariant (fun _ _ _ hi hc hs => Inv.step hi hc hs) hinit hm hr
  have hdone : ∀ item ∈ tree.items, Done (tree.known before) m.store item := by
    obtain ⟨done, rest, hitems, hrest | ⟨accountId, hrest⟩, hdone⟩ := h.place
    · rw [hend] at hrest
      rwa [hitems, ← hrest, List.append_nil]
    · rw [hend] at hrest
      cases hrest
  refine ⟨⟨fun user huser => ?_, fun dir hdir hvisible haccount defn hdefn => ?_, ?_, h.sound.grows⟩,
    fun es' m' hagain => store_of_done hdone h.sound.accounts hagain⟩
  · obtain ⟨account, haccount⟩ :=
      Option.ne_none_iff_exists'.mp (hdone _ (mem_items.mpr (.inl ⟨user, huser, rfl⟩)))
    refine ⟨account, haccount, (h.quotas user huser account haccount).resolve_right fun hhead => ?_⟩
    rw [hend] at hhead
    cases hhead
  · obtain ⟨account, haccount⟩ := Option.ne_none_iff_exists'.mp haccount
    exact hdone _ (mem_items.mpr (.inr ⟨dir, hdir, hvisible, .inl ⟨defn, hdefn, rfl⟩⟩))
      (h.sound.accounts _ _ haccount)
  · intro dir hdir hvisible account haccount runId last hlast hnew
    have hknown := h.sound.accounts _ _ haccount
    have hmem : last ∈ dir.snapshots := List.mem_reverse.mp (List.mem_of_find?_eq_some hlast)
    have hrunId : last.runId = runId := by simpa using List.find?_some hlast
    have hthere := hdone _ (mem_items.mpr (.inr ⟨dir, hdir, hvisible, .inr ⟨last, hmem, rfl⟩⟩)) hknown
    rw [hrunId] at hthere
    obtain ⟨row, hrow⟩ := Option.ne_none_iff_exists'.mp hthere
    refine ⟨row, hrow, ?_⟩
    rcases h.sound.runs runId row hrow with hold | ⟨owner, rec, account', hfirst, haccount', hsame⟩
    · rw [hnew] at hold
      cases hold
    · obtain ⟨rfl, rfl⟩ := hsettled dir hdir hvisible hknown runId last hlast hnew owner rec hfirst
      rw [haccount] at haccount'
      cases haccount'
      exact hsame

end Proof

instance (m : Migration α) (e : MigrationEvent) : Decidable (m.Careful e) :=
  match e with
  | .exec _ => .isTrue trivial
  | .crash =>
    match h : m.todo.head? with
    | some (.quota accountId) => .isFalse fun hc => hc accountId h
    | none | some (.user ..) | some (.job ..) | some (.run ..) => .isTrue fun accountId => by rw [h]; exact nofun

def snapshot (status : String) : JobRunRecord where
  runId := "r"
  jobName := "job"
  sessionId := none
  startedAt := "2024-01-01T00:00:00+00:00"
  finishedAt := none
  status := status
  durationMs := none
  isError := false
  errorMessage := none
  numTurns := none
  resultSummary := none
  jobId := "j"

def treeOf (statuses : List String) : LegacyTree Unit where
  users := [("u", { passwordHash := some "h", apiKey := none, role := none })]
  dirs := [{ name := "u", scheduledJobs := [some ⟨"j", ()⟩, none]
             history := [statuses.map fun status => some (snapshot status)] }]

def migrated (statuses : List String) (es : List MigrationEvent) : Option (Migration Unit) :=
  run (Migration.step id (treeOf statuses)) (Migration.start (treeOf statuses) {}) es

/-- A crash after the account has its quota -/
def crashed : List MigrationEvent := [.exec "a", .exec "", .crash, .exec "b", .exec "", .exec ""]

theorem imported_crashed : ∃ m, migrated ["success"] crashed = some m ∧ m.todo.isEmpty = true ∧
    Imported (treeOf ["success"]) {} m.store := by
  obtain ⟨m, hr, hend⟩ := exists_run_of_decide (Migration.step id (treeOf ["success"]))
    (Migration.start (treeOf ["success"]) {}) crashed
    (p := fun m => m.todo.isEmpty = true) (fun _ h => h) (by decide)
  refine ⟨m, hr, hend, (imported_of_careful (fun _ _ _ haccount => by cases haccount) ?_ (by decide) hr
    (List.isEmpty_iff.mp hend)).1⟩
  intro dir hdir _ _ runId last hlast _ username rec hfirst
  cases List.mem_singleton.mp hdir
  have hlastIs : last = snapshot "success" := by
    have hmem := List.mem_reverse.mp (List.mem_of_find?_eq_some hlast)
    simpa [UserDir.snapshots] using hmem
  have hmem := mem_items.mp (List.mem_of_find?_eq_some hfirst)
  simpa [treeOf, UserDir.snapshots, hlastIs, and_comm] using hmem

-- A run with two snapshots keeps the first one, and a crash before the quota leaves the account without one.
theorem not_imported :
    (∃ m, migrated ["running", "success"] [.exec "a", .exec "", .exec "", .exec "", .exec ""] = some m ∧
      m.todo.isEmpty = true ∧ ¬ Imported (treeOf ["running", "success"]) {} m.store) ∧
    ∃ m, migrated [] [.exec "a", .crash, .exec "b", .exec ""] = some m ∧
      m.todo.isEmpty = true ∧ ¬ Imported (treeOf []) {} m.store := by
  refine ⟨?_, ?_⟩
  · obtain ⟨m, hr, hend, hkept⟩ := exists_run_of_decide (Migration.step id (treeOf ["running", "success"]))
      (Migration.start (treeOf ["running", "success"]) {}) [.exec "a", .exec "", .exec "", .exec "", .exec ""]
      (p := fun m => m.todo.isEmpty = true ∧ (m.store.runs.find? "r").map (·.status) = some "running" ∧
        (m.store.accounts.find? "u").isSome = true) (fun _ h => h) (by decide)
    refine ⟨m, hr, hend, fun h => ?_⟩
    obtain ⟨account, haccount⟩ := Option.isSome_iff_exists.mp hkept.2
    obtain ⟨row, hrow, hcolumns, -⟩ :=
      h.runs _ List.mem_cons_self (by decide) account haccount "r" (snapshot "success") (by decide) rfl
    rw [hrow] at hkept
    have hstatus := (Option.some.inj hkept.1).symm.trans (congrArg RunColumns.status hcolumns)
    exact absurd hstatus (by decide)
  · obtain ⟨m, hr, hend, hnone⟩ := exists_run_of_decide (Migration.step id (treeOf []))
      (Migration.start (treeOf []) {}) [.exec "a", .crash, .exec "b", .exec ""]
      (p := fun m => m.todo.isEmpty = true ∧ m.store.quotas.rows.isEmpty = true) (fun _ h => h) (by decide)
    refine ⟨m, hr, hend, fun h => ?_⟩
    obtain ⟨account, -, hquota⟩ := h.accounts _ List.mem_cons_self
    obtain ⟨quota, hfound⟩ := Option.ne_none_iff_exists'.mp hquota
    have hmem := Table.mem_of_find? hfound
    rw [List.isEmpty_iff.mp hnone] at hmem
    cases hmem

end PrivaCloud.DataSpine.LegacyImport
