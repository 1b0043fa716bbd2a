import PrivaCloud.AgentRunner.SessionMeta

/-!
# What the writers of the index keep

A writer changes the entries of its own sessions and its own directory, and no run mode that is locked. That holds
as long as none of them takes a file that it could not read for an empty index.
-/

namespace PrivaCloud.AgentRunner

open Framework AskUser JsonText

section Stored

variable (names : NameRules)

def MetaFile.stored : MetaFile → MetaIndex
  | .json value => .ofValue names value
  | _ => {}

/-- There is something that an empty index would replace. -/
def MetaFile.holds : MetaFile → Bool
  | .absent => false
  | .undecodable | .malformed => true
  | .json value => !(MetaIndex.ofValue names value).isEmpty

def MetaFile.isForeign : MetaFile → Bool
  | .undecodable | .malformed => true
  | _ => false

namespace Writer

def sessionIds : Writer → List Text
  | ensureTagColors _ | setWorkdirPinned _ _ => []
  | ensureExistingSessionRunModes ids | archiveWorkdir ids => ids
  | ensureExistingSessionRunMode id _ | claimNewSessionRunMode id _ | setSessionFlags id _ _ | setSessionTags id _
  | dismissRecentActivity id | setSchedulerSession id _ _ _ | setRecap id _ _ | setLastResponseModel id _ _ _ _
  | pruneSession id => [id]
  | recordRecentActivity _ id => id.toList

def workdir : Writer → Option Text
  | setWorkdirPinned cwd _ => some (names.canonicalize cwd)
  | _ => none

/-- The writers that only take entries away write nothing of an empty index. -/
def removes : Writer → Bool
  | dismissRecentActivity _ | pruneSession _ => true
  | _ => false

def records : Writer → Bool
  | recordRecentActivity _ _ => true
  | _ => false

end Writer

def activitiesBeside (ids : List Text) (index : MetaIndex) : List Activity :=
  index.recentActivities.filter fun a => ∀ id ∈ a.sessionId, id ∉ ids

/-- The entries of the other sessions and directories are what they were. A new activity can push out the oldest
ones. -/
structure Beside (writer : Writer) (index index' : MetaIndex) : Prop where
  sessions : ∀ id ∉ writer.sessionIds, getValue index'.sessions id = getValue index.sessions id
  schedulerSessions : ∀ id ∉ writer.sessionIds,
    getValue index'.schedulerSessions id = getValue index.schedulerSessions id
  recaps : ∀ id ∉ writer.sessionIds, getValue index'.recaps id = getValue index.recaps id
  lastResponseModels : ∀ id ∉ writer.sessionIds,
    getValue index'.lastResponseModels id = getValue index.lastResponseModels id
  workdirs : ∀ cwd, writer.workdir names ≠ some cwd → getValue index'.workdirs cwd = getValue index.workdirs cwd
  pushedOut : activitiesBeside writer.sessionIds index' <+: activitiesBeside writer.sessionIds index
  activities : writer.records = false →
    activitiesBeside writer.sessionIds index' = activitiesBeside writer.sessionIds index
  tagColors : ∀ tag slot, (getValue index.tagColors tag).bind slotOf = some slot →
    (getValue index'.tagColors tag).bind slotOf = some slot

def Locks (writer : Writer) (index index' : MetaIndex) : Prop :=
  ∀ id mode, index.lockedMode id = some mode → writer ≠ .pruneSession id → index'.lockedMode id = some mode

/-- A call that raises leaves the file as it is, but for the repair of a session without a run mode. -/
def Unwritten (writer : Writer) (file file' : MetaFile) : Prop :=
  file' = file ∨ ∃ id requested, writer = .ensureExistingSessionRunMode id requested ∧
    (file.stored names).lockedMode id = none ∧ file'.stored names = withRunMode (file.stored names) id .code

/-- What a call keeps of what is stored -/
structure Kept (s : MetaState) (e : MetaEvent) : Prop where
  beside : ∀ writer disk, e.access s = some (writer, disk) →
    Beside names writer (s.file.stored names) ((perform names s.file writer disk).1.stored names)
  locks : ∀ writer disk, e.access s = some (writer, disk) →
    Locks writer (s.file.stored names) ((perform names s.file writer disk).1.stored names)
  raised : ∀ writer disk error, e.access s = some (writer, disk) →
    (perform names s.file writer disk).2 = .error error →
    Unwritten names writer s.file (perform names s.file writer disk).1
  foreign : ∀ writer disk, e.access s = some (writer, disk) → s.file.isForeign = true →
    (perform names s.file writer disk).1 = s.file

/-- A read takes the file for an empty index, for there is none to be read. -/
def takesEmpty (file : MetaFile) (disk : Disk) : Bool :=
  disk.readFails || match file with
    | .malformed => true
    | _ => false

/-- No call but those that only take entries away takes a file that holds something for an empty index. -/
def EntryFound (s : MetaState) (e : MetaEvent) : Prop :=
  ∀ access ∈ e.access s, s.file.holds names = true → takesEmpty s.file access.2 = true → access.1.removes = true

instance (s : MetaState) (e : MetaEvent) : Decidable (EntryFound names s e) :=
  inferInstanceAs (Decidable (∀ access ∈ e.access s, _))

end Stored

/-- What is assumed of the paths: a canonical path is there, and it is its own canonical path. -/
structure NameRules.Lawful (names : NameRules) : Prop where
  canonicalize_ne_nil : ∀ path, path ≠ [] → names.canonicalize path ≠ []
  canonicalize_canonicalize : ∀ path, names.canonicalize (names.canonicalize path) = names.canonicalize path

section Activities

variable {names : NameRules} {a : Activity} {l : List Activity}

structure Activity.Normal (names : NameRules) (a : Activity) : Prop where
  session : a.sessionId ≠ some []
  cwd : ∀ path, a.cwd = some path → path ≠ [] ∧ names.canonicalize path = path
  named : a.sessionId ≠ none ∨ a.cwd ≠ none

/-- Activities as `_normalize_recent_activities` leaves them -/
structure NormalActivities (names : NameRules) (l : List Activity) : Prop where
  normal : ∀ a ∈ l, a.Normal names
  nodup : (l.map Activity.key).Nodup
  length_le : l.length ≤ recentActivitiesLimit

private theorem present_ne {text : Option Text} (h : text ≠ some []) : present text = text := by
  cases text with
  | none => rfl
  | some text => exact present_some fun hnil => h (by rw [hnil])

private theorem present_ne_nil (text : Option Text) : present text ≠ some [] :=
  fun h => (present_eq_some.mp h).2 rfl

private theorem Activity.ofValue_value (h : a.Normal names) : Activity.ofValue names a.value = some a := by
  obtain ⟨sessionId, cwd⟩ := a
  have hsession : (field [("session_id".toList, (sessionId.map Value.str).getD .null),
      ("cwd".toList, (cwd.map Value.str).getD .null)] "session_id").bind textOf = sessionId := by
    cases sessionId <;> rfl
  have hcwd : (field [("session_id".toList, (sessionId.map Value.str).getD .null),
      ("cwd".toList, (cwd.map Value.str).getD .null)] "cwd").bind textOf = cwd := by
    cases cwd <;> rfl
  have hpath : (present cwd).map names.canonicalize = cwd := by
    cases cwd with
    | none => rfl
    | some path =>
      obtain ⟨hnil, hcanonical⟩ := h.cwd path rfl
      rw [present_some hnil, Option.map_some, hcanonical]
  have hpresent : present cwd = cwd := by
    apply present_ne
    intro hnil
    exact (h.cwd [] hnil).1 rfl
  unfold Activity.ofValue Activity.value
  rw [membersOf, Option.bind_some]
  dsimp only
  rw [hsession, hcwd, present_ne h.session, hpath, hpresent, if_neg]
  rintro ⟨hnone, hnone'⟩
  exact h.named.elim (fun hs => hs hnone) fun hc => hc hnone'

private theorem Activity.normal_ofValue (hnames : names.Lawful) {v : Value} (h : Activity.ofValue names v = some a) :
    a.Normal names := by
  unfold Activity.ofValue at h
  obtain ⟨members, -, h⟩ := Option.bind_eq_some_iff.mp h
  dsimp only at h
  split at h <;> cases h
  rename_i hnamed
  have hpath (path : Text)
      (hcwd : (present ((field members "cwd").bind textOf)).map names.canonicalize = some path) :
      path ≠ [] ∧ names.canonicalize path = path := by
    obtain ⟨raw, hraw, rfl⟩ := Option.map_eq_some_iff.mp hcwd
    exact ⟨hnames.canonicalize_ne_nil raw (present_eq_some.mp hraw).2, hnames.canonicalize_canonicalize raw⟩
  refine ⟨present_ne_nil _, hpath, ?_⟩
  by_contra hnone
  rw [not_or, not_ne_iff, not_ne_iff] at hnone
  dsimp only at hnone
  refine hnamed ⟨hnone.1, ?_⟩
  rw [hnone.2]
  rfl

private theorem firstActivities_sublist (n : Nat) (seen : List ActivityKey) (l : List Activity) :
    (firstActivities n seen l).Sublist l := by
  fun_induction firstActivities n seen l with
  | case1 => exact List.nil_sublist _
  | case2 => exact List.Sublist.refl _
  | case3 n seen a rest _ ih => exact ih.trans (List.sublist_cons_self a rest)
  | case4 n seen a rest _ ih => exact ih.cons_cons a

private theorem length_firstActivities_le (n : Nat) (seen : List ActivityKey) (l : List Activity) :
    (firstActivities n seen l).length ≤ n := by
  fun_induction firstActivities n seen l with
  | case1 => exact le_rfl
  | case2 => exact Nat.zero_le _
  | case3 n seen a rest _ ih => exact ih
  | case4 n seen a rest _ ih => exact Nat.succ_le_succ ih

private theorem nodup_firstActivities (n : Nat) (seen : List ActivityKey) (l : List Activity) :
    ((firstActivities n seen l).map Activity.key).Nodup ∧
      ∀ key ∈ (firstActivities n seen l).map Activity.key, key ∉ seen := by
  fun_induction firstActivities n seen l with
  | case1 => exact ⟨List.nodup_nil, fun _ h => (by cases h)⟩
  | case2 => exact ⟨List.nodup_nil, fun _ h => (by cases h)⟩
  | case3 n seen a rest _ ih => exact ih
  | case4 n seen a rest hseen ih =>
    rw [List.map_cons, List.nodup_cons]
    refine ⟨⟨fun hmem => ih.2 _ hmem List.mem_cons_self, ih.1⟩, ?_⟩
    intro key hkey
    rcases List.mem_cons.mp hkey with rfl | hkey
    · exact hseen
    · exact fun h => ih.2 key hkey (List.mem_cons_of_mem _ h)

private theorem firstActivities_of_nodup {n : Nat} {seen : List ActivityKey} (hnodup : (l.map Activity.key).Nodup)
    (hseen : ∀ key ∈ l.map Activity.key, key ∉ seen) (hlength : l.length ≤ n) : firstActivities n seen l = l := by
  induction l generalizing n seen with
  | nil => cases n <;> rfl
  | cons a rest ih =>
    rw [List.map_cons, List.nodup_cons] at hnodup
    cases n with
    | zero => cases hlength
    | succ n =>
      rw [firstActivities, if_neg (hseen _ List.mem_cons_self),
        ih hnodup.2 (fun key hkey hmem => ?_) (Nat.le_of_succ_le_succ hlength)]
      rcases List.mem_cons.mp hmem with rfl | hmem
      · exact hnodup.1 hkey
      · exact hseen key (List.mem_cons_of_mem _ hkey) hmem

private theorem normal_normalizeRecentActivities (hnames : names.Lawful) (v : Option Value) :
    NormalActivities names (normalizeRecentActivities names v) := by
  unfold normalizeRecentActivities
  split
  · rename_i items
    refine ⟨fun a ha => ?_, (nodup_firstActivities _ _ _).1, length_firstActivities_le _ _ _⟩
    obtain ⟨item, -, hitem⟩ := List.mem_filterMap.mp ((firstActivities_sublist _ _ _).subset ha)
    exact Activity.normal_ofValue hnames hitem
  · exact ⟨fun _ h => (by cases h), List.nodup_nil, Nat.zero_le _⟩

private theorem normalizeRecentActivities_value (h : NormalActivities names l) :
    normalizeRecentActivities names (some (.arr (l.map Activity.value))) = l := by
  have hread : (l.map Activity.value).filterMap (Activity.ofValue names) = l := by
    rw [List.filterMap_map]
    exact (List.filterMap_congr fun a ha => Activity.ofValue_value (h.normal a ha)).trans (List.filterMap_some)
  rw [normalizeRecentActivities, hread]
  exact firstActivities_of_nodup h.nodup (fun _ _ hmem => by cases hmem) h.length_le

private theorem NormalActivities.sublist {l' : List Activity} (h : NormalActivities names l) (hsub : l'.Sublist l) :
    NormalActivities names l' where
  normal a ha := h.normal a (hsub.subset ha)
  nodup := h.nodup.sublist (hsub.map _)
  length_le := hsub.length_le.trans h.length_le

end Activities

section Entries

variable {names : NameRules} {index index' index'' : MetaIndex} {writer : Writer} {id : Text}
variable {entry : Members}

private theorem getRecentActivities_eq (h : NormalActivities names index.recentActivities) :
    index.getRecentActivities names = index.recentActivities := normalizeRecentActivities_value h

private theorem ofValue_value (h : NormalActivities names index.recentActivities) :
    MetaIndex.ofValue names index.value = index := by
  have hactivities := normalizeRecentActivities_value h
  obtain ⟨sessions, workdirs, recentActivities, schedulerSessions, recaps, lastResponseModels, tagColors⟩ := index
  have hread : MetaIndex.ofValue names
      (MetaIndex.value ⟨sessions, workdirs, recentActivities, schedulerSessions, recaps, lastResponseModels,
        tagColors⟩) =
      ⟨sessions, workdirs, normalizeRecentActivities names (some (.arr (recentActivities.map Activity.value))),
        schedulerSessions, recaps, lastResponseModels, tagColors⟩ := rfl
  rw [hread, hactivities]

private theorem eq_empty_of_isEmpty (h : index.isEmpty = true) : index = {} := by
  obtain ⟨sessions, workdirs, recentActivities, schedulerSessions, recaps, lastResponseModels, tagColors⟩ := index
  simp only [MetaIndex.isEmpty, Bool.and_eq_true, List.isEmpty_iff] at h
  obtain ⟨⟨⟨⟨⟨⟨rfl, rfl⟩, rfl⟩, rfl⟩, rfl⟩, rfl⟩, rfl⟩ := h
  rfl

def modeIn (entry : Members) : Option RunMode := ((field entry "run_mode").bind textOf).bind RunMode.ofText

private theorem runModeOf_eq {mode : Option RunMode} (h : runModeOf entry = .ok mode) :
    modeIn entry = mode := by
  unfold runModeOf at h
  unfold modeIn
  split at h
  · rename_i hfield
    cases h
    rw [hfield]
    rfl
  · cases h
  · cases h
  · rename_i hfield _ _
    cases h
    cases hvalue : field entry "run_mode" with
    | none => rfl
    | some v =>
      cases v with
      | str text => exact absurd hvalue (hfield text)
      | _ => rfl

private theorem modeIn_setField (entry : Members) (v : Value) :
    modeIn (setField entry "run_mode" v) = (textOf v).bind RunMode.ofText := by
  unfold modeIn field setField
  rw [getValue_assign, if_pos rfl]
  rfl

theorem modeIn_setField_of_ne (entry : Members) {name : String} (hname : name.toList ≠ "run_mode".toList) (v : Value) :
    modeIn (setField entry name v) = modeIn entry := by
  unfold modeIn field setField
  rw [getValue_assign, if_neg hname.symm]

theorem lockedMode_eq_modeIn (index : MetaIndex) (id : Text) : index.lockedMode id = modeIn (index.entry id) := by
  unfold MetaIndex.lockedMode MetaIndex.entry
  cases getValue index.sessions id with
  | none => rfl
  | some v => cases v <;> rfl

private theorem lockedMode_eq_none (h : runModeOf (index.entry id) = .ok none) : index.lockedMode id = none :=
  (lockedMode_eq_modeIn index id).trans (runModeOf_eq h)

private theorem lockedMode_setEntry (index : MetaIndex) (id id' : Text) (entry : Members) :
    (index.setEntry id entry).lockedMode id' = if id' = id then modeIn entry else index.lockedMode id' := by
  unfold MetaIndex.lockedMode MetaIndex.setEntry
  dsimp only
  rw [getValue_assign]
  split <;> rfl

private theorem lockedMode_withRunMode (index : MetaIndex) (id id' : Text) (mode : RunMode) :
    (withRunMode index id mode).lockedMode id' = if id' = id then some mode else index.lockedMode id' := by
  unfold withRunMode
  rw [lockedMode_setEntry, modeIn_setField, textOf, Option.bind_some, RunMode.ofText_text]

private theorem lockedMode_congr (h : getValue index'.sessions id = getValue index.sessions id) :
    index'.lockedMode id = index.lockedMode id := by
  unfold MetaIndex.lockedMode
  rw [h]

private theorem Beside.rfl' : Beside names writer index index where
  sessions _ _ := rfl
  schedulerSessions _ _ := rfl
  recaps _ _ := rfl
  lastResponseModels _ _ := rfl
  workdirs _ _ := rfl
  pushedOut := List.prefix_rfl
  activities _ := rfl
  tagColors _ _ h := h

private theorem Beside.trans (h : Beside names writer index index') (h' : Beside names writer index' index'') :
    Beside names writer index index'' where
  sessions id hid := (h'.sessions id hid).trans (h.sessions id hid)
  schedulerSessions id hid := (h'.schedulerSessions id hid).trans (h.schedulerSessions id hid)
  recaps id hid := (h'.recaps id hid).trans (h.recaps id hid)
  lastResponseModels id hid := (h'.lastResponseModels id hid).trans (h.lastResponseModels id hid)
  workdirs cwd hcwd := (h'.workdirs cwd hcwd).trans (h.workdirs cwd hcwd)
  pushedOut := h'.pushedOut.trans h.pushedOut
  activities hrecords := (h'.activities hrecords).trans (h.activities hrecords)
  tagColors tag slot hslot := h'.tagColors tag slot (h.tagColors tag slot hslot)

private theorem beside_sessions {sessions : Members}
    (h : ∀ id ∉ writer.sessionIds, getValue sessions id = getValue index.sessions id) :
    Beside names writer index { index with sessions } :=
  { (Beside.rfl' : Beside names writer index index) with sessions := h }

private theorem beside_setEntry (hid : id ∈ writer.sessionIds) (entry : Members) :
    Beside names writer index (index.setEntry id entry) := by
  apply beside_sessions
  intro id' hid'
  have hne : id' ≠ id := fun h => hid' (h ▸ hid)
  rw [getValue_assign, if_neg hne]

structure Changes (names : NameRules) (writer : Writer) (index index' : MetaIndex) : Prop where
  normal : NormalActivities names index'.recentActivities
  beside : Beside names writer index index'
  locks : Locks writer index index'

private theorem Changes.trans (h : Changes names writer index index') (h' : Changes names writer index' index'') :
    Changes names writer index index'' where
  normal := h'.normal
  beside := h.beside.trans h'.beside
  locks id mode hmode hwriter := h'.locks id mode (h.locks id mode hmode hwriter) hwriter

theorem changes_rfl (hnormal : NormalActivities names index.recentActivities) : Changes names writer index index :=
  ⟨hnormal, Beside.rfl', fun _ _ hmode _ => hmode⟩

/-- What holds of what a writer does under the lock -/
structure Sound (names : NameRules) (writer : Writer) (index : MetaIndex) (done : Section) : Prop where
  changes : ∀ index', done.write = some index' → Changes names writer index index'
  raised : ∀ index' error, done.write = some index' → done.result = .error error →
    ∃ id requested, writer = .ensureExistingSessionRunMode id requested ∧ index.lockedMode id = none ∧
      index' = withRunMode index id .code

private theorem sound_unwritten (result : Except MetaError (Option RunMode)) : Sound names writer index { result } :=
  ⟨fun _ h => (by cases h), fun _ _ h => (by cases h)⟩

private theorem sound_of_changes {mode : Option RunMode} (h : Changes names writer index index') :
    Sound names writer index { write := some index', result := .ok mode } :=
  ⟨fun _ hwrite => (by cases hwrite; exact h), fun _ _ _ hraised => (by cases hraised)⟩

private theorem locks_of_sessions (h : index'.sessions = index.sessions) : Locks writer index index' := by
  intro id mode hmode _
  exact (lockedMode_congr (by rw [h])).trans hmode

theorem locks_setEntry (hentry : ∀ mode, index.lockedMode id = some mode → modeIn entry = some mode) :
    Locks writer index (index.setEntry id entry) := by
  intro id' mode hmode _
  rw [lockedMode_setEntry]
  split
  · rename_i hid
    exact hentry mode (hid ▸ hmode)
  · exact hmode

private theorem locks_withRunMode {mode : RunMode} (hnone : index.lockedMode id = none) :
    Locks writer index (withRunMode index id mode) := by
  intro id' mode' hmode _
  rw [lockedMode_withRunMode]
  split
  · rename_i hid
    rw [hid, hnone] at hmode
    cases hmode
  · exact hmode

variable (hnormal : NormalActivities names index.recentActivities)
include hnormal

private theorem changes_setEntry (hid : id ∈ writer.sessionIds)
    (hentry : ∀ mode, index.lockedMode id = some mode → modeIn entry = some mode) :
    Changes names writer index (index.setEntry id entry) :=
  ⟨hnormal, beside_setEntry hid entry, locks_setEntry hentry⟩

theorem changes_withRunMode {mode : RunMode} (hid : id ∈ writer.sessionIds) (hnone : index.lockedMode id = none) :
    Changes names writer index (withRunMode index id mode) :=
  ⟨hnormal, beside_setEntry hid _, locks_withRunMode hnone⟩

private theorem changes_keepEntry (hid : id ∈ writer.sessionIds)
    (hentry : modeIn entry = index.lockedMode id) (h : keepEntry index id entry = .ok index') :
    Changes names writer index index' := by
  have hstored : Changes names writer index (index.setEntry id entry) :=
    changes_setEntry hnormal hid fun mode hmode => hentry.trans hmode
  unfold keepEntry at h
  split at h
  · cases h
    exact hstored
  · cases hmode : runModeOf entry with
    | error e =>
      rw [hmode] at h
      cases h
    | ok mode =>
      rw [hmode] at h
      cases h
      dsimp only
      split
      · exact hstored
      · rename_i hnone
        rw [Bool.not_eq_true, Option.isSome_eq_false_iff, Option.isNone_iff_eq_none] at hnone
        rw [runModeOf_eq hmode, hnone] at hentry
        refine ⟨hnormal, beside_sessions fun id' hid' => ?_, fun id' mode hlocked _ => ?_⟩
        · have hne : id' ≠ id := fun h => hid' (h ▸ hid)
          rw [getValue_filter_ne, if_neg hne]
        · have hne : id' ≠ id := by
            rintro rfl
            rw [← hentry] at hlocked
            cases hlocked
          have hsame : getValue (index.sessions.filter (·.1 ≠ id)) id' = getValue index.sessions id' := by
            rw [getValue_filter_ne, if_neg hne]
          exact (lockedMode_congr hsame).trans hlocked

private theorem sound_ensureExisting {requested : Option RunMode} :
    Sound names (.ensureExistingSessionRunMode id requested) index
      (match runModeOf (index.entry id) with
      | .error e => { result := .error e }
      | .ok (some mode) => { result := lockedTo requested mode }
      | .ok none => { write := some (withRunMode index id .code), result := lockedTo requested .code }) := by
  cases hmode : runModeOf (index.entry id) with
  | error e => exact sound_unwritten _
  | ok mode =>
    cases mode with
    | some mode => exact sound_unwritten _
    | none =>
      have hnone := lockedMode_eq_none hmode
      refine ⟨fun index' h => ?_, fun index' error h _ => ?_⟩
      · cases h
        exact changes_withRunMode hnormal List.mem_cons_self hnone
      · cases h
        exact ⟨id, requested, rfl, hnone, rfl⟩

private theorem changes_ensureModes {ids : List Text} {changed : Bool} (hids : ids ⊆ writer.sessionIds)
    (h : ensureModes ids index = .ok (index', changed)) : Changes names writer index index' := by
  induction ids generalizing index changed with
  | nil =>
    cases h
    exact changes_rfl hnormal
  | cons id ids ih =>
    obtain ⟨hid, hids⟩ := List.cons_subset.mp hids
    rw [ensureModes] at h
    split at h
    · exact ih hnormal hids h
    · split at h
      · cases h
      · exact ih hnormal hids h
      · rename_i hmode
        have hrepaired : Changes names writer index (withRunMode index id .code) :=
          changes_withRunMode hnormal hid (lockedMode_eq_none hmode)
        cases hensured : ensureModes ids (withRunMode index id .code) with
        | error e =>
          rw [hensured] at h
          cases h
        | ok ensured =>
          rw [hensured] at h
          cases h
          exact hrepaired.trans (ih hrepaired.normal hids hensured)

private theorem changes_archiveAll {ids : List Text} (hids : ids ⊆ writer.sessionIds) :
    Changes names writer index (archiveAll index ids) := by
  unfold archiveAll
  induction ids generalizing index with
  | nil => exact changes_rfl hnormal
  | cons id ids ih =>
    obtain ⟨hid, hids⟩ := List.cons_subset.mp hids
    have harchived : Changes names writer index
        (index.setEntry id (setField (index.entry id) "archived" (.bool true))) := by
      refine changes_setEntry hnormal hid fun mode hmode => ?_
      rw [modeIn_setField_of_ne _ (by decide), ← lockedMode_eq_modeIn, hmode]
    rw [List.foldl_cons]
    exact harchived.trans (ih harchived.normal hids)

omit hnormal in
theorem reserveTags_keeps {seen values : List Text} {used : List Nat} {registry : Members} {tag : Text} {slot : Nat}
    (h : (getValue registry tag).bind slotOf = some slot) :
    (getValue (reserveTags names seen used values registry).1 tag).bind slotOf = some slot := by
  fun_induction reserveTags names seen used values registry with
  | case1 => exact h
  | case2 _ _ _ _ _ _ _ _ ih => exact ih h
  | case3 _ _ _ _ _ _ _ _ _ ih => exact ih h
  | case4 _ _ value _ registry name _ _ hfree _ _ ih =>
    refine ih ?_
    have hne : tag ≠ name := by
      rintro rfl
      refine hfree ?_
      unfold registeredTagColor
      rw [h]
      rfl
    rw [getValue_assign, if_neg hne]
    exact h

private theorem changes_reserveTagColors (tags : List Text) :
    Changes names writer index (reserveTagColors names index tags).1 where
  normal := hnormal
  beside := { (Beside.rfl' : Beside names writer index index) with tagColors := fun _ _ h => reserveTags_keeps h }
  locks := locks_of_sessions rfl

private theorem changes_assign {value : Value} (hid : id ∈ writer.sessionIds) :
    Changes names writer index { index with recaps := assign index.recaps id value } ∧
      Changes names writer index { index with schedulerSessions := assign index.schedulerSessions id value } ∧
      Changes names writer index { index with lastResponseModels := assign index.lastResponseModels id value } := by
  have hassign (table : Members) (id' : Text) (hid' : id' ∉ writer.sessionIds) :
      getValue (assign table id value) id' = getValue table id' := by
    have hne : id' ≠ id := fun h => hid' (h ▸ hid)
    rw [getValue_assign, if_neg hne]
  have hsame : Beside names writer index index := Beside.rfl'
  exact ⟨⟨hnormal, { hsame with recaps := hassign _ }, locks_of_sessions rfl⟩,
    ⟨hnormal, { hsame with schedulerSessions := hassign _ }, locks_of_sessions rfl⟩,
    ⟨hnormal, { hsame with lastResponseModels := hassign _ }, locks_of_sessions rfl⟩⟩

private theorem changes_setWorkdirPinned {cwd : Text} {pinned : Bool} :
    Changes names (.setWorkdirPinned cwd pinned) index { index with
      workdirs := if pinned then assign index.workdirs (names.canonicalize cwd) (.obj [("pinned".toList, .bool true)])
        else index.workdirs.filter (·.1 ≠ names.canonicalize cwd) } where
  normal := hnormal
  beside := { (Beside.rfl' : Beside names (.setWorkdirPinned cwd pinned) index index) with
    workdirs := fun cwd' hcwd => by
      have hne : cwd' ≠ names.canonicalize cwd := fun h => hcwd (by rw [h]; rfl)
      dsimp only
      split
      · rw [getValue_assign, if_neg hne]
      · rw [getValue_filter_ne, if_neg hne] }
  locks := locks_of_sessions rfl

omit hnormal in
theorem activitiesBeside_singleton (index : MetaIndex) (id : Text) :
    activitiesBeside [id] index = index.recentActivities.filter fun a => a.sessionId ≠ some id := by
  unfold activitiesBeside
  apply List.filter_congr
  intro a _
  cases a.sessionId with
  | none => simp
  | some id' => simp

private theorem otherActivities_eq (id : Text) : otherActivities names index id = activitiesBeside [id] index := by
  rw [activitiesBeside_singleton, otherActivities, getRecentActivities_eq hnormal]

private theorem activitiesBeside_otherActivities (id : Text) :
    activitiesBeside [id] { index with recentActivities := otherActivities names index id } =
      activitiesBeside [id] index := by
  rw [otherActivities_eq hnormal, activitiesBeside_singleton, activitiesBeside_singleton]
  dsimp only
  rw [List.filter_filter]
  apply List.filter_congr
  intro a _
  rw [Bool.and_self]

private theorem normal_otherActivities (id : Text) : NormalActivities names (otherActivities names index id) := by
  rw [otherActivities_eq hnormal]
  exact hnormal.sublist List.filter_sublist

private theorem sound_dismiss : Sound names (.dismissRecentActivity id) index
      (if id = [] ∨ (otherActivities names index id).length = index.recentActivities.length then {}
      else { write := some { index with recentActivities := otherActivities names index id } }) := by
  split
  · exact sound_unwritten _
  · have hbeside := activitiesBeside_otherActivities hnormal id
    have hsame : Beside names (.dismissRecentActivity id) index index := Beside.rfl'
    exact sound_of_changes ⟨normal_otherActivities hnormal id,
      { hsame with pushedOut := hbeside ▸ List.prefix_rfl, activities := fun _ => hbeside }, locks_of_sessions rfl⟩

private theorem changes_record (hnames : names.Lawful) {cwd : Option Text} (hid : id ≠ []) :
    Changes names (.recordRecentActivity cwd (some id)) index { index with
      recentActivities :=
        ({ sessionId := some id, cwd := (present cwd).map names.canonicalize } :: otherActivities names index id).take
          recentActivitiesLimit } := by
  have hothers := normal_otherActivities hnormal id
  have hother (a : Activity) (ha : a ∈ otherActivities names index id) : a.sessionId ≠ some id :=
    of_decide_eq_true (List.mem_filter.mp ha).2
  refine ⟨⟨fun a ha => ?_, ?_, List.length_take_le _ _⟩, ?_, locks_of_sessions rfl⟩
  · rcases List.mem_cons.mp (List.mem_of_mem_take ha) with rfl | ha
    · refine ⟨fun h => hid (Option.some.inj h), fun path hpath => ?_, Or.inl (by simp)⟩
      obtain ⟨raw, hraw, rfl⟩ := Option.map_eq_some_iff.mp hpath
      exact ⟨hnames.canonicalize_ne_nil raw (present_eq_some.mp hraw).2, hnames.canonicalize_canonicalize raw⟩
    · exact hothers.normal a ha
  · refine List.Nodup.sublist ((List.take_sublist _ _).map _) ?_
    rw [List.map_cons, List.nodup_cons]
    refine ⟨fun hmem => ?_, hothers.nodup⟩
    obtain ⟨a, ha, hkey⟩ := List.mem_map.mp hmem
    have hne := hother a ha
    unfold Activity.key at hkey
    cases hsession : a.sessionId with
    | none =>
      rw [hsession] at hkey
      cases hkey
    | some id' =>
      rw [hsession] at hkey hne
      cases hkey
      exact hne rfl
  · have hsame : Beside names (.recordRecentActivity cwd (some id)) index index := Beside.rfl'
    refine { hsame with pushedOut := ?_, activities := fun hrecords => by cases hrecords }
    have hids : (Writer.recordRecentActivity cwd (some id)).sessionIds = [id] := rfl
    rw [hids, ← otherActivities_eq hnormal, activitiesBeside_singleton]
    have htake : ((({ sessionId := some id, cwd := (present cwd).map names.canonicalize } : Activity) ::
        otherActivities names index id).take recentActivitiesLimit).filter (fun a => a.sessionId ≠ some id) =
        (otherActivities names index id).take 4 := by
      rw [recentActivitiesLimit, List.take_succ_cons, List.filter_cons_of_neg (by simp), List.filter_eq_self]
      exact fun a ha => decide_eq_true (hother a (List.mem_of_mem_take ha))
    dsimp only
    rw [htake]
    exact List.take_prefix _ _

private theorem changes_prune {activities : List Activity}
    (hactivities : activities = otherActivities names index id ∨ activities = index.recentActivities) :
    Changes names (.pruneSession id) index { index with
      sessions := index.sessions.filter (·.1 ≠ id)
      schedulerSessions := index.schedulerSessions.filter (·.1 ≠ id)
      recaps := index.recaps.filter (·.1 ≠ id)
      lastResponseModels := index.lastResponseModels.filter (·.1 ≠ id)
      recentActivities := activities } := by
  have hfilter (table : Members) (id' : Text) (hid' : id' ∉ [id]) :
      getValue (table.filter (·.1 ≠ id)) id' = getValue table id' := by
    rw [getValue_filter_ne, if_neg fun h => hid' (List.mem_singleton.mpr h)]
  have hbeside : activitiesBeside [id] { index with recentActivities := activities } = activitiesBeside [id] index := by
    rcases hactivities with rfl | rfl
    · exact activitiesBeside_otherActivities hnormal id
    · rfl
  refine ⟨?_, ?_, fun id' mode hmode hwriter => ?_⟩
  · rcases hactivities with rfl | rfl
    · exact normal_otherActivities hnormal id
    · exact hnormal
  · exact
      { sessions := hfilter _
        schedulerSessions := hfilter _
        recaps := hfilter _
        lastResponseModels := hfilter _
        workdirs := fun _ _ => rfl
        pushedOut := by exact hbeside ▸ List.prefix_rfl
        activities := fun _ => hbeside
        tagColors := fun _ _ h => h }
  · have hne : id' ∉ [id] := by
      intro h
      rw [List.mem_singleton] at h
      exact hwriter (h ▸ rfl)
    exact (lockedMode_congr (hfilter _ id' hne)).trans hmode

private theorem sound_attempt (hnames : names.Lawful) {body : MetaIndex → Section}
    (hattempt : writer.attempt names = .locked body) : Sound names writer index (body index) := by
  cases writer with
  | ensureTagColors tags =>
    cases hattempt
    dsimp only
    split
    · exact sound_of_changes (changes_reserveTagColors hnormal _)
    · exact sound_unwritten _
  | ensureExistingSessionRunMode id requested =>
    cases hattempt
    exact sound_ensureExisting hnormal
  | ensureExistingSessionRunModes ids =>
    cases hattempt
    dsimp only
    split
    · exact sound_unwritten _
    · rename_i ensured changed hensured
      split
      · exact sound_of_changes (changes_ensureModes hnormal (List.Subset.refl _) hensured)
      · exact sound_unwritten _
  | claimNewSessionRunMode id mode =>
    rw [Writer.attempt] at hattempt
    unfold claimNewSessionRunMode at hattempt
    split at hattempt <;> cases hattempt
    dsimp only
    split
    · exact sound_unwritten _
    · exact sound_unwritten _
    · rename_i hmode
      exact sound_of_changes (changes_withRunMode hnormal List.mem_cons_self (lockedMode_eq_none hmode))
  | setSessionFlags id pinned archived =>
    cases hattempt
    have hentry : modeIn (setFlag (setFlag (index.entry id) "pinned" pinned) "archived" archived) =
        index.lockedMode id := by
      rw [lockedMode_eq_modeIn]
      cases pinned <;> cases archived <;> simp only [setFlag] <;>
        repeat rw [modeIn_setField_of_ne _ (by decide)]
    dsimp only
    cases hkept : keepEntry index id (setFlag (setFlag (index.entry id) "pinned" pinned) "archived" archived) with
    | error e => exact sound_unwritten _
    | ok kept =>
      have hchanges : Changes names (.setSessionFlags id pinned archived) index kept :=
        changes_keepEntry hnormal List.mem_cons_self hentry hkept
      exact sound_of_changes hchanges
  | setSessionTags id tags =>
    rw [Writer.attempt] at hattempt
    unfold setSessionTags at hattempt
    split at hattempt <;> cases hattempt
    rename_i normalized _
    dsimp only
    have hentry : modeIn (if normalized ≠ [] then
        setField (index.entry id) "tags" (.arr (normalized.map .str))
        else (index.entry id).filter (·.1 ≠ "tags".toList)) = index.lockedMode id := by
      rw [lockedMode_eq_modeIn]
      split
      · rw [modeIn_setField_of_ne _ (by decide)]
      · unfold modeIn field
        rw [getValue_filter_ne, if_neg (by decide)]
    generalize (if normalized ≠ [] then _ else _ : Members) = entry at hentry ⊢
    cases hkept : keepEntry index id entry with
    | error e => exact sound_unwritten _
    | ok kept =>
      have hchanges : Changes names (.setSessionTags id tags) index kept :=
        changes_keepEntry hnormal List.mem_cons_self hentry hkept
      exact sound_of_changes (hchanges.trans (changes_reserveTagColors hchanges.normal _))
  | setWorkdirPinned cwd pinned =>
    cases hattempt
    exact sound_of_changes (changes_setWorkdirPinned hnormal)
  | recordRecentActivity cwd sessionId =>
    cases hattempt
    dsimp only
    split
    · exact sound_unwritten _
    · rename_i id hid
      obtain ⟨rfl, hne⟩ := present_eq_some.mp hid
      exact sound_of_changes (changes_record hnormal hnames hne)
  | dismissRecentActivity id =>
    cases hattempt
    exact sound_dismiss hnormal
  | setSchedulerSession id jobId jobName runId =>
    rw [Writer.attempt] at hattempt
    unfold setSchedulerSession at hattempt
    split at hattempt <;> cases hattempt
    exact sound_of_changes (changes_assign hnormal List.mem_cons_self).2.1
  | setRecap id text turns =>
    rw [Writer.attempt] at hattempt
    unfold setRecap at hattempt
    split at hattempt <;> cases hattempt
    exact sound_of_changes (changes_assign hnormal List.mem_cons_self).1
  | setLastResponseModel id model profileId observedAt now =>
    rw [Writer.attempt] at hattempt
    unfold setSessionModel at hattempt
    split at hattempt
    · split at hattempt <;> cases hattempt
      exact sound_of_changes (changes_assign hnormal List.mem_cons_self).2.2
    · cases hattempt
  | archiveWorkdir ids =>
    cases hattempt
    exact sound_of_changes (changes_archiveAll hnormal (List.Subset.refl _))
  | pruneSession id =>
    cases hattempt
    dsimp only
    split
    · refine sound_of_changes (changes_prune hnormal ?_)
      split
      · exact Or.inl rfl
      · exact Or.inr rfl
    · exact sound_unwritten _

omit hnormal in
theorem unwritten_of_removes {body : MetaIndex → Section} (hattempt : writer.attempt names = .locked body)
    (hremoves : writer.removes = true) : (body {}).write = none := by
  cases writer with
  | dismissRecentActivity id =>
    cases hattempt
    have hlength : (otherActivities names {} id).length = ([] : List Activity).length := rfl
    dsimp only
    rw [if_pos (Or.inr hlength)]
  | pruneSession id =>
    cases hattempt
    rfl
  | _ => cases hremoves

end Entries

section Runs

variable {names : NameRules} {s s' : MetaState} {e : MetaEvent} {es : List MetaEvent} {file : MetaFile}
  {writer : Writer} {disk : Disk}

private theorem normal_stored (hnames : names.Lawful) (file : MetaFile) :
    NormalActivities names (file.stored names).recentActivities := by
  have hempty : NormalActivities names [] := ⟨fun _ h => (by cases h), List.nodup_nil, Nat.zero_le _⟩
  cases file with
  | json value =>
    rw [MetaFile.stored]
    cases value with
    | obj data => exact normal_normalizeRecentActivities hnames _
    | _ => exact hempty
  | _ => exact hempty

private theorem read_stored (hfound : file.holds names = true → takesEmpty file disk = true → writer.removes = true)
    {index : MetaIndex} (hread : readRaw names file disk = some index) :
    (index = file.stored names ∧ file.isForeign = false) ∨ (index = {} ∧ writer.removes = true) := by
  unfold readRaw at hread
  by_cases hfails : disk.readFails = true
  · rw [if_pos hfails] at hread
    cases hread
    have hempty : takesEmpty file disk = true := by
      unfold takesEmpty
      rw [hfails, Bool.true_or]
    by_cases hholds : file.holds names = true
    · exact Or.inr ⟨rfl, hfound hholds hempty⟩
    · refine Or.inl ?_
      cases file with
      | absent => exact ⟨rfl, rfl⟩
      | undecodable => exact absurd rfl hholds
      | malformed => exact absurd rfl hholds
      | json value =>
        rw [MetaFile.holds, Bool.not_eq_true, Bool.not_eq_false'] at hholds
        exact ⟨(eq_empty_of_isEmpty hholds).symm, rfl⟩
  · rw [if_neg hfails] at hread
    cases file with
    | absent =>
      cases hread
      exact Or.inl ⟨rfl, rfl⟩
    | undecodable => cases hread
    | malformed =>
      cases hread
      exact Or.inr ⟨rfl, hfound rfl (Bool.or_true _)⟩
    | json value =>
      cases hread
      exact Or.inl ⟨rfl, rfl⟩

/-- What one call does to the file: nothing, or it writes what its writer makes of what is stored. -/
theorem perform_cases (hnames : names.Lawful)
    (hfound : file.holds names = true → takesEmpty file disk = true → writer.removes = true) :
    (perform names file writer disk).1 = file ∨
      file.isForeign = false ∧ ∃ done index', Sound names writer (file.stored names) done ∧ done.write = some index' ∧
        perform names file writer disk = (.json index'.value, done.result) := by
  unfold perform
  cases hattempt : writer.attempt names with
  | leave result => exact Or.inl rfl
  | locked body =>
    cases hread : readRaw names file disk with
    | none => exact Or.inl rfl
    | some index =>
      dsimp only
      cases hdone : body index with
      | mk write result =>
        cases write with
        | none => exact Or.inl rfl
        | some index' =>
          dsimp only
          split
          · exact Or.inl rfl
          · rcases read_stored hfound hread with ⟨rfl, hforeign⟩ | ⟨rfl, hremoves⟩
            · have hsound := sound_attempt (normal_stored hnames file) hnames hattempt
              exact Or.inr ⟨hforeign, _, index', hsound, by rw [hdone], by rw [hdone]⟩
            · have hnone := unwritten_of_removes hattempt hremoves
              rw [hdone] at hnone
              cases hnone

private theorem kept_of_found (hnames : names.Lawful) (hfound : EntryFound names s e) : Kept names s e := by
  have hcases (writer : Writer) (disk : Disk) (haccess : e.access s = some (writer, disk)) :
      (perform names s.file writer disk).1 = s.file ∨ s.file.isForeign = false ∧
        ∃ done index', Sound names writer (s.file.stored names) done ∧ done.write = some index' ∧
          perform names s.file writer disk = (.json index'.value, done.result) :=
    perform_cases hnames (hfound (writer, disk) haccess)
  refine ⟨fun writer disk haccess => ?_, fun writer disk haccess => ?_, fun writer disk error haccess herror => ?_,
    fun writer disk haccess hforeign => ?_⟩
  · rcases hcases writer disk haccess with hsame | ⟨-, done, index', hsound, hwrite, hperform⟩
    · rw [hsame]
      exact Beside.rfl'
    · have hchanges := hsound.changes index' hwrite
      rw [hperform, MetaFile.stored, ofValue_value hchanges.normal]
      exact hchanges.beside
  · rcases hcases writer disk haccess with hsame | ⟨-, done, index', hsound, hwrite, hperform⟩
    · rw [hsame]
      exact fun _ _ hmode _ => hmode
    · have hchanges := hsound.changes index' hwrite
      rw [hperform, MetaFile.stored, ofValue_value hchanges.normal]
      exact hchanges.locks
  · rcases hcases writer disk haccess with hsame | ⟨-, done, index', hsound, hwrite, hperform⟩
    · exact Or.inl hsame
    · rw [hperform] at herror ⊢
      obtain ⟨id, requested, hwriter, hnone, hrepaired⟩ := hsound.raised index' error hwrite herror
      refine Or.inr ⟨id, requested, hwriter, hnone, ?_⟩
      rw [MetaFile.stored, ofValue_value (hsound.changes index' hwrite).normal]
      exact hrepaired
  · rcases hcases writer disk haccess with hsame | ⟨hown, -⟩
    · exact hsame
    · rw [hown] at hforeign
      cases hforeign

def NeverPruned (id : Text) (es : List MetaEvent) : Prop := ∀ e ∈ es, ∀ disk, e ≠ .call (.pruneSession id) disk

/-- In a run none of whose calls takes a file that holds something for an empty index, every call keeps what is not
its own, and a run mode stays until its session is pruned. -/
theorem kept_along_run (hnames : names.Lawful) (hfound : RunMeets (metaStep names) (EntryFound names) s es)
    (hrun : run (metaStep names) s es = some s') :
    RunMeets (metaStep names) (Kept names) s es ∧
      ∀ id mode, (s.file.stored names).lockedMode id = some mode → NeverPruned id es →
        (s'.file.stored names).lockedMode id = some mode := by
  refine ⟨hfound.mono fun _ _ => kept_of_found hnames, fun id mode hmode hnever => ?_⟩
  have hstep : ∀ s e s', (s.file.stored names).lockedMode id = some mode →
      (∀ disk, e ≠ MetaEvent.call (.pruneSession id) disk) ∧ EntryFound names s e → metaStep names s e = some s' →
      (s'.file.stored names).lockedMode id = some mode := by
    intro s e s' hlocked ⟨hprune, hfound⟩ hstep
    obtain ⟨⟨writer, disk⟩, haccess, rfl⟩ := Option.map_eq_some_iff.mp hstep
    refine (kept_of_found hnames hfound).locks writer disk haccess id mode hlocked ?_
    rintro rfl
    cases e with
    | call writer disk' =>
      cases haccess
      exact hprune disk rfl
    | inherit parent child disk' => cases haccess
    | claim n disk' =>
      obtain ⟨_, _, heq⟩ := Option.map_eq_some_iff.mp haccess
      cases heq
  exact run_invariant hstep hmode (hfound.and_mem hnever) hrun

def plainNames : NameRules where
  canonicalize path := path
  casefold := List.map Char.toLower
  lower := List.map Char.toLower

private theorem lawful_plainNames : plainNames.Lawful := ⟨fun _ h => h, fun _ => rfl⟩

def oneAgentSession : MetaState where
  file := .json (MetaIndex.value (withRunMode {} "a".toList .agent))

/-- A child inherits the mode between two other writers, and a failed read only meets a writer that removes. -/
def sharedRun : List MetaEvent :=
  [.inherit "a".toList "c".toList {}, .call (.setSessionFlags "b".toList (some true) none) {},
    .call (.ensureExistingSessionRunMode "a".toList (some .code)) {}, .claim 0 {},
    .call (.recordRecentActivity (some "/w".toList) (some "b".toList)) {},
    .call (.dismissRecentActivity "b".toList) { readFails := true },
    .call (.setSessionFlags "b".toList (some false) none) {}]

theorem kept_sharedRun : ∃ s', run (metaStep plainNames) oneAgentSession sharedRun = some s' ∧
    RunMeets (metaStep plainNames) (Kept plainNames) oneAgentSession sharedRun ∧
    (s'.file.stored plainNames).lockedMode "a".toList = some .agent ∧
    (s'.file.stored plainNames).lockedMode "c".toList = some .agent := by
  obtain ⟨s', hrun, hchild⟩ := exists_run_of_decide (metaStep plainNames) oneAgentSession sharedRun
    (p := fun s => (s.file.stored plainNames).lockedMode "c".toList = some .agent) (fun _ h => h) (by decide)
  obtain ⟨hkept, hlocked⟩ := kept_along_run lawful_plainNames (by decide) hrun
  refine ⟨s', hrun, hkept, hlocked "a".toList .agent (by decide) ?_, hchild⟩
  intro e he disk heq
  simp [sharedRun, heq] at he

/-- A read fails while the other session gets its flags, and then the sessions are listed. -/
def failedReadRun : List MetaEvent :=
  [.call (.setSessionFlags "b".toList (some true) none) { readFails := true },
    .call (.ensureExistingSessionRunModes ["a".toList, "b".toList]) {}]

theorem not_kept_failedReadRun : (oneAgentSession.file.stored plainNames).lockedMode "a".toList = some .agent ∧
    ∃ s', run (metaStep plainNames) oneAgentSession failedReadRun = some s' ∧
      (s'.file.stored plainNames).lockedMode "a".toList = some .code := by
  refine ⟨by decide, exists_run_of_decide (metaStep plainNames) oneAgentSession failedReadRun
    (p := fun s => (s.file.stored plainNames).lockedMode "a".toList = some .code) (fun _ h => h) (by decide)⟩

end Runs

end PrivaCloud.AgentRunner
