import PrivaCloud.AgentRunner.ModelReference
import PrivaCloud.Framework.JsonText
import PrivaCloud.Framework.Run

/-!
# The metadata index of sessions

`session_meta.py`, which keeps flags, tags, run modes and more of the sessions of an account in one JSON file. A
writer reads the file, changes what it has read and writes all of it back, under a lock.
-/

namespace PrivaCloud.AgentRunner

open Framework AskUser JsonText

/-- The entries of a JSON object. A number is the text that `json.dumps` has for it. -/
abbrev Members := List (Text × Value)

def field (entry : Members) (name : String) : Option Value := getValue entry name.toList

def setField (entry : Members) (name : String) (value : Value) : Members := assign entry name.toList value

def textOf : Value → Option Text
  | .str text => some text
  | _ => none

def membersOf : Value → Option Members
  | .obj members => some members
  | _ => none

def isTrue : Value → Bool
  | .null => false
  | .bool b => b
  | .num token => token ∉ ["0".toList, "0.0".toList, "-0.0".toList]
  | .str text => text ≠ []
  | .arr items => !items.isEmpty
  | .obj members => !members.isEmpty

/-- What the index takes from the SDK and the language about names -/
structure NameRules where
  canonicalize : Text → Text
  casefold : Text → Text
  lower : Text → Text

inductive RunMode
  | agent
  | code
  deriving DecidableEq

namespace RunMode

def text : RunMode → Text
  | .agent => "agent".toList
  | .code => "code".toList

def ofText (text : Text) : Option RunMode :=
  if text = "agent".toList then some .agent else if text = "code".toList then some .code else none

theorem ofText_text (mode : RunMode) : ofText mode.text = some mode := by cases mode <;> decide

end RunMode

inductive MetaError
  | runModeMismatch (expected requested : RunMode)
  | invalidRunMode
  | tooManyTags
  | unhashable
  | unreadable
  | disk

inductive ActivityKey
  | session (id : Text)
  | cwd (path : Text)
  deriving DecidableEq

structure Activity where
  sessionId : Option Text
  cwd : Option Text

structure MetaIndex where
  sessions : Members := []
  workdirs : Members := []
  recentActivities : List Activity := []
  schedulerSessions : Members := []
  recaps : Members := []
  lastResponseModels : Members := []
  tagColors : Members := []

def recentActivitiesLimit : Nat := 5
def maxSessionTags : Nat := 3
def tagColorSlots : Nat := 100
def recapMaxChars : Nat := 200

namespace Activity

def key (a : Activity) : ActivityKey :=
  match a.sessionId with
  | some id => .session id
  | none => .cwd (a.cwd.getD [])

def value (a : Activity) : Value :=
  .obj [("session_id".toList, (a.sessionId.map Value.str).getD .null), ("cwd".toList, (a.cwd.map Value.str).getD .null)]

def ofValue (names : NameRules) (item : Value) : Option Activity :=
  (membersOf item).bind fun members =>
    let sessionId := present ((field members "session_id").bind textOf)
    let cwd := (present ((field members "cwd").bind textOf)).map names.canonicalize
    if sessionId = none ∧ present cwd = none then none else some { sessionId, cwd }

end Activity

def firstActivities : Nat → List ActivityKey → List Activity → List Activity
  | 0, _, _ => []
  | _, _, [] => []
  | n + 1, seen, a :: rest =>
    if a.key ∈ seen then firstActivities (n + 1) seen rest else a :: firstActivities n (a.key :: seen) rest

def normalizeRecentActivities (names : NameRules) : Option Value → List Activity
  | some (.arr items) => firstActivities recentActivitiesLimit [] (items.filterMap (Activity.ofValue names))
  | _ => []

namespace MetaIndex

def value (index : MetaIndex) : Value :=
  .obj
    [("sessions".toList, .obj index.sessions), ("workdirs".toList, .obj index.workdirs),
      ("recent_activities".toList, .arr (index.recentActivities.map Activity.value)),
      ("scheduler_sessions".toList, .obj index.schedulerSessions), ("recaps".toList, .obj index.recaps),
      ("last_response_models".toList, .obj index.lastResponseModels), ("tag_colors".toList, .obj index.tagColors)]

def ofValue (names : NameRules) (v : Value) : MetaIndex :=
  match v with
  | .obj data =>
    let dictAt (name : String) : Members := ((field data name).bind membersOf).getD []
    { sessions := dictAt "sessions"
      workdirs := dictAt "workdirs"
      recentActivities := normalizeRecentActivities names (field data "recent_activities")
      schedulerSessions := dictAt "scheduler_sessions"
      recaps := dictAt "recaps"
      lastResponseModels := dictAt "last_response_models"
      tagColors := dictAt "tag_colors" }
  | _ => {}

def isEmpty (index : MetaIndex) : Bool :=
  index.sessions.isEmpty && index.workdirs.isEmpty && index.recentActivities.isEmpty &&
    index.schedulerSessions.isEmpty && index.recaps.isEmpty && index.lastResponseModels.isEmpty &&
    index.tagColors.isEmpty

def getRecentActivities (names : NameRules) (index : MetaIndex) : List Activity :=
  normalizeRecentActivities names (some (.arr (index.recentActivities.map Activity.value)))

/-- The entry of a session, or a new one -/
def entry (index : MetaIndex) (sessionId : Text) : Members :=
  ((getValue index.sessions sessionId).bind membersOf).getD
    [("pinned".toList, .bool false), ("archived".toList, .bool false)]

def setEntry (index : MetaIndex) (sessionId : Text) (entry : Members) : MetaIndex :=
  { index with sessions := assign index.sessions sessionId (.obj entry) }

def lockedMode (index : MetaIndex) (sessionId : Text) : Option RunMode :=
  (getValue index.sessions sessionId).bind fun entry =>
    (membersOf entry).bind fun members => ((field members "run_mode").bind textOf).bind RunMode.ofText

end MetaIndex

/-- `entry.get("run_mode")` where it is in `_RUN_MODES`; to look for a list or an object in a set raises. -/
def runModeOf (entry : Members) : Except MetaError (Option RunMode) :=
  match field entry "run_mode" with
  | some (.str text) => .ok (RunMode.ofText text)
  | some (.arr _) | some (.obj _) => .error .unhashable
  | _ => .ok none

def tagTexts : Value → List Text
  | .str text => [text]
  | .arr items => items.filterMap textOf
  | _ => []

/-- `_normalize_tags` without truncation, with room for some more tags -/
def normalizeTags (names : NameRules) : Nat → List Text → List Text → Except MetaError (List Text)
  | _, _, [] => .ok []
  | room, seen, item :: rest =>
    let tag := strip pySpace item
    if tag = [] ∨ names.casefold tag ∈ seen then normalizeTags names room seen rest
    else
      match room with
      | 0 => .error .tooManyTags
      | room + 1 => (normalizeTags names room (names.casefold tag :: seen) rest).map (tag :: ·)

def normalizeSessionTags (names : NameRules) (tags : Value) : Except MetaError (List Text) :=
  normalizeTags names maxSessionTags [] (tagTexts tags)

def slotOf : Value → Option Nat
  | .bool b => some b.toNat
  | .num token => (List.range tagColorSlots).find? fun slot => Nat.toDigits 10 slot = token
  | _ => none

/-- FNV-1a -/
def fallbackTagColorIndex (names : NameRules) (tag : Text) : Nat :=
  ((names.lower tag).flatMap fun c => (String.utf8EncodeChar c).map UInt8.toNat).foldl
    (fun value byte => ((value ^^^ byte) * 16777619) % 2 ^ 32) 2166136261 % tagColorSlots

def registeredTagColor (names : NameRules) (registry : Members) (tag : Text) : Option Nat :=
  match (getValue registry tag).bind slotOf with
  | some slot => some slot
  | none =>
    registry.findSome? fun e => if names.casefold e.1 = names.casefold tag then slotOf e.2 else none

def freeSlot (used : List Nat) (start : Nat) : Nat :=
  (((List.range tagColorSlots).map fun offset => (start + offset) % tagColorSlots).find? (· ∉ used)).getD start

/-- The loop of `_reserve_tag_colors`, and whether it changes the registry -/
def reserveTags (names : NameRules) : List Text → List Nat → List Text → Members → Members × Bool
  | _, _, [], registry => (registry, false)
  | seen, used, value :: rest, registry =>
    let tag := strip pySpace value
    let folded := names.casefold tag
    if tag = [] ∨ folded ∈ seen then reserveTags names seen used rest registry
    else if (registeredTagColor names registry tag).isSome then reserveTags names (folded :: seen) used rest registry
    else
      let slot := freeSlot used (fallbackTagColorIndex names tag)
      let later := reserveTags names (folded :: seen) (slot :: used) rest
        (assign registry tag (.num (Nat.toDigits 10 slot)))
      (later.1, true)

def reserveTagColors (names : NameRules) (index : MetaIndex) (tags : List Text) : MetaIndex × Bool :=
  let reserved := reserveTags names [] (index.tagColors.filterMap fun e => slotOf e.2) tags index.tagColors
  ({ index with tagColors := reserved.1 }, reserved.2)

/-- What a writer writes under the lock, and what it returns or raises after that -/
structure Section where
  write : Option MetaIndex := none
  result : Except MetaError (Option RunMode) := .ok none

/-- A writer returns at once, or it reads the index under the lock. -/
inductive Writing
  | leave (result : Except MetaError (Option RunMode))
  | locked (body : MetaIndex → Section)

def written : Except MetaError MetaIndex → Section
  | .ok index => { write := some index }
  | .error e => { result := .error e }

section Writers

variable (names : NameRules)

def ensureTagColors (tags : Value) : Writing := .locked fun index =>
  let reserved := reserveTagColors names index (tagTexts tags)
  if reserved.2 then { write := some reserved.1 } else {}

def withRunMode (index : MetaIndex) (sessionId : Text) (mode : RunMode) : MetaIndex :=
  index.setEntry sessionId (setField (index.entry sessionId) "run_mode" (.str mode.text))

def lockedTo (requested : Option RunMode) (mode : RunMode) : Except MetaError (Option RunMode) :=
  match requested with
  | some requested => if requested = mode then .ok (some mode) else .error (.runModeMismatch mode requested)
  | none => .ok (some mode)

def ensureExistingSessionRunMode (sessionId : Text) (requested : Option RunMode) : Writing := .locked fun index =>
  match runModeOf (index.entry sessionId) with
  | .error e => { result := .error e }
  | .ok (some mode) => { result := lockedTo requested mode }
  | .ok none => { write := some (withRunMode index sessionId .code), result := lockedTo requested .code }

/-- The loop of `ensure_existing_session_run_modes`, and whether it changes the index -/
def ensureModes : List Text → MetaIndex → Except MetaError (MetaIndex × Bool)
  | [], index => .ok (index, false)
  | sessionId :: rest, index =>
    if sessionId = [] then ensureModes rest index
    else
      match runModeOf (index.entry sessionId) with
      | .error e => .error e
      | .ok (some _) => ensureModes rest index
      | .ok none => (ensureModes rest (withRunMode index sessionId .code)).map fun ensured => (ensured.1, true)

def ensureExistingSessionRunModes (sessionIds : List Text) : Writing := .locked fun index =>
  match ensureModes sessionIds index with
  | .error e => { result := .error e }
  | .ok (ensured, changed) => if changed then { write := some ensured } else {}

def claimNewSessionRunMode (sessionId runMode : Text) : Writing :=
  match RunMode.ofText runMode with
  | none => .leave (.error .invalidRunMode)
  | some requested => .locked fun index =>
    match runModeOf (index.entry sessionId) with
    | .error e => { result := .error e }
    | .ok (some existing) => { result := lockedTo (some requested) existing }
    | .ok none => { write := some (withRunMode index sessionId requested), result := .ok (some requested) }

/-- An entry is stored if it has flags, tags or a run mode, and dropped otherwise. -/
def keepEntry (index : MetaIndex) (sessionId : Text) (entry : Members) : Except MetaError MetaIndex :=
  if ["pinned", "archived", "tags"].any fun name => (field entry name).any isTrue then
    .ok (index.setEntry sessionId entry)
  else
    (runModeOf entry).map fun mode =>
      if mode.isSome then index.setEntry sessionId entry
      else { index with sessions := index.sessions.filter (·.1 ≠ sessionId) }

def setFlag (entry : Members) (name : String) : Option Bool → Members
  | some flag => setField entry name (.bool flag)
  | none => entry

def setSessionFlags (sessionId : Text) (pinned archived : Option Bool) : Writing := .locked fun index =>
  written (keepEntry index sessionId (setFlag (setFlag (index.entry sessionId) "pinned" pinned) "archived" archived))

def setSessionTags (sessionId : Text) (tags : Value) : Writing :=
  match normalizeSessionTags names tags with
  | .error e => .leave (.error e)
  | .ok normalized => .locked fun index =>
    let entry := index.entry sessionId
    let entry := if normalized ≠ [] then setField entry "tags" (.arr (normalized.map .str))
      else entry.filter (·.1 ≠ "tags".toList)
    written ((keepEntry index sessionId entry).map fun kept => (reserveTagColors names kept normalized).1)

def setWorkdirPinned (cwd : Text) (pinned : Bool) : Writing := .locked fun index =>
  let key := names.canonicalize cwd
  { write := some { index with
      workdirs := if pinned then assign index.workdirs key (.obj [("pinned".toList, .bool true)])
        else index.workdirs.filter (·.1 ≠ key) } }

def otherActivities (index : MetaIndex) (sessionId : Text) : List Activity :=
  (index.getRecentActivities names).filter fun a => a.sessionId ≠ some sessionId

def recordRecentActivity (cwd sessionId : Option Text) : Writing := .locked fun index =>
  match present sessionId with
  | none => {}
  | some id =>
    let entry : Activity := { sessionId := some id, cwd := (present cwd).map names.canonicalize }
    { write := some { index with
        recentActivities := (entry :: otherActivities names index id).take recentActivitiesLimit } }

def dismissRecentActivity (sessionId : Text) : Writing := .locked fun index =>
  let activities := otherActivities names index sessionId
  if sessionId = [] ∨ activities.length = index.recentActivities.length then {}
  else { write := some { index with recentActivities := activities } }

def setSchedulerSession (sessionId jobId jobName runId : Text) : Writing :=
  if sessionId = [] then .leave (.ok none)
  else .locked fun index =>
    { write := some { index with
        schedulerSessions := assign index.schedulerSessions sessionId
          (.obj [("job_id".toList, .str jobId), ("job_name".toList, .str jobName), ("run_id".toList, .str runId)]) } }

def integer (n : Int) : Value := .num (toString n).toList

/-- `" ".join(text.split())[:_RECAP_MAX_CHARS].strip()` -/
def recapText (text : Text) : Text :=
  strip pySpace (([' '].intercalate ((text.splitOnP pySpace).filter (· ≠ []))).take recapMaxChars)

def setRecap (sessionId text : Text) (turns : Int) : Writing :=
  if sessionId = [] ∨ recapText text = [] then .leave (.ok none)
  else .locked fun index =>
    { write := some { index with
        recaps := assign index.recaps sessionId
          (.obj [("text".toList, .str (recapText text)), ("turns".toList, integer turns)]) } }

/-- The model of a selection, as `_normalize_response_model` reads it -/
def selectedModel (model : Value) : Option (Text × Option Text) :=
  (membersOf model).bind fun members =>
    let capabilities := (field members "capabilities").bind membersOf
    normalizeResponseModel (.nested ((field members "id").bind textOf)
      ((capabilities.bind fun c => field c "context").bind textOf))

/-- `set_last_response_model` -/
def setSessionModel (sessionId : Text) (model : Value) (profileId : Option Text) (observedAt : Option Int) (now : Int) :
    Writing :=
  match selectedModel model, present (profileId.map (strip pySpace)) with
  | some (id, context), some profileId =>
    if sessionId = [] then .leave (.ok none)
    else .locked fun index =>
      let capabilities : Value := .obj [("context".toList, (context.map Value.str).getD .null)]
      { write := some { index with
          lastResponseModels := assign index.lastResponseModels sessionId
            (.obj
              [("profile_id".toList, .str profileId),
                ("model".toList, .obj [("id".toList, .str id), ("capabilities".toList, capabilities)]),
                ("model_source".toList, .str "profile".toList),
                ("observed_at".toList, integer (observedAt.getD now))]) } }
  | _, _ => .leave (.ok none)

def archiveAll (index : MetaIndex) (sessionIds : List Text) : MetaIndex :=
  sessionIds.foldl (fun index id => index.setEntry id (setField (index.entry id) "archived" (.bool true))) index

def archiveWorkdir (sessionIds : List Text) : Writing := .locked fun index =>
  { write := some (archiveAll index sessionIds) }

/-- `pop(session_id, None) is not None` -/
def pops (members : Members) (sessionId : Text) : Bool :=
  match getValue members sessionId with
  | none | some .null => false
  | some _ => true

def pruneSession (sessionId : Text) : Writing := .locked fun index =>
  let without (members : Members) : Members := members.filter (·.1 ≠ sessionId)
  let activities := otherActivities names index sessionId
  let shorter : Bool := activities.length ≠ index.recentActivities.length
  if pops index.sessions sessionId || pops index.schedulerSessions sessionId || pops index.recaps sessionId ||
      pops index.lastResponseModels sessionId || shorter then
    { write := some { index with
        sessions := without index.sessions
        schedulerSessions := without index.schedulerSessions
        recaps := without index.recaps
        lastResponseModels := without index.lastResponseModels
        recentActivities := if shorter then activities else index.recentActivities } }
  else {}

inductive Writer
  | ensureTagColors (tags : Value)
  | ensureExistingSessionRunMode (sessionId : Text) (requested : Option RunMode)
  | ensureExistingSessionRunModes (sessionIds : List Text)
  | claimNewSessionRunMode (sessionId runMode : Text)
  | setSessionFlags (sessionId : Text) (pinned archived : Option Bool)
  | setSessionTags (sessionId : Text) (tags : Value)
  | setWorkdirPinned (cwd : Text) (pinned : Bool)
  | recordRecentActivity (cwd sessionId : Option Text)
  | dismissRecentActivity (sessionId : Text)
  | setSchedulerSession (sessionId jobId jobName runId : Text)
  | setRecap (sessionId text : Text) (turns : Int)
  | setLastResponseModel (sessionId : Text) (model : Value) (profileId : Option Text) (observedAt : Option Int)
      (now : Int)
  | archiveWorkdir (sessionIds : List Text)
  | pruneSession (sessionId : Text)

def Writer.attempt : Writer → Writing
  | .ensureTagColors tags => AgentRunner.ensureTagColors names tags
  | .ensureExistingSessionRunMode id requested => AgentRunner.ensureExistingSessionRunMode id requested
  | .ensureExistingSessionRunModes ids => AgentRunner.ensureExistingSessionRunModes ids
  | .claimNewSessionRunMode id mode => AgentRunner.claimNewSessionRunMode id mode
  | .setSessionFlags id pinned archived => AgentRunner.setSessionFlags id pinned archived
  | .setSessionTags id tags => AgentRunner.setSessionTags names id tags
  | .setWorkdirPinned cwd pinned => AgentRunner.setWorkdirPinned names cwd pinned
  | .recordRecentActivity cwd id => AgentRunner.recordRecentActivity names cwd id
  | .dismissRecentActivity id => AgentRunner.dismissRecentActivity names id
  | .setSchedulerSession id jobId jobName runId => AgentRunner.setSchedulerSession id jobId jobName runId
  | .setRecap id text turns => AgentRunner.setRecap id text turns
  | .setLastResponseModel id model profileId observedAt now => setSessionModel id model profileId observedAt now
  | .archiveWorkdir ids => AgentRunner.archiveWorkdir ids
  | .pruneSession id => AgentRunner.pruneSession names id

/-- What is under the path of the index: nothing, bytes that are no text, a text that is no JSON, or a value -/
inductive MetaFile
  | absent
  | undecodable
  | malformed
  | json (value : Value)

/-- Whether a read fails with an `OSError`, and whether a write does -/
structure Disk where
  readFails : Bool := false
  writeFails : Bool := false

/-- `_read_raw`; `none` when it raises. -/
def readRaw (file : MetaFile) (disk : Disk) : Option MetaIndex :=
  if disk.readFails then some {}
  else
    match file with
    | .absent => some {}
    | .undecodable => none
    | .malformed => some {}
    | .json value => some (MetaIndex.ofValue names value)

def perform (file : MetaFile) (writer : Writer) (disk : Disk) : MetaFile × Except MetaError (Option RunMode) :=
  match writer.attempt names with
  | .leave result => (file, result)
  | .locked body =>
    match readRaw names file disk with
    | none => (file, .error .unreadable)
    | some index =>
      match body index with
      | { write := none, result } => (file, result)
      | { write := some index', result } =>
        if disk.writeFails then (file, .error .disk) else (.json index'.value, result)

/-- The file, and the children that have still to inherit the mode that their parents had -/
structure MetaState where
  file : MetaFile
  inheriting : List (Text × RunMode) := []

/-- A writer, or one of the two halves of `inherit_session_run_mode`. Anything may come between these. -/
inductive MetaEvent
  | call (writer : Writer) (disk : Disk)
  | inherit (parent child : Text) (disk : Disk)
  | claim (n : Nat) (disk : Disk)

def MetaEvent.access (s : MetaState) : MetaEvent → Option (Writer × Disk)
  | .call writer disk => some (writer, disk)
  | .inherit parent _ disk => some (.ensureExistingSessionRunMode parent none, disk)
  | .claim n disk => s.inheriting[n]?.map fun child => (.claimNewSessionRunMode child.1 child.2.text, disk)

def metaStep (s : MetaState) (e : MetaEvent) : Option MetaState :=
  (e.access s).map fun access =>
    let done := perform names s.file access.1 access.2
    { file := done.1
      inheriting :=
        match e, done.2 with
        | .inherit _ child _, .ok (some mode) => s.inheriting ++ [(child, mode)]
        | .claim n _, _ => s.inheriting.eraseIdx n
        | _, _ => s.inheriting }

end Writers

end PrivaCloud.AgentRunner
