import PrivaCloud.AskUser.AnswerText
import PrivaCloud.Framework.Json

/-!
# The managed policy

The rendering of the enforced hook policies into the data of the ConfigMap
`claude-managed-policy`.
-/

namespace PrivaCloud.Operator

open AskUser (pySpace)
open Framework

/-- The fields of a `HookPolicyRecord` that the rendering reads. -/
structure HookPolicy where
  id : String
  hookType : String := "command"
  events : List String := []
  matcher : String := ""
  timeoutSeconds : Int := 30
  interpreter : String := ""
  scriptBody : String := ""
  contentHash : String := ""
  allowedEnvVars : List String := []
  enabled : Bool := false
  enforced : Bool := false
  enforcedEvents : List String := []
  deriving DecidableEq

/-- The `data` of a ConfigMap, in the order of its insertion. -/
abbrev ConfigData : Type := List (String × List Char)

namespace ManagedPolicyRender

def managedDir : List Char := "/etc/claude-code".toList
def wrapperKey : String := "_wrapper.py"
def settingsKey : String := "managed-settings.json"
def scriptPrefix : List Char := "mh-".toList

def ext (interpreter : String) : String :=
  let name := strip pySpace interpreter.toList
  if name = "bash".toList ∨ name = "sh".toList then "sh" else "py"

def scriptKey (policy : HookPolicy) : String :=
  let h8 := String.ofList (policy.contentHash.toList.take 8)
  "mh-" ++ policy.hookType ++ "-" ++ policy.id ++ "-" ++ h8 ++ "." ++ ext policy.interpreter

/-- The characters that `shlex.quote` leaves alone. -/
def shellSafe (c : Char) : Bool := c.isAlphanum || c ∈ "_@%+=:,./-".toList

/-- `shlex.quote` -/
def shellQuote (text : List Char) : List Char :=
  if text = [] then "''".toList
  else if text.all shellSafe then text
  else '\'' :: (text.flatMap fun c => if c = '\'' then "'\"'\"'".toList else [c]) ++ ['\'']

def renderCommand (policy : HookPolicy) (key : String) : List Char :=
  let interp := strip pySpace (if policy.interpreter = "" then "bash" else policy.interpreter).toList
  [' '].intercalate (["python3".toList, managedDir ++ '/' :: wrapperKey.toList, shellQuote policy.id.toList,
    shellQuote interp, managedDir ++ '/' :: key.toList] ++
    policy.allowedEnvVars.map fun name => shellQuote name.toList)

def entry (policy : HookPolicy) : Json :=
  let command := renderCommand policy (scriptKey policy)
  let timeout := if policy.timeoutSeconds = 0 then 30 else policy.timeoutSeconds
  .obj ([("hooks", .arr [.obj [("type", .str "command"), ("command", .text command), ("timeout", .int timeout)]])] ++
    if policy.matcher = "" then [] else [("matcher", .str policy.matcher)])

/-- The events that the hook fires on; a record without a subset fires on all of its own. -/
def active (policy : HookPolicy) : List String :=
  policy.events.filter fun e =>
    e ∈ (if policy.enforcedEvents.isEmpty then policy.events else policy.enforcedEvents)

/-- `hooks_block.setdefault(event, []).append(entry)` -/
def appendHook (hooks : List (String × List Json)) (event : String) (item : Json) : List (String × List Json) :=
  assign hooks event ((getValue hooks event).getD [] ++ [item])

/-- The policies that are rendered: of those passed, the commands with a script. -/
def rendered (policies : List HookPolicy) : List HookPolicy :=
  policies.filter fun policy => policy.hookType = "command" && policy.scriptBody ≠ ""

def hooksBlock (policies : List HookPolicy) : List (String × List Json) :=
  (rendered policies).foldl (fun hooks policy =>
    (active policy).foldl (fun hooks event => appendHook hooks event (entry policy)) hooks) []

def settingsText (policies : List HookPolicy) : List Char :=
  let hooks := hooksBlock policies
  let settings : List (String × Json) :=
    if hooks.isEmpty then [] else [("hooks", .obj (hooks.map fun h => (h.1, .arr h.2)))]
  (Json.obj settings).dumps (.indented 2) ++ ['\n']

/-- `render_config_map_data`, from the source of the wrapper. -/
def renderConfigMapData (wrapperSource : List Char) (policies : List HookPolicy) : ConfigData :=
  let scripts := (rendered policies).map fun policy => (scriptKey policy, policy.scriptBody.toList)
  assign (assignAll [(wrapperKey, wrapperSource)] scripts) settingsKey (settingsText policies)

/-- `text.rsplit(sep, 1)[0]` -/
def beforeLast (sep : Char) (text : List Char) : List Char :=
  if sep ∈ text then (text.reverse.dropWhile (· ≠ sep)).tail.reverse else text

/-- `_id_of`: the type and the id of the policy of a script. -/
def idOf (key : String) : Option (List Char) :=
  if scriptPrefix.isPrefixOf key.toList then
    some (beforeLast '-' (beforeLast '.' (key.toList.drop scriptPrefix.length)))
  else none

/-- `merge_generations` with `keep=2`: one older script is kept for each policy that is still there. -/
def mergeGenerations (newData oldData : ConfigData) (keep : Nat := 2) : ConfigData :=
  let stale := oldData.filter fun e => (idOf e.1).isSome && (getValue newData e.1).isNone
  let ids := (stale.filterMap fun e => idOf e.1).eraseDups
  let live := newData.filterMap fun e => idOf e.1
  let kept := (ids.filter (· ∈ live)).flatMap fun id =>
    (stale.filter fun e => idOf e.1 = some id).take (keep - 1)
  assignAll newData kept

theorem getValue_mergeGenerations {newData : ConfigData} (oldData : ConfigData) (keep : Nat) {k : String}
    {v : List Char}
    (h : getValue newData k = some v) : getValue (mergeGenerations newData oldData keep) k = some v := by
  unfold mergeGenerations
  simp only
  rw [getValue_assignAll, h]
  -- only keys that the new rendering does not have are kept
  cases hlast : lastUnder _ k with
  | none => rfl
  | some w =>
    obtain ⟨id, -, hkept⟩ := List.mem_flatMap.mp (lastUnder_mem hlast)
    have hstale := List.mem_of_mem_filter (List.mem_of_mem_take hkept)
    simp [h] at hstale

theorem getValue_settings (wrapperSource : List Char) (policies : List HookPolicy) :
    getValue (renderConfigMapData wrapperSource policies) settingsKey = some (settingsText policies) := by
  unfold renderConfigMapData
  rw [getValue_assign, if_pos rfl]

def contentDigest (data : ConfigData) : String :=
  String.ofList (Sha256.hexdigest ((Json.obj (data.map fun e => (e.1, .text e.2))).dumps .plain))

end ManagedPolicyRender

end PrivaCloud.Operator
