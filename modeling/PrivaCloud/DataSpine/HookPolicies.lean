import Mathlib.Logic.Function.Basic
import PrivaCloud.Framework.Sha256
import PrivaCloud.Framework.Table

/-!
# The hook policies

The table `hook_policy` and the calls of `HookPolicyService`. The lists of a row, which are stored as JSON
texts, are kept as lists.
-/

namespace PrivaCloud.DataSpine

open Framework

inductive HookColumn
  | hookType | name | description | events | matcher | timeoutSeconds | interpreter | scriptBody | url | headersJson
  | allowedEnvVars | mcpServer | mcpTool | enabled | enforced | enforcedEvents | defaultOn | target | updatedBy
  deriving DecidableEq

namespace HookColumn

/-- `_WRITABLE` -/
def writable : List (String × HookColumn) :=
  [("hook_type", .hookType), ("name", .name), ("description", .description), ("events", .events), ("matcher", .matcher),
    ("timeout_seconds", .timeoutSeconds), ("interpreter", .interpreter), ("script_body", .scriptBody), ("url", .url),
    ("headers_json", .headersJson), ("allowed_env_vars", .allowedEnvVars), ("mcp_server", .mcpServer),
    ("mcp_tool", .mcpTool), ("enabled", .enabled), ("enforced", .enforced), ("enforced_events", .enforcedEvents),
    ("default_on", .defaultOn), ("target", .target), ("updated_by", .updatedBy)]

def ofName (name : String) : Option HookColumn := writable.lookup name

abbrev type : HookColumn → Type
  | events | allowedEnvVars | enforcedEvents => List String
  | timeoutSeconds => Int
  | enabled | enforced | defaultOn => Bool
  | hookType | name | description | matcher | interpreter | scriptBody | url | headersJson | mcpServer | mcpTool
  | target | updatedBy => String

def activation : List HookColumn := [enabled, enforced, enforcedEvents]

end HookColumn

/-- A `HookPolicyRecord`, and a row of the table -/
structure HookPolicy where
  id : String
  columns : (c : HookColumn) → c.type
  contentHash : String
  predefined : Bool
  seedVersion : Int
  updatedAt : String

/-- `content_hash` -/
def contentHashOf (scriptBody : String) : String := String.ofList (Sha256.hexdigest scriptBody.toList)

namespace HookPolicy

def events (policy : HookPolicy) : List String := policy.columns .events
def enforcedEvents (policy : HookPolicy) : List String := policy.columns .enforcedEvents
def enabled (policy : HookPolicy) : Bool := policy.columns .enabled
def enforced (policy : HookPolicy) : Bool := policy.columns .enforced
def scriptBody (policy : HookPolicy) : String := policy.columns .scriptBody

def set (policy : HookPolicy) (c : HookColumn) (value : c.type) : HookPolicy :=
  { policy with columns := Function.update policy.columns c value }

def withColumns (row : HookPolicy) (mask : List HookColumn) (other : HookPolicy) : HookPolicy :=
  { row with columns := fun c => if c ∈ mask then other.columns c else row.columns c }

/-- `_normalize_activation`, where `ee` is what the mask asks for -/
def wantedEvents (merged : HookPolicy) (mask : List HookColumn) : List String :=
  if .enforcedEvents ∈ mask then merged.enforcedEvents
  else if .enforced ∈ mask then if merged.enforced then merged.events else []
  else if .enabled ∈ mask ∧ merged.enabled = false then []
  else merged.enforcedEvents

def clamped (merged : HookPolicy) (mask : List HookColumn) : HookPolicy :=
  let enforcedEvents := merged.events.filter fun event => event ∈ merged.wantedEvents mask
  (merged.set .enforcedEvents enforcedEvents).set .enforced (!enforcedEvents.isEmpty)

def addTo (mask : List HookColumn) (extra : HookColumn) : List HookColumn :=
  if extra ∈ mask then mask else mask ++ [extra]

/-- `_normalize_activation`: the policy that is changed, and the mask that is returned -/
def normalizeActivation (merged : HookPolicy) (mask : List HookColumn) : HookPolicy × List HookColumn :=
  let merged' := merged.clamped mask
  let out := addTo (addTo mask .enforcedEvents) .enforced
  if merged'.enforced = true ∧ merged'.enabled = false then (merged'.set .enabled true, addTo out .enabled)
  else (merged', out)

end HookPolicy

abbrev HookPolicies := Table HookPolicy.id

namespace HookPolicies

/-- The `CHECK` of the hook type; the other columns have their types. -/
def admissible (row : HookPolicy) : Bool := row.columns .hookType ∈ ["command", "http", "mcp_tool"]

/-- `hook_policy_insert`, or the `IntegrityError` of a constraint -/
def hookPolicyInsert (s : HookPolicies) (row : HookPolicy) : Option HookPolicies :=
  if admissible row then s.insert row else none

/-- `hook_policy_update` of a row, with the fields that `_fields_from` makes of the mask -/
def hookPolicyUpdate (s : HookPolicies) (row merged : HookPolicy) (mask : List HookColumn) (now : String) :
    Option HookPolicies :=
  let written : HookPolicy := { row.withColumns mask merged with
    contentHash := if .scriptBody ∈ mask then contentHashOf merged.scriptBody else row.contentHash
    updatedAt := now }
  if admissible written then some (s.upsert written) else none

end HookPolicies

structure HookSeed where
  id : String
  name : String
  description : String
  events : List String
  matcher : String
  interpreter : String
  scriptBody : String
  timeoutSeconds : Int
  defaultOn : Bool
  enforced : Bool
  seedVersion : Int
  previousHashes : List String

namespace HookSeed

def hash (seed : HookSeed) : String := contentHashOf seed.scriptBody

def knownHashes (seed : HookSeed) : List String := seed.hash :: seed.previousHashes

def enforcedEvents (seed : HookSeed) : List String := if seed.enforced then seed.events else []

def row (seed : HookSeed) (now : String) : HookPolicy where
  id := seed.id
  columns
    | .hookType => "command"
    | .name => seed.name
    | .description => seed.description
    | .events => seed.events
    | .matcher => seed.matcher
    | .timeoutSeconds => seed.timeoutSeconds
    | .interpreter => seed.interpreter
    | .scriptBody => seed.scriptBody
    | .allowedEnvVars => ([] : List String)
    | .enabled => true
    | .enforced => seed.enforced
    | .enforcedEvents => seed.enforcedEvents
    | .defaultOn => seed.defaultOn
    | .updatedBy => "seed"
    | .url | .headersJson | .mcpServer | .mcpTool | .target => ""
  contentHash := seed.hash
  predefined := true
  seedVersion := seed.seedVersion
  updatedAt := now

def upgraded : List HookColumn :=
  [.name, .description, .events, .matcher, .timeoutSeconds, .interpreter, .scriptBody, .enabled, .enforced,
    .enforcedEvents, .defaultOn, .updatedBy]

end HookSeed

/-- `HOOK_SEEDS`, by their script bodies -/
def hookSeeds (body : String → String) : List HookSeed := [
  { id := "block-dangerous-bash", name := "Block Dangerous Commands"
    description := "在执行前拦截 rm -rf、mkfs、dd if=/dev/zero 等破坏性 bash 命令。"
    events := ["PreToolUse"], matcher := "Bash", interpreter := "python3"
    scriptBody := body "block-dangerous-bash", timeoutSeconds := 10, defaultOn := true, enforced := true
    seedVersion := 2, previousHashes := [] },
  { id := "audit-tool-use", name := "Audit Tool Use"
    description := "将每次工具调用写入 Priva 审计日志（JSONL），记录工具名、会话 ID 和事件类型，用于合规与调试。"
    events := ["PreToolUse", "PostToolUse"], matcher := "", interpreter := "python3"
    scriptBody := body "audit-tool-use", timeoutSeconds := 10, defaultOn := true, enforced := true
    seedVersion := 2, previousHashes := [] },
  { id := "lint-on-write", name := "Lint on Write"
    description := "在文件写入/编辑完成后运行 ruff 对修改的文件执行检查并自动修复。"
    events := ["PostToolUse"], matcher := "Write|Edit", interpreter := "bash"
    scriptBody := body "lint-on-write", timeoutSeconds := 30, defaultOn := false, enforced := false
    seedVersion := 1, previousHashes := [] },
  { id := "require-permission-risky-tools", name := "Require Permission for Risky Tools"
    description := "当工具调用匹配预定义的高风险工具模式（如 Bash(rm:*)、Write(/etc/**)）时，暂停智能体并请求用户确认。"
    events := ["PreToolUse"], matcher := "", interpreter := "python3"
    scriptBody := body "require-permission-risky-tools", timeoutSeconds := 10, defaultOn := true, enforced := true
    seedVersion := 3, previousHashes := ["2c5b3089e71b4ee3ef5fa9b307deebfc72eec81a2685e60b7dc2081eaf600a58"] }]

inductive HookError
  | valueError
  | lookupError
  | permissionError
  | integrityError

/-- What a call returns or raises, and the table behind it -/
abbrev HookResult := Except HookError (Option HookPolicy) × HookPolicies

namespace HookPolicies

def named (updateMask : List String) : List HookColumn := updateMask.filterMap HookColumn.ofName

/-- The mask of an update: every column, if no column is named. -/
def maskOf (updateMask : List String) : List HookColumn :=
  if named updateMask = [] then HookColumn.writable.map Prod.snd else named updateMask

def created (policy : HookPolicy) (now : String) : HookPolicy :=
  let create := if policy.enforcedEvents = [] ∧ (policy.enforced || policy.enabled) then
      policy.set .enforcedEvents policy.events
    else policy
  let normalized := (create.normalizeActivation (HookColumn.writable.map Prod.snd)).1
  { normalized with
    contentHash := contentHashOf normalized.scriptBody
    predefined := false
    seedVersion := 0
    updatedAt := now }

def merged (row policy : HookPolicy) (updateMask : List String) : HookPolicy × List HookColumn :=
  (row.withColumns (maskOf updateMask) policy).normalizeActivation (maskOf updateMask)

/-- The end of a call: its one statement has been carried out, or has raised. -/
def finish (s : HookPolicies) (policyId : String) : Option HookPolicies → HookResult
  | none => (.error .integrityError, s)
  | some s' => (.ok (s'.find? policyId), s')

def upsert (s : HookPolicies) (policy : HookPolicy) (updateMask : List String) (expect now : String) : HookResult :=
  match s.find? policy.id with
  | none =>
    if expect = "update" then (.error .lookupError, s)
    else s.finish policy.id (s.hookPolicyInsert (created policy now))
  | some row =>
    if expect = "create" then (.error .valueError, s)
    else s.finish policy.id
      (s.hookPolicyUpdate row (merged row policy updateMask).1 (merged row policy updateMask).2 now)

def delete (s : HookPolicies) (policyId : String) : HookResult :=
  match s.find? policyId with
  | none => (.error .lookupError, s)
  | some row =>
    if row.predefined then (.error .permissionError, s)
    else (.ok none, Table.filter s fun row => row.id ≠ policyId)

/-- `_seed`, for one seed; a row that is not edited is brought up to date. -/
def seedOne (now : String) (s : HookPolicies) (seed : HookSeed) : HookPolicies :=
  match s.find? seed.id with
  | none => (s.hookPolicyInsert (seed.row now)).getD s
  | some row =>
    if row.seedVersion < seed.seedVersion ∧ row.contentHash ∈ seed.knownHashes then
      let written : HookPolicy := { row.withColumns HookSeed.upgraded ((seed.row now).set .updatedBy "seed-upgrade") with
        contentHash := seed.hash
        seedVersion := seed.seedVersion
        updatedAt := now }
      if admissible written then Table.upsert s written else s
    else s

end HookPolicies

inductive HookOp
  | upsert (policy : HookPolicy) (updateMask : List String) (expect now : String)
  | delete (policyId : String)
  | seed (now : String)

def hookCall (body : String → String) (s : HookPolicies) : HookOp → HookResult
  | .upsert policy updateMask expect now => s.upsert policy updateMask expect now
  | .delete policyId => s.delete policyId
  | .seed now => (.ok none, (hookSeeds body).foldl (HookPolicies.seedOne now) s)

def hookRun (body : String → String) (s : HookPolicies) (ops : List HookOp) : HookPolicies :=
  ops.foldl (fun s op => (hookCall body s op).2) s

end PrivaCloud.DataSpine
