import PrivaCloud.Common.CountedLog
import PrivaCloud.Framework.Dict
import PrivaCloud.Framework.Json
import PrivaCloud.Framework.Lines
import PrivaCloud.Framework.Run

/-!
# The hook log

`HookLogStore` of the Runner and the wrapper of managed hooks append to the same daily files; the store also keeps the
sidecar with the total. A line is the entry it was written from with its writer; `json.loads` gives the entry back.
-/

namespace PrivaCloud.AgentRunner

open Framework Common.Jsonl

structure HookLogEntry where
  id : String
  timestamp : String
  eventType : String
  matcher : Option String := none
  handlerType : String
  hookId : Option String := none
  exitCode : Int
  durationMs : Int
  toolName : Option String := none
  error : Option String := none
  deriving DecidableEq

inductive HookWriter
  /-- `model_dump_json` -/
  | store
  /-- `json.dumps` of the wrapper -/
  | managed
  deriving DecidableEq

namespace HookWriter

def layout : HookWriter → JsonLayout
  | .store => .compact
  | .managed => .plain

/-- `model_dump_json` leaves what is not ASCII as it is. -/
def escape : HookWriter → Char → Text
  | .store, c => if 32 ≤ c.toNat ∧ c ≠ '"' ∧ c ≠ '\\' then [c] else Json.escape c
  | .managed, c => Json.escape c

def quote (writer : HookWriter) (text : String) : Text :=
  '"' :: text.toList.flatMap writer.escape ++ ['"']

def quote? (writer : HookWriter) : Option String → Text
  | some text => writer.quote text
  | none => "null".toList

def int (n : Int) : Text := (toString n).toList

/-- The members that come before the event type, and those that come after it. -/
def before (writer : HookWriter) (entry : HookLogEntry) : List (String × Text) :=
  [("id", writer.quote entry.id), ("timestamp", writer.quote entry.timestamp)]

def after (writer : HookWriter) (entry : HookLogEntry) : List (String × Text) :=
  [("matcher", writer.quote? entry.matcher), ("handler_type", writer.quote entry.handlerType),
    ("hook_id", writer.quote? entry.hookId), ("exit_code", int entry.exitCode),
    ("duration_ms", int entry.durationMs), ("tool_name", writer.quote? entry.toolName),
    ("error", writer.quote? entry.error)]

def member (writer : HookWriter) (field : String × Text) : Text :=
  writer.quote field.1 ++ writer.layout.key ++ field.2

/-- The JSON text of an entry, its fields in the order of the model -/
def render (writer : HookWriter) (entry : HookLogEntry) : Text :=
  '\x7b' :: writer.layout.item.intercalate
    ((writer.before entry ++ ("event_type", writer.quote entry.eventType) :: writer.after entry).map
      writer.member) ++ ['\x7d']

end HookWriter

structure HookLine where
  writer : HookWriter
  entry : HookLogEntry

namespace HookLine

def text (line : HookLine) : Text := line.writer.render line.entry

def size (line : HookLine) : Nat := (line.text.map Char.utf8Size).sum + 1

/-- Where `str.splitlines` cuts a line of the file -/
def isLineBreak (c : Char) : Bool :=
  c.toNat ∈ [0x0A, 0x0B, 0x0C, 0x0D, 0x1C, 0x1D, 0x1E, 0x85, 0x2028, 0x2029]

def cut (line : HookLine) : Bool := line.text.any isLineBreak

end HookLine

def prefilter (eventType : Option String) : Option Text :=
  (truthy eventType).map fun type => "\"event_type\":\"".toList ++ type.toList ++ ['"']

/-- `matches` -/
def wanted (eventType : Option String) (entry : HookLogEntry) : Bool :=
  (truthy eventType).all fun type => entry.eventType = type

/-- A line of the file as the query reads it. The text begins and ends with a brace, so that `strip`
leaves it alone; the pieces of a line that `splitlines` cuts are no records. -/
def loadLine (eventType : Option String) (line : HookLine) : Option HookLogEntry :=
  if line.cut then none
  else if (prefilter eventType).any fun substr => ¬ substr <:+: line.text then none
  else if wanted eventType line.entry then some line.entry
  else none

def extractTsId (entry : HookLogEntry) : Cursor := toLex (entry.timestamp, entry.id)

namespace HookLine

def id (line : HookLine) : String := line.entry.id

end HookLine

abbrev HookLog := CountedLog HookLine

def entryDateStr (entry : HookLogEntry) (today : String) : String :=
  let ts := entry.timestamp.toList
  if 10 ≤ ts.length ∧ ts[4]? = some '-' ∧ ts[7]? = some '-' then String.ofList (ts.take 10) else today

/-- What the wrapper has at hand when a managed hook has run. -/
structure ManagedCall where
  /-- `uuid.uuid4().hex` -/
  uuid : String
  /-- the time as `%Y-%m-%dT%H:%M:%S` -/
  clock : String
  hookId : String
  /-- `str(payload.get("hook_event_name", ""))` -/
  eventName : String
  exitCode : Int
  durationMs : Int
  toolName : String
  error : String

def ManagedCall.entry (call : ManagedCall) : HookLogEntry where
  id := call.uuid
  timestamp := call.clock ++ "Z"
  eventType := call.eventName
  matcher := some ""
  handlerType := "managed"
  hookId := some call.hookId
  exitCode := call.exitCode
  durationMs := call.durationMs
  toolName := some call.toolName
  error := some (String.ofList (call.error.toList.take 500))

/-- `HookLogStore.append` -/
def appendEntry (log : HookLog) (entry : HookLogEntry) (today : String) : HookLog :=
  log.append HookLine.id (entryDateStr entry today) ⟨.store, entry⟩

/-- `_append_log` of the wrapper; the day was read from the clock before the time of the entry. -/
def appendManaged (log : HookLog) (call : ManagedCall) (day : String) : HookLog :=
  log.appendUncounted day ⟨.managed, call.entry⟩

/-- `_get_total`: the total, and the log with its sidecar -/
def hookTotal (log : HookLog) : Nat × HookLog := log.getTotal HookLine.size HookLine.id

/-- The pages of `query_cursor` from the first one on -/
def walkHookLog (log : HookLog) (eventType : Option String) (limit fuel : Nat) : Option (List (List HookLogEntry)) :=
  walkPages HookLine.size (fun line => .ok (loadLine eventType line)) extractTsId limit log.files fuel none

def storedEntries (log : HookLog) : List HookLogEntry := log.stored.map (·.entry)

inductive HookLogOp
  | append (entry : HookLogEntry) (today : String)
  | appendManaged (call : ManagedCall) (day : String)
  /-- a query without a filter -/
  | query

/-- Ids are new, and the clock gives dates. -/
def hookLogStep (log : HookLog) : HookLogOp → Option HookLog
  | .append entry today =>
    if entry.id ∉ log.stored.map HookLine.id ∧ isDate today then some (appendEntry log entry today) else none
  | .appendManaged call day =>
    if call.uuid ∉ log.stored.map HookLine.id ∧ isDate day then some (appendManaged log call day) else none
  | .query => some (hookTotal log).2

end PrivaCloud.AgentRunner
