import Mathlib.Data.Rat.Defs
import PrivaCloud.AgentRunner.TranscriptReaders

/-!
# Healing a transcript

`heal_orphan_tool_uses` of `session_heal.py` and `strip_synthetic_records` of `retry.py` on the bytes of a
session file. `json.loads`, `json.dumps` and `str` are parameters. An exception is `none`.
-/

namespace PrivaCloud.AgentRunner.TranscriptHealing

open Framework
open AgentRunner.TranscriptReaders

inductive Number
  | finite (q : ℚ)
  | infinity
  | negInfinity
  | nan
  deriving DecidableEq

inductive Value
  | null
  | bool (b : Bool)
  | number (n : Number)
  | str (s : List Nat)
  | array (items : List Value)
  | object (fields : List (List Nat × Value))

/-- What a dictionary compares of its keys: `True` is `1`. -/
inductive Key
  | none
  | number (n : Number)
  | str (s : List Nat)
  deriving DecidableEq

def text (s : String) : List Nat := s.toList.map Char.toNat

private theorem text_ofList (l : List Char) : text (String.ofList l) = l.map Char.toNat := by
  rw [text, String.toList_ofList]

namespace Value

/-- The key that a value is; lists and dictionaries are not hashable. -/
def key? : Value → Option Key
  | .null => some .none
  | .bool b => some (.number (.finite (if b then 1 else 0)))
  | .number n => some (.number n)
  | .str s => some (.str s)
  | .array _ => none
  | .object _ => none

/-- `bool(value)` -/
def truthy : Value → Bool
  | .null => false
  | .bool b => b
  | .number n => n ≠ .finite 0
  | .str s => !s.isEmpty
  | .array items => !items.isEmpty
  | .object fields => !fields.isEmpty

/-- `value or default` -/
def orElse (value default : Value) : Value := if value.truthy then value else default

/-- `value == s` -/
def isText (value : Value) (s : String) : Bool :=
  match value with
  | .str s' => s' = text s
  | _ => false

end Value

abbrev Fields : Type := List (List Nat × Value)

def Fields.get (fields : Fields) (name : String) (default : Value) : Value :=
  ((fields.find? fun field => field.1 = text name).map (·.2)).getD default

/-- The lines of a text, without their ends; what comes after the last newline is the last one. -/
def textPieces (text : List Nat) : List (List Nat) := splitBy isLF (universalNewlines text)

/-- `for line in handle`, with the newlines. -/
def fileLines (text : List Nat) : List (List Nat) :=
  (textPieces text).dropLast.map (· ++ [0x0a]) ++ (textPieces text).getLast?.toList.filter (· ≠ [])

/-- The lines as `line.rstrip("\n")` leaves them. -/
def rawLines (text : List Nat) : List (List Nat) :=
  (textPieces text).dropLast ++ (textPieces text).getLast?.toList.filter (· ≠ [])

private theorem notMem_universalNewlines (text : List Nat) : ∀ c ∈ universalNewlines text, isCR c = false := by
  induction text using universalNewlines.induct with
  | case1 rest ih =>
    rw [universalNewlines]
    intro c hc
    rcases List.mem_cons.mp hc with rfl | hc
    · rfl
    · exact ih c hc
  | case2 rest hrest ih =>
    rw [universalNewlines]
    · intro c hc
      rcases List.mem_cons.mp hc with rfl | hc
      · rfl
      · exact ih c hc
    · exact hrest
  | case3 c rest hc hc' ih =>
    rw [universalNewlines]
    · intro d hd
      rcases List.mem_cons.mp hd with rfl | hd
      · exact decide_eq_false hc'
      · exact ih d hd
    · exact hc
    · exact hc'
  | case4 => simp [universalNewlines]

variable {c : Nat}

private theorem universalNewlines_cons (hc : isCR c = false) (rest : List Nat) :
    universalNewlines (c :: rest) = c :: universalNewlines rest := by
  have hc : c ≠ 0x0d := of_decide_eq_false hc
  rw [universalNewlines]
  · intro _ h _
    exact hc h
  · exact hc

private theorem universalNewlines_of_notMem {text : List Nat} (h : ∀ c ∈ text, isCR c = false) :
    universalNewlines text = text := by
  induction text with
  | nil => rfl
  | cons c rest ih =>
    rw [universalNewlines_cons (h c List.mem_cons_self), ih fun d hd => h d (List.mem_cons_of_mem _ hd)]

private theorem universalNewlines_append (hLF : isLF c = false) (text rest : List Nat) :
    universalNewlines (text ++ c :: rest) = universalNewlines text ++ universalNewlines (c :: rest) := by
  induction text using universalNewlines.induct with
  | case1 text ih =>
    rw [List.cons_append, List.cons_append, universalNewlines, universalNewlines, ih, List.cons_append]
  | case2 text htext ih =>
    rw [List.cons_append, universalNewlines, universalNewlines, ih, List.cons_append]
    · exact htext
    · intro rest' hrest
      cases text with
      | nil =>
        obtain ⟨rfl, -⟩ := List.cons.inj hrest
        cases hLF
      | cons d text =>
        obtain ⟨rfl, -⟩ := List.cons.inj hrest
        exact htext _ rfl
  | case3 d text hd hd' ih =>
    have hd : isCR d = false := decide_eq_false hd'
    rw [List.cons_append, universalNewlines_cons hd, universalNewlines_cons hd, ih, List.cons_append]
  | case4 => rfl

private theorem exists_textPieces (text : List Nat) :
    ∃ front last, textPieces text = front ++ [last] ∧ ∀ c ∈ last, isLF c = false :=
  exists_splitBy_concat isLF (universalNewlines text)

variable {last line : List Nat}

private theorem isCR_of_mem_textPieces {text : List Nat} (h : line ∈ textPieces text) : ∀ c ∈ line, isCR c = false := by
  intro c hc
  exact notMem_universalNewlines text c (of_mem_splitBy h c hc).1

private theorem isLF_of_mem_textPieces {text : List Nat} (h : line ∈ textPieces text) : ∀ c ∈ line, isLF c = false :=
  fun c hc => (of_mem_splitBy h c hc).2

variable {front : List (List Nat)}

private theorem textPieces_append {text : List Nat}
    (htext : textPieces text = front ++ [last]) (hne : line ≠ []) (hCR : ∀ c ∈ line, isCR c = false)
    (hLF : ∀ c ∈ line, isLF c = false) : textPieces (text ++ (line ++ [0x0a])) = front ++ [last ++ line] ++ [[]] := by
  obtain ⟨c, rest, rfl⟩ := List.exists_cons_of_ne_nil hne
  have hwhole : ∀ d ∈ c :: rest ++ [0x0a], isCR d = false := by
    intro d hd
    rcases List.mem_append.mp hd with hd | hd
    · exact hCR d hd
    · rw [List.mem_singleton.mp hd]
      rfl
  rw [textPieces, List.cons_append, universalNewlines_append (hLF c List.mem_cons_self), ← List.cons_append,
    universalNewlines_of_notMem hwhole, ← List.append_assoc, splitBy_append_sep rfl,
    splitBy_append_last htext hLF]

private theorem textPieces_flatMap {lines : List (List Nat)} (hCR : ∀ line ∈ lines, ∀ c ∈ line, isCR c = false)
    (hLF : ∀ line ∈ lines, ∀ c ∈ line, isLF c = false) :
    textPieces (lines.flatMap (· ++ [0x0a])) = lines ++ [[]] := by
  have hwhole : ∀ c ∈ lines.flatMap (· ++ [0x0a]), isCR c = false := by
    intro c hc
    obtain ⟨line, hline, hc⟩ := List.mem_flatMap.mp hc
    rcases List.mem_append.mp hc with hc | hc
    · exact hCR line hline c hc
    · rw [List.mem_singleton.mp hc]
      rfl
  rw [textPieces, universalNewlines_of_notMem hwhole, splitBy_flatMap rfl hLF]

private theorem rawLines_of_textPieces {text : List Nat}
    (h : textPieces text = front ++ [last]) : rawLines text = front ++ [last].filter (· ≠ []) := by
  rw [rawLines, h, List.dropLast_concat, List.getLast?_concat]
  rfl

private theorem fileLines_of_textPieces {text : List Nat}
    (h : textPieces text = front ++ [last]) :
    fileLines text = front.map (· ++ [0x0a]) ++ [last].filter (· ≠ []) := by
  rw [fileLines, h, List.dropLast_concat, List.getLast?_concat]
  rfl

structure ToolUse where
  key : Key
  id : Value
  name : Value

/-- `tool_uses` in insertion order, and `tool_results`. -/
structure Scan where
  toolUses : List ToolUse := []
  toolResults : List Key := []

/-- `tool_uses[id] = name`: a key that is there keeps its place. -/
def Scan.use (scan : Scan) (key : Key) (id name : Value) : Scan :=
  if scan.toolUses.any (·.key = key) then
    { scan with toolUses := scan.toolUses.map fun use => if use.key = key then { use with name := name } else use }
  else { scan with toolUses := scan.toolUses ++ [{ key := key, id := id, name := name }] }

def Scan.result (scan : Scan) (key : Key) : Scan := { scan with toolResults := key :: scan.toolResults }

def Scan.orphans (scan : Scan) : List ToolUse := scan.toolUses.filter fun use => use.key ∉ scan.toolResults

def scanBlock (scan : Scan) : Value → Option Scan
  | .object block =>
    if (Fields.get block "type" .null).isText "tool_use" then
      (Fields.get block "id" .null).key?.map fun key =>
        scan.use key (Fields.get block "id" .null) (Fields.get block "name" (.str (text "unknown")))
    else if (Fields.get block "type" .null).isText "tool_result" then
      (Fields.get block "tool_use_id" .null).key?.map scan.result
    else some scan
  | _ => some scan

/-- `rec.get` and `msg.get` raise when there is no dictionary. -/
def scanRecord (scan : Scan) : Value → Option Scan
  | .object record =>
    match (Fields.get record "message" .null).orElse (.object []) with
    | .object message =>
      match (Fields.get message "content" .null).orElse (.array []) with
      | .array blocks => blocks.foldlM scanBlock scan
      | _ => some scan
    | _ => none
  | _ => none

section Json

variable (loads : List Nat → Option Value) (dumps : Value → List Nat) (format : Value → List Nat)

/-- The loop over the lines; what `json.loads` does not accept is passed over. -/
def scanLines (scan : Scan) : List (List Nat) → Option Scan
  | [] => some scan
  | line :: lines =>
    match loads line with
    | none => scanLines scan lines
    | some record => (scanRecord scan record).bind fun scan => scanLines scan lines

def interrupted (use : ToolUse) : Fields :=
  [(text "type", .str (text "tool_result")), (text "tool_use_id", use.id), (text "content", .str
      (text "[Tool interrupted] " ++ format use.name ++ text " did not complete before the session ended.")),
    (text "is_error", .bool true)]

def synthetic (sessionId : List Nat) (orphans : List ToolUse) : Value :=
  .object
    [(text "type", .str (text "user")), (text "message", .object
        [(text "role", .str (text "user")),
          (text "content", .array (orphans.map fun use => .object (interrupted format use)))]),
      (text "session_id", .str sessionId)]

/-- `heal_orphan_tool_uses`; there is no file where no path can be made or it does not exist. -/
def healOrphanToolUses (sessionId : List Nat) : Option (List UInt8) → Option (Nat × Option (List UInt8))
  | none => some (0, none)
  | some content =>
    if sessionId = [] then some (0, some content)
    else
      (Utf8.decode false content).bind fun text =>
        (scanLines loads {} (fileLines text)).map fun scan =>
          if scan.orphans = [] then (0, some content)
          else
            (scan.orphans.length,
              some (content ++ Utf8.encode (dumps (synthetic format sessionId scan.orphans) ++ [0x0a])))

def isSyntheticRecord : Value → Bool
  | .object record =>
    match Fields.get record "message" .null with
    | .object message => (Fields.get message "model" .null).isText "<synthetic>"
    | _ => false
  | _ => false

/-- The lines that are kept and the number of those that are removed. -/
def stripLines : List (List Nat) → List (List Nat) × Nat
  | [] => ([], 0)
  | line :: lines =>
    let (kept, removed) := stripLines lines
    let raw := line.rdropWhile isLF
    if stripBy pySpace raw = [] then (kept, removed)
    else
      match loads raw with
      | none => (raw :: kept, removed)
      | some record => if isSyntheticRecord record then (kept, removed + 1) else (raw :: kept, removed)

def stripSyntheticRecords : Option (List UInt8) → Nat × Option (List UInt8)
  | none => (0, none)
  | some content =>
    match Utf8.decode false content with
    | none => (0, some content)
    | some text =>
      let (kept, removed) := stripLines loads (fileLines text)
      if removed = 0 then (0, some content)
      else (removed, some (Utf8.encode (kept.flatMap (· ++ [0x0a]))))

end Json

/-- `isinstance(value, dict)` -/
def Value.fields? : Value → Option Fields
  | .object fields => some fields
  | _ => none

/-- The dictionaries of the content of a message, where it is a list. -/
def Value.blocks : Value → List Fields
  | .object record =>
    match (Fields.get record "message" .null).orElse (.object []) with
    | .object message =>
      match (Fields.get message "content" .null).orElse (.array []) with
      | .array blocks => blocks.filterMap Value.fields?
      | _ => []
    | _ => []
  | _ => []

def Fields.isToolUse (block : Fields) : Bool := (block.get "type" .null).isText "tool_use"

def Fields.isToolResult (block : Fields) : Bool := (block.get "type" .null).isText "tool_result"

def Fields.toolUseId? (block : Fields) : Option Key :=
  if block.isToolUse then (block.get "id" .null).key? else none

def Fields.toolResultId? (block : Fields) : Option Key :=
  if block.isToolResult then (block.get "tool_use_id" .null).key? else none

def toolUseIds (record : Value) : List Key := record.blocks.filterMap Fields.toolUseId?

def toolResultIds (record : Value) : List Key := record.blocks.filterMap Fields.toolResultId?

def Fields.Hashable (block : Fields) : Prop :=
  (block.isToolUse → (block.get "id" .null).key? ≠ none) ∧
    (block.isToolResult → (block.get "tool_use_id" .null).key? ≠ none)

/-- A dictionary whose message, if there is one, is a dictionary, with hashable ids. -/
def Readable (record : Value) : Prop :=
  (∃ fields message, record = .object fields ∧
    (Fields.get fields "message" .null).orElse (.object []) = .object message) ∧
  ∀ block ∈ record.blocks, block.Hashable

def Answered (records : List Value) : Prop :=
  ∀ id ∈ records.flatMap toolUseIds, id ∈ records.flatMap toolResultIds

structure Scan.Adds (scan scan' : Scan) (uses results : List Key) : Prop where
  keyed : (∀ use ∈ scan.toolUses, use.id.key? = some use.key) → ∀ use ∈ scan'.toolUses, use.id.key? = some use.key
  uses : ∀ id, id ∈ scan'.toolUses.map (·.key) ↔ id ∈ scan.toolUses.map (·.key) ∨ id ∈ uses
  results : ∀ id, id ∈ scan'.toolResults ↔ id ∈ scan.toolResults ∨ id ∈ results

namespace Scan

private theorem Adds.refl (scan : Scan) : scan.Adds scan [] [] := ⟨fun h => h, by simp, by simp⟩

private theorem Adds.trans {scan scan' scan'' : Scan} {uses uses' results results' : List Key}
    (h : scan.Adds scan' uses results) (h' : scan'.Adds scan'' uses' results') :
    scan.Adds scan'' (uses ++ uses') (results ++ results') where
  keyed hkeyed := h'.keyed (h.keyed hkeyed)
  uses id := by rw [h'.uses, h.uses, List.mem_append, or_assoc]
  results id := by rw [h'.results, h.results, List.mem_append, or_assoc]

private theorem adds_use {scan : Scan} {key : Key} {id : Value} (name : Value) (hid : id.key? = some key) :
    scan.Adds (scan.use key id name) [key] [] := by
  unfold Scan.use
  split
  · rename_i hany
    obtain ⟨old, hold, hkey⟩ := List.any_eq_true.mp hany
    have hkeys : (scan.toolUses.map fun use => if use.key = key then { use with name := name } else use).map
        (·.key) = scan.toolUses.map (·.key) := by
      rw [List.map_map]
      apply List.map_congr_left
      intro use _
      simp only [Function.comp_apply]
      split <;> rfl
    refine ⟨?_, ?_, by simp⟩
    · grind
    · grind
  · refine ⟨?_, by simp, by simp⟩
    grind

private theorem adds_result (scan : Scan) (key : Key) : scan.Adds (scan.result key) [] [key] where
  keyed h := h
  uses id := by simp [Scan.result]
  results id := by
    rw [Scan.result, List.mem_cons, List.mem_singleton]
    exact or_comm

end Scan

theorem isToolResult_of_isToolUse {block : Fields} (h : block.isToolUse = true) : block.isToolResult = false := by
  unfold Fields.isToolUse at h
  unfold Fields.isToolResult
  unfold Value.isText at h ⊢
  split at h
  · rw [of_decide_eq_true h]
    decide
  · cases h

private theorem scanBlock_object (scan : Scan) (block : Fields) :
    (block.Hashable → ∃ scan', scanBlock scan (.object block) = some scan' ∧
      scan.Adds scan' block.toolUseId?.toList block.toolResultId?.toList) ∧
    (scanBlock scan (.object block) ≠ none → block.Hashable) := by
  rw [scanBlock]
  change (_ → ∃ scan', (if block.isToolUse = true then _ else if block.isToolResult = true then _ else _) = _ ∧ _) ∧
    ((if block.isToolUse = true then _ else if block.isToolResult = true then _ else _) ≠ _ → _)
  rw [Fields.toolUseId?, Fields.toolResultId?, Fields.Hashable]
  by_cases huse : block.isToolUse = true
  · have hresult : block.isToolResult = false := isToolResult_of_isToolUse huse
    simp only [huse, hresult, if_true, if_false, forall_const, Bool.false_eq_true]
    cases hkey : (Fields.get block "id" .null).key? with
    | none => simp
    | some key => exact ⟨fun _ => ⟨_, rfl, Scan.adds_use _ hkey⟩, by simp⟩
  · simp only [huse, if_false, Bool.false_eq_true]
    by_cases hresult : block.isToolResult = true
    · simp only [hresult, if_true, forall_const]
      cases hkey : (Fields.get block "tool_use_id" .null).key? with
      | none => simp
      | some key => exact ⟨fun _ => ⟨_, rfl, Scan.adds_result scan key⟩, by simp⟩
    · simp only [hresult, if_false, Bool.false_eq_true]
      exact ⟨fun _ => ⟨scan, rfl, Scan.Adds.refl scan⟩, by simp⟩

private theorem foldlM_scanBlock (blocks : List Value) (scan : Scan) :
    ((∀ block ∈ blocks.filterMap Value.fields?, block.Hashable) →
      ∃ scan', blocks.foldlM scanBlock scan = some scan' ∧ scan.Adds scan'
        ((blocks.filterMap Value.fields?).filterMap Fields.toolUseId?)
        ((blocks.filterMap Value.fields?).filterMap Fields.toolResultId?)) ∧
    (blocks.foldlM scanBlock scan ≠ none → ∀ block ∈ blocks.filterMap Value.fields?, block.Hashable) := by
  induction blocks generalizing scan with
  | nil => exact ⟨fun _ => ⟨scan, rfl, Scan.Adds.refl scan⟩, by simp⟩
  | cons value blocks ih =>
    rw [List.foldlM_cons]
    cases hfields : value.fields? with
    | none =>
      have hpass : scanBlock scan value = some scan := by
        cases value with
        | object fields => cases hfields
        | _ => rfl
      rw [hpass, List.filterMap_cons_none hfields]
      exact ih scan
    | some block =>
      obtain rfl : value = .object block := by
        cases value with
        | object fields => rw [Option.some.inj hfields]
        | _ => cases hfields
      obtain ⟨hscan, hhashable⟩ := scanBlock_object scan block
      rw [List.filterMap_cons_some hfields]
      constructor
      · intro h
        obtain ⟨next, hnext, hadds⟩ := hscan (h block List.mem_cons_self)
        obtain ⟨scan', hscan', hadds'⟩ := (ih next).1 fun b hb => h b (List.mem_cons_of_mem _ hb)
        refine ⟨scan', by rw [hnext]; exact hscan', ?_⟩
        have htrans := hadds.trans hadds'
        grind
      · intro h
        cases hnext : scanBlock scan (.object block) with
        | none => exact absurd (by rw [hnext]; rfl) h
        | some next =>
          grind

private theorem scanRecord_spec (scan : Scan) (record : Value) :
    (Readable record → ∃ scan', scanRecord scan record = some scan' ∧
      scan.Adds scan' (toolUseIds record) (toolResultIds record)) ∧
    (scanRecord scan record ≠ none → Readable record) := by
  cases record with
  | object fields =>
    rw [scanRecord, Readable, toolUseIds, toolResultIds, Value.blocks]
    cases hmessage : (Fields.get fields "message" .null).orElse (.object []) with
    | object message =>
      have hshape : ∃ fields' message', Value.object fields = .object fields' ∧
          (Fields.get fields' "message" .null).orElse (.object []) = .object message' :=
        ⟨fields, message, rfl, hmessage⟩
      simp only
      cases hcontent : (Fields.get message "content" .null).orElse (.array []) with
      | array blocks =>
        obtain ⟨hscan, hhashable⟩ := foldlM_scanBlock blocks scan
        exact ⟨fun h => hscan h.2, fun h => ⟨hshape, hhashable h⟩⟩
      | _ => exact ⟨fun _ => ⟨scan, rfl, Scan.Adds.refl scan⟩, fun _ => ⟨hshape, by simp⟩⟩
    | _ =>
      grind
  | _ =>
    refine ⟨?_, by simp [scanRecord]⟩
    rintro ⟨⟨fields', message', hfields, -⟩, -⟩
    cases hfields

private theorem foldlM_scanRecord (records : List Value) (scan : Scan) :
    ((∀ record ∈ records, Readable record) → ∃ scan', records.foldlM scanRecord scan = some scan' ∧
      scan.Adds scan' (records.flatMap toolUseIds) (records.flatMap toolResultIds)) ∧
    (records.foldlM scanRecord scan ≠ none → ∀ record ∈ records, Readable record) := by
  induction records generalizing scan with
  | nil => exact ⟨fun _ => ⟨scan, rfl, Scan.Adds.refl scan⟩, by simp⟩
  | cons record records ih =>
    obtain ⟨hscan, hreadable⟩ := scanRecord_spec scan record
    rw [List.foldlM_cons]
    constructor
    · intro h
      obtain ⟨next, hnext, hadds⟩ := hscan (h record List.mem_cons_self)
      obtain ⟨scan', hscan', hadds'⟩ := (ih next).1 fun r hr => h r (List.mem_cons_of_mem _ hr)
      exact ⟨scan', by rw [hnext]; exact hscan', by simpa using hadds.trans hadds'⟩
    · intro h
      cases hnext : scanRecord scan record with
      | none => exact absurd (by rw [hnext]; rfl) h
      | some next =>
        grind

section Synthetic

variable (format : Value → List Nat) (sessionId : List Nat) (orphans : List ToolUse)

private theorem get_cons_self (name : String) (value default : Value) (fields : Fields) :
    Fields.get ((text name, value) :: fields) name default = value := by
  simp [Fields.get]

private theorem get_cons_of_ne {name name' : String} (h : text name ≠ text name') (value default : Value)
    (fields : Fields) : Fields.get ((text name, value) :: fields) name' default = fields.get name' default := by
  simp [Fields.get, h]

private theorem isText_str (s : String) : (Value.str (text s)).isText s = true := by simp [Value.isText]

private theorem orElse_object (field : List Nat × Value) (fields : Fields) (default : Value) :
    (Value.object (field :: fields)).orElse default = .object (field :: fields) := rfl

private theorem orElse_array (items : List Value) : (Value.array items).orElse (.array []) = .array items := by
  cases items <;> rfl

private theorem blocks_synthetic : (synthetic format sessionId orphans).blocks = orphans.map (interrupted format) := by
  rw [synthetic, Value.blocks, get_cons_of_ne (by decide), get_cons_self]
  simp only [orElse_object]
  rw [get_cons_of_ne (by decide), get_cons_self]
  simp only [orElse_array]
  induction orphans with
  | nil => rfl
  | cons use orphans ih =>
    have hfields : (Value.object (interrupted format use)).fields? = some (interrupted format use) := rfl
    rw [List.map_cons, List.filterMap_cons_some hfields, ih, List.map_cons]

private theorem interrupted_ids (use : ToolUse) : (interrupted format use).toolUseId? = none ∧
    (interrupted format use).isToolUse = false ∧ (interrupted format use).isToolResult = true ∧
    (interrupted format use).get "tool_use_id" .null = use.id := by
  have htype : (interrupted format use).get "type" .null = .str (text "tool_result") := get_cons_self ..
  have huse : (interrupted format use).isToolUse = false := by
    rw [Fields.isToolUse, htype]
    decide
  refine ⟨by rw [Fields.toolUseId?, huse]; rfl, huse, ?_, ?_⟩
  · rw [Fields.isToolResult, htype]
    exact isText_str _
  · rw [interrupted, get_cons_of_ne (by decide), get_cons_self]

private theorem synthetic_spec (hkeyed : ∀ use ∈ orphans, use.id.key? = some use.key) :
    Readable (synthetic format sessionId orphans) ∧ toolUseIds (synthetic format sessionId orphans) = [] ∧
      toolResultIds (synthetic format sessionId orphans) = orphans.map (·.key) := by
  rw [Readable, toolUseIds, toolResultIds, blocks_synthetic]
  refine ⟨⟨?_, ?_⟩, ?_, ?_⟩
  · refine ⟨_, [(text "role", .str (text "user")),
      (text "content", .array (orphans.map fun use => .object (interrupted format use)))], rfl, ?_⟩
    rw [get_cons_of_ne (by decide), get_cons_self]
    exact orElse_object _ _ _
  · intro block hblock
    obtain ⟨use, huse, rfl⟩ := List.mem_map.mp hblock
    obtain ⟨-, hnot, -, hid⟩ := interrupted_ids format use
    refine ⟨fun h => absurd h (by simp [hnot]), fun _ => ?_⟩
    rw [hid, hkeyed use huse]
    simp
  · apply List.filterMap_eq_nil_iff.mpr
    intro block hblock
    obtain ⟨use, -, rfl⟩ := List.mem_map.mp hblock
    exact (interrupted_ids format use).1
  · rw [List.filterMap_map]
    induction orphans with
    | nil => rfl
    | cons use orphans ih =>
      obtain ⟨-, -, hresult, hid⟩ := interrupted_ids format use
      have hkey : (Fields.toolResultId? ∘ interrupted format) use = some use.key := by
        rw [Function.comp_apply, Fields.toolResultId?, hresult, hid]
        exact hkeyed use List.mem_cons_self
      rw [List.filterMap_cons_some hkey, ih fun u hu => hkeyed u (List.mem_cons_of_mem _ hu), List.map_cons]

private theorem not_isSyntheticRecord_synthetic : isSyntheticRecord (synthetic format sessionId orphans) = false := by
  rw [synthetic, isSyntheticRecord, get_cons_of_ne (by decide), get_cons_self]
  simp only
  rw [get_cons_of_ne (by decide), get_cons_of_ne (by decide)]
  rfl

end Synthetic

def jsonSpace (c : Nat) : Bool := c = 0x20 || c = 0x09 || c = 0x0a || c = 0x0d

/-- `json.loads` on lines and on what `json.dumps` makes of a record: ASCII without control characters,
which is read back from behind white space and from behind nothing else. -/
structure JsonLaws (loads : List Nat → Option Value) (dumps : Value → List Nat) (record : Value) : Prop where
  newline : ∀ line, loads (line ++ [0x0a]) = loads line
  blank : ∀ line, stripBy pySpace line = [] → loads line = none
  printable : ∀ c ∈ dumps record, 0x20 ≤ c ∧ c ≤ 0x7e
  document : ∀ front, loads (front ++ dumps record) = if stripBy jsonSpace front = [] then some record else none

section Claims

variable (loads : List Nat → Option Value) (dumps : Value → List Nat) (format : Value → List Nat)
  (sessionId : List Nat)

def lines (content : List UInt8) : List (List Nat) := ((Utf8.decode false content).map rawLines).getD []

/-- The lines of a file that end with a newline, and what comes after the last one. -/
def endedLines (content : List UInt8) : List (List Nat) :=
  ((Utf8.decode false content).map fun text => (textPieces text).dropLast).getD []

def lastPiece (content : List UInt8) : List Nat :=
  ((Utf8.decode false content).bind fun text => (textPieces text).getLast?).getD []

def records (content : List UInt8) : List Value :=
  ((Utf8.decode false content).map fun text => (fileLines text).filterMap loads).getD []

def orphansOf (content : List UInt8) : List ToolUse :=
  ((Utf8.decode false content).bind fun text => (scanLines loads {} (fileLines text)).map Scan.orphans).getD []

def Value.hasType (record : Value) (s : String) : Bool :=
  match record with
  | .object fields => (Fields.get fields "type" .null).isText s
  | _ => false

/-- The line of an assistant record whose model is `<synthetic>`. -/
def isSyntheticError (line : List Nat) : Bool :=
  match loads line with
  | some record => isSyntheticRecord record && record.hasType "assistant"
  | none => false

/-- Stripping removes lines of synthetic assistant records only, and makes no orphan. -/
def Stripped (content : List UInt8) : Prop :=
  ∃ content', (stripSyntheticRecords loads (some content)).2 = some content' ∧
    lines content' = (lines content).filter (fun line => !isSyntheticError loads line) ∧
    ∀ id ∈ (records loads content').flatMap toolUseIds, id ∈ (records loads content).flatMap toolResultIds →
      id ∈ (records loads content').flatMap toolResultIds

/-- Healing appends one user record if anything, answers every tool use, does nothing a second time, and
the file can be stripped after it. -/
def Healed (content : List UInt8) : Prop :=
  ∃ n content', healOrphanToolUses loads dumps format sessionId (some content) = some (n, some content') ∧
    (∃ appended, records loads content' = records loads content ++ appended ∧
      ((n = 0 ∧ appended = []) ∨ (0 < n ∧ ∃ record, appended = [record] ∧ record.hasType "user"))) ∧
    Answered (records loads content') ∧
    healOrphanToolUses loads dumps format sessionId (some content') = some (0, some content') ∧
    Stripped loads content'

/-- The synthetic records of some lines are assistant records, no line is blank where there is one, and no
tool use of the others has its results in them only. -/
structure Strippable (lines : List (List Nat)) : Prop where
  assistant : ∀ line ∈ lines, ∀ record, loads line = some record → isSyntheticRecord record →
    record.hasType "assistant"
  solid : (∃ line ∈ lines, ∃ record, loads line = some record ∧ isSyntheticRecord record) →
    ∀ line ∈ lines, stripBy pySpace line ≠ []
  answered : ∀ id ∈ ((lines.filterMap loads).filter fun record => !isSyntheticRecord record).flatMap toolUseIds,
    id ∈ (lines.filterMap loads).flatMap toolResultIds →
      id ∈ ((lines.filterMap loads).filter fun record => !isSyntheticRecord record).flatMap toolResultIds

/-- The file is UTF-8, each line that can be parsed is a readable record, only white space comes after the
last newline if a tool use has no result, and the lines can be stripped. -/
structure Healable (content : List UInt8) : Prop where
  decoded : ∃ text, Utf8.decode false content = some text
  readable : ∀ record ∈ records loads content, Readable record
  ended : orphansOf loads content ≠ [] → stripBy jsonSpace (lastPiece content) = []
  strippable : Strippable loads (if orphansOf loads content = [] then lines content else endedLines content)

private theorem scanLines_eq (scan : Scan) (lines : List (List Nat)) :
    scanLines loads scan lines = (lines.filterMap loads).foldlM scanRecord scan := by
  induction lines generalizing scan with
  | nil => rfl
  | cons line lines ih =>
    rw [scanLines]
    cases hload : loads line with
    | none => rw [List.filterMap_cons_none hload, ← ih]
    | some record =>
      rw [List.filterMap_cons_some hload, List.foldlM_cons]
      simp only [ih]
      rfl

section Laws

variable {loads dumps} {record : Value} (laws : JsonLaws loads dumps record) {content : List UInt8} {text : List Nat}

include laws in
theorem filterMap_fileLines (text : List Nat) : (fileLines text).filterMap loads = (rawLines text).filterMap loads := by
  obtain ⟨front, last, htext, -⟩ := exists_textPieces text
  rw [fileLines_of_textPieces htext, rawLines_of_textPieces htext, List.filterMap_append, List.filterMap_append,
    List.filterMap_map]
  congr 1
  apply List.filterMap_congr
  intro line _
  exact laws.newline line

include laws in
theorem records_eq_lines (hdecode : Utf8.decode false content = some text) :
    records loads content = (lines content).filterMap loads := by
  rw [records, lines, hdecode]
  exact filterMap_fileLines laws text

private theorem lines_of_decode (hdecode : Utf8.decode false content = some text) : lines content = rawLines text := by
  rw [lines, hdecode]
  rfl

include laws in
theorem not_blank (h : loads line ≠ none) : stripBy pySpace line ≠ [] :=
  fun hblank => h (laws.blank line hblank)

include laws in
theorem records_of_textPieces
    (hdecode : Utf8.decode false content = some text) (htext : textPieces text = front ++ [last]) :
    records loads content = front.filterMap loads ++ (loads last).toList := by
  rw [records_eq_lines laws hdecode, lines_of_decode hdecode, rawLines_of_textPieces htext, List.filterMap_append]
  congr 1
  by_cases hlast : last = []
  · rw [hlast, laws.blank [] rfl]
    rfl
  · cases hload : loads last <;> simp [hlast, hload]

end Laws

/-- The line of a record that `strip_synthetic_records` removes. -/
def isSyntheticLine (line : List Nat) : Bool := (loads line).any isSyntheticRecord

def isKept (line : List Nat) : Bool := stripBy pySpace line ≠ [] && !isSyntheticLine loads line

def isRemoved (line : List Nat) : Bool := stripBy pySpace line ≠ [] && isSyntheticLine loads line

private theorem stripLines_eq (lines : List (List Nat)) :
    stripLines loads lines = ((lines.map (·.rdropWhile isLF)).filter (isKept loads),
      (lines.map (·.rdropWhile isLF)).countP fun line => stripBy pySpace line ≠ [] && isSyntheticLine loads line) := by
  induction lines with
  | nil => rfl
  | cons line lines ih =>
    rw [stripLines, ih, List.map_cons, List.filter_cons, List.countP_cons]
    by_cases hblank : stripBy pySpace (line.rdropWhile isLF) = []
    · simp [isKept, hblank]
    · cases hload : loads (line.rdropWhile isLF) with
      | none => simp [isKept, isSyntheticLine, hblank, hload]
      | some record =>
        cases hsynthetic : isSyntheticRecord record <;>
          simp [isKept, isSyntheticLine, hblank, hload, hsynthetic]

theorem map_rdropWhile_fileLines (text : List Nat) : (fileLines text).map (·.rdropWhile isLF) = rawLines text := by
  obtain ⟨front, last, htext, hlast⟩ := exists_textPieces text
  rw [fileLines_of_textPieces htext, rawLines_of_textPieces htext, List.map_append, List.map_map]
  have hplain : ∀ line : List Nat, (∀ c ∈ line, isLF c = false) → line.rdropWhile isLF = line := by
    simp_all
  have hfront : ∀ line ∈ front, ∀ c ∈ line, isLF c = false := by
    intro line hline
    have hmem : line ∈ textPieces text := by
      rw [htext]
      exact List.mem_append_left _ hline
    exact isLF_of_mem_textPieces hmem
  congr 1
  · calc front.map ((·.rdropWhile isLF) ∘ (· ++ [0x0a])) = front.map id := by
          apply List.map_congr_left
          intro line hline
          rw [Function.comp_apply, List.rdropWhile_concat_pos _ _ _ rfl, hplain line (hfront line hline), id]
      _ = front := List.map_id _
  · by_cases hne : last = []
    · simp [hne]
    · simp [hne, hplain last hlast]

section Strip

variable {loads dumps} {record : Value} (laws : JsonLaws loads dumps record) {content : List UInt8} {text : List Nat}

private theorem mem_rawLines (h : line ∈ rawLines text) : line ∈ textPieces text := by
  obtain ⟨front, last, htext, -⟩ := exists_textPieces text
  rw [rawLines_of_textPieces htext] at h
  grind

private theorem mem_universalNewlines (h : c ∈ universalNewlines text) : c ∈ text ∨ c = 0x0a := by
  induction text using universalNewlines.induct with
  | case1 rest ih =>
    rw [universalNewlines] at h
    grind
  | case2 rest hrest ih =>
    rw [universalNewlines] at h
    · grind
    · exact hrest
  | case3 d rest hd hd' ih =>
    rw [universalNewlines] at h
    · grind
    · exact hd
    · exact hd'
  | case4 => cases h

private theorem scalar_rawLines (hdecode : Utf8.decode false content = some text)
    (h : line ∈ rawLines text) : ∀ c ∈ line, Utf8.Scalar c := by
  intro c hc
  rcases mem_universalNewlines (of_mem_splitBy (mem_rawLines h) c hc).1 with hc | rfl
  · exact Utf8.scalar_of_decode hdecode c hc
  · exact .inl (by decide)

/-- What stripping leaves: the file itself, or the lines that are kept. -/
theorem strip_eq (hdecode : Utf8.decode false content = some text) :
    ∃ content' text', (stripSyntheticRecords loads (some content)).2 = some content' ∧
      Utf8.decode false content' = some text' ∧
      lines content' = if (∃ line ∈ lines content, stripBy pySpace line ≠ [] ∧ isSyntheticLine loads line = true)
        then (lines content).filter (isKept loads) else lines content := by
  rw [lines_of_decode hdecode, stripSyntheticRecords, hdecode]
  simp only [stripLines_eq, map_rdropWhile_fileLines]
  split
  · rename_i hnone
    rw [List.countP_eq_zero] at hnone
    refine ⟨content, text, rfl, hdecode, ?_⟩
    rw [if_neg, lines_of_decode hdecode]
    rintro ⟨line, hline, hblank, hsynthetic⟩
    exact hnone line hline (by simp [hblank, hsynthetic])
  · rename_i hsome
    have hpositive : 0 < (rawLines text).countP fun line => stripBy pySpace line ≠ [] && isSyntheticLine loads line :=
      Nat.pos_of_ne_zero hsome
    obtain ⟨line, hline, hremoved⟩ := List.countP_pos_iff.mp hpositive
    have hkept : ∀ line ∈ (rawLines text).filter (isKept loads), line ∈ textPieces text := fun line hline =>
      mem_rawLines (List.mem_filter.mp hline).1
    have hscalar : ∀ c ∈ ((rawLines text).filter (isKept loads)).flatMap (· ++ [0x0a]), Utf8.Scalar c := by
      intro c hc
      obtain ⟨line, hline, hc⟩ := List.mem_flatMap.mp hc
      rcases List.mem_append.mp hc with hc | hc
      · exact scalar_rawLines hdecode (List.mem_filter.mp hline).1 c hc
      · rw [List.mem_singleton.mp hc]
        exact .inl (by decide)
    have hdecode' := Utf8.decode_encode hscalar
    refine ⟨_, _, rfl, hdecode', ?_⟩
    have hpieces := textPieces_flatMap (fun line hline => isCR_of_mem_textPieces (hkept line hline))
      (fun line hline => isLF_of_mem_textPieces (hkept line hline))
    rw [lines_of_decode hdecode', rawLines_of_textPieces hpieces, if_pos]
    · simp
    · exact ⟨line, hline, by simpa using hremoved⟩

include laws in
theorem filterMap_isKept (lines : List (List Nat)) : (lines.filter (isKept loads)).filterMap loads =
      (lines.filterMap loads).filter fun record => !isSyntheticRecord record := by
  induction lines with
  | nil => rfl
  | cons line lines ih =>
    cases hload : loads line with
    | none =>
      grind
    | some record =>
      have hblank : stripBy pySpace line ≠ [] := not_blank laws (by simp [hload])
      rw [List.filterMap_cons_some hload, List.filter_cons, List.filter_cons, ← ih]
      cases hsynthetic : isSyntheticRecord record with
      | true => simp [isKept, isSyntheticLine, hload, hsynthetic]
      | false =>
        have hkeep : isKept loads line = true := by simp [isKept, isSyntheticLine, hblank, hload, hsynthetic]
        simp [hkeep, hload]

private theorem isSyntheticLine_iff :
    isSyntheticLine loads line = true ↔ ∃ record, loads line = some record ∧ isSyntheticRecord record = true := by
  rw [isSyntheticLine, Option.any_eq_true]

include laws in
/-- Only synthetic assistant records go when there are no other synthetic records and no blank lines. -/
theorem filter_isKept_iff {lines : List (List Nat)} :
    lines.filter (isKept loads) = lines.filter (fun line => !isSyntheticError loads line) ↔
      (∀ line ∈ lines, ∀ record, loads line = some record → isSyntheticRecord record → record.hasType "assistant") ∧
        ∀ line ∈ lines, stripBy pySpace line ≠ [] := by
  constructor
  · intro hfilter
    have hsame : ∀ line ∈ lines, isKept loads line = true ↔ isSyntheticError loads line = false := by
      intro line hline
      have hleft : line ∈ lines.filter (isKept loads) ↔ isKept loads line = true := by simp [hline]
      have hright : line ∈ lines.filter (fun line => !isSyntheticError loads line) ↔
          isSyntheticError loads line = false := by simp [hline]
      rw [← hleft, ← hright, hfilter]
    constructor
    · intro line hline record hload hsynthetic
      have hnot : isKept loads line ≠ true := by simp [isKept, isSyntheticLine, hload, hsynthetic]
      have herror := mt (hsame line hline).mpr hnot
      simpa [isSyntheticError, hload, hsynthetic] using herror
    · intro line hline hblank
      have hnot : isKept loads line ≠ true := by simp [isKept, hblank]
      have herror := mt (hsame line hline).mpr hnot
      exact herror (by simp [isSyntheticError, laws.blank line hblank])
  · rintro ⟨hassistant, hsolid⟩
    apply List.filter_congr
    intro line hline
    cases hload : loads line with
    | none => simp [isKept, isSyntheticLine, isSyntheticError, hload, hsolid line hline]
    | some record =>
      cases hsynthetic : isSyntheticRecord record with
      | false => simp [isKept, isSyntheticLine, isSyntheticError, hload, hsynthetic, hsolid line hline]
      | true =>
        have htype := hassistant line hline record hload hsynthetic
        simp [isKept, isSyntheticLine, isSyntheticError, hload, hsynthetic, htype]

include laws in
theorem stripped_iff (hdecode : Utf8.decode false content = some text) :
    Stripped loads content ↔ Strippable loads (lines content) := by
  obtain ⟨content', text', hstrip, hdecode', hlines⟩ := @strip_eq loads content text hdecode
  have hunique : Stripped loads content ↔
      lines content' = (lines content).filter (fun line => !isSyntheticError loads line) ∧
      ∀ id ∈ (records loads content').flatMap toolUseIds, id ∈ (records loads content).flatMap toolResultIds →
        id ∈ (records loads content').flatMap toolResultIds := by
    constructor
    · rintro ⟨content'', hstrip', h⟩
      rw [hstrip] at hstrip'
      cases hstrip'
      exact h
    · exact fun h => ⟨content', hstrip, h⟩
  rw [hunique, records_eq_lines laws hdecode, records_eq_lines laws hdecode', hlines]
  by_cases hsome : ∃ line ∈ lines content, stripBy pySpace line ≠ [] ∧ isSyntheticLine loads line = true
  · have hexists : ∃ line ∈ lines content, ∃ record, loads line = some record ∧ isSyntheticRecord record := by
      obtain ⟨line, hline, -, hsynthetic⟩ := hsome
      exact ⟨line, hline, isSyntheticLine_iff.mp hsynthetic⟩
    rw [if_pos hsome, filter_isKept_iff laws, filterMap_isKept laws]
    constructor
    · rintro ⟨⟨hassistant, hsolid⟩, hanswered⟩
      exact ⟨hassistant, fun _ => hsolid, hanswered⟩
    · rintro ⟨hassistant, hsolid, hanswered⟩
      exact ⟨⟨hassistant, hsolid hexists⟩, hanswered⟩
  · have hnone : ∀ line ∈ lines content, ∀ record, loads line = some record → isSyntheticRecord record = false := by
      intro line hline record hload
      by_contra hsynthetic
      have hblank := not_blank laws (show loads line ≠ none by simp [hload])
      exact hsome ⟨line, hline, hblank, isSyntheticLine_iff.mpr ⟨record, hload, by simpa using hsynthetic⟩⟩
    have hkept : ((lines content).filterMap loads).filter (fun record => !isSyntheticRecord record) =
        (lines content).filterMap loads := by
      apply List.filter_eq_self.mpr
      grind
    have hfilter : (lines content).filter (fun line => !isSyntheticError loads line) = lines content := by
      apply List.filter_eq_self.mpr
      intro line hline
      cases hload : loads line with
      | none => simp [isSyntheticError, hload]
      | some record => simp [isSyntheticError, hload, hnone line hline record hload]
    rw [if_neg hsome, hfilter]
    refine iff_of_true ⟨rfl, fun id _ hid => hid⟩ ⟨?_, ?_, ?_⟩
    · intro line hline record hload hsynthetic
      simp [hnone line hline record hload] at hsynthetic
    · rintro ⟨line, hline, record, hload, hsynthetic⟩
      simp [hnone line hline record hload] at hsynthetic
    · rw [hkept]
      exact fun id _ hid => hid

private theorem strip_cases (content : List UInt8) :
    stripSyntheticRecords loads (some content) = ((lines content).countP (isRemoved loads),
      if (lines content).countP (isRemoved loads) = 0 then some content
      else some (Utf8.encode (((lines content).filter (isKept loads)).flatMap (· ++ [0x0a])))) := by
  cases hdecode : Utf8.decode false content with
  | none => simp [stripSyntheticRecords, lines, hdecode]
  | some text =>
    rw [lines_of_decode hdecode]
    simp only [stripSyntheticRecords, hdecode, stripLines_eq, map_rdropWhile_fileLines]
    change (if (rawLines text).countP (isRemoved loads) = 0 then _ else _) = _
    split
    · rename_i hnone
      rw [hnone]
    · rfl

/-- Stripping leaves the file alone or the lines that are kept, and leaves nothing to strip. -/
theorem strip_settles : ∃ after,
    stripSyntheticRecords loads (some content) = ((lines content).countP (isRemoved loads), some after) ∧
    (if (lines content).countP (isRemoved loads) = 0 then after = content
      else lines after = (lines content).filter (isKept loads)) ∧
    stripSyntheticRecords loads (some after) = (0, some after) := by
  have hstripped := @strip_cases loads content
  by_cases hnone : (lines content).countP (isRemoved loads) = 0
  · simp only [hnone, if_true] at hstripped ⊢
    exact ⟨content, hstripped, rfl, hstripped⟩
  · obtain ⟨line, hline, hremoved⟩ := List.countP_pos_iff.mp (Nat.pos_of_ne_zero hnone)
    obtain ⟨text, hdecode⟩ : ∃ text, Utf8.decode false content = some text := by
      cases hdecode : Utf8.decode false content with
      | none => simp [lines, hdecode] at hline
      | some text => exact ⟨text, rfl⟩
    obtain ⟨after, -, hstrip, -, hlines⟩ := @strip_eq loads content text hdecode
    rw [if_pos ⟨line, hline, by simpa [isRemoved] using hremoved⟩] at hlines
    have hzero : (lines after).countP (isRemoved loads) = 0 := by
      rw [hlines, List.countP_eq_zero]
      intro line hline
      have hkept := (List.mem_filter.mp hline).2
      grind [isKept, isRemoved]
    have hagain := @strip_cases loads after
    rw [hzero, if_pos rfl] at hagain
    refine ⟨after, Prod.ext (by rw [hstripped]) hstrip, ?_, hagain⟩
    rwa [if_neg hnone]

end Strip

section Heal

variable {loads dumps format sessionId} {content : List UInt8} {text : List Nat}
  (laws : JsonLaws loads dumps (synthetic format sessionId (orphansOf loads content)))
  (hsession : sessionId ≠ [])

include hsession in
theorem heal_eq (hdecode : Utf8.decode false content = some text) :
    healOrphanToolUses loads dumps format sessionId (some content) =
      ((records loads content).foldlM scanRecord {}).map fun scan =>
        if scan.orphans = [] then (0, some content)
        else (scan.orphans.length,
          some (content ++ Utf8.encode (dumps (synthetic format sessionId scan.orphans) ++ [0x0a]))) := by
  rw [healOrphanToolUses, if_neg hsession, records, hdecode, Option.bind_some, scanLines_eq]
  rfl

private theorem exists_scan (hreadable : ∀ record ∈ records loads content, Readable record) :
    ∃ scan, (records loads content).foldlM scanRecord {} = some scan ∧
      (∀ use ∈ scan.orphans, use.id.key? = some use.key) ∧
      (∀ id, id ∈ scan.orphans.map (·.key) ↔ id ∈ (records loads content).flatMap toolUseIds ∧
        id ∉ (records loads content).flatMap toolResultIds) := by
  obtain ⟨scan, hscan, hadds⟩ := (foldlM_scanRecord (records loads content) {}).1 hreadable
  have huses : ∀ id, id ∈ scan.toolUses.map (·.key) ↔ id ∈ (records loads content).flatMap toolUseIds := by
    intro id
    rw [hadds.uses]
    simp
  have hresults : ∀ id, id ∈ scan.toolResults ↔ id ∈ (records loads content).flatMap toolResultIds := by
    intro id
    rw [hadds.results]
    simp
  refine ⟨scan, hscan, ?_, ?_⟩
  · intro use huse
    exact hadds.keyed (by simp) use (List.mem_filter.mp huse).1
  · intro id
    rw [← huses, ← hresults, List.mem_map, List.mem_map]
    constructor
    · rintro ⟨use, huse, rfl⟩
      obtain ⟨huse, hresult⟩ := List.mem_filter.mp huse
      exact ⟨⟨use, huse, rfl⟩, by simpa using hresult⟩
    · rintro ⟨⟨use, huse, rfl⟩, hresult⟩
      exact ⟨use, List.mem_filter.mpr ⟨huse, by simpa using hresult⟩, rfl⟩

private theorem orphansOf_eq (hdecode : Utf8.decode false content = some text) {scan : Scan}
    (hscan : (records loads content).foldlM scanRecord {} = some scan) : orphansOf loads content = scan.orphans := by
  rw [records, hdecode] at hscan
  rw [orphansOf, hdecode, Option.bind_some, scanLines_eq]
  exact congrArg (fun scan => (Option.map Scan.orphans scan).getD []) hscan

include hsession in
theorem heal_answered (hdecode : Utf8.decode false content = some text)
    (hreadable : ∀ record ∈ records loads content, Readable record) (hanswered : Answered (records loads content)) :
    healOrphanToolUses loads dumps format sessionId (some content) = some (0, some content) := by
  obtain ⟨scan, hscan, -, horphans⟩ := exists_scan hreadable
  have hnone : scan.orphans = [] := by
    rw [← List.map_eq_nil_iff, List.eq_nil_iff_forall_not_mem]
    intro id hid
    obtain ⟨huse, hresult⟩ := (horphans id).mp hid
    exact hresult (hanswered id huse)
  rw [heal_eq hsession hdecode, hscan, Option.map_some, if_pos hnone]

include laws in
theorem scalar_dumps : ∀ c ∈ dumps (synthetic format sessionId (orphansOf loads content)) ++ [0x0a], Utf8.Scalar c := by
  intro c hc
  rcases List.mem_append.mp hc with hc | hc
  · have hprintable := laws.printable c hc
    exact .inl (by omega)
  · rw [List.mem_singleton.mp hc]
    exact .inl (by decide)

include laws in
theorem lines_appended (hdecode : Utf8.decode false content = some text)
    (htext : textPieces text = front ++ [last]) :
    (∃ text', Utf8.decode false (content ++ Utf8.encode
      (dumps (synthetic format sessionId (orphansOf loads content)) ++ [0x0a])) = some text') ∧
    lines (content ++ Utf8.encode (dumps (synthetic format sessionId (orphansOf loads content)) ++ [0x0a])) =
      front ++ [last ++ dumps (synthetic format sessionId (orphansOf loads content))] := by
  have hdecode' := Utf8.decode_append_text hdecode (Utf8.decode_encode (scalar_dumps laws))
  have hne : dumps (synthetic format sessionId (orphansOf loads content)) ≠ [] := by
    intro hempty
    have hdocument := laws.document []
    rw [hempty, List.append_nil, laws.blank [] rfl] at hdocument
    cases hdocument
  have hpieces := textPieces_append htext hne
    (fun c hc => decide_eq_false (by have := laws.printable c hc; omega))
    (fun c hc => decide_eq_false (by have := laws.printable c hc; omega))
  refine ⟨⟨_, hdecode'⟩, ?_⟩
  rw [lines_of_decode hdecode', rawLines_of_textPieces hpieces]
  simp

/-- A line with a record that answers other tool uses does not change whether the lines can be stripped. -/
theorem strippable_append {record : Value}
    (hload : loads line = some record) (hblank : stripBy pySpace line ≠ [])
    (hsynthetic : isSyntheticRecord record = false) (huses : toolUseIds record = [])
    (hresults : ∀ id ∈ toolResultIds record, id ∉ (front.filterMap loads).flatMap toolResultIds) :
    Strippable loads (front ++ [line]) ↔ Strippable loads front := by
  have hrecords : (front ++ [line]).filterMap loads = front.filterMap loads ++ [record] := by
    rw [List.filterMap_append, List.filterMap_cons_some hload]
    rfl
  have hkept : ((front ++ [line]).filterMap loads).filter (fun record => !isSyntheticRecord record) =
      (front.filterMap loads).filter (fun record => !isSyntheticRecord record) ++ [record] := by
    rw [hrecords, List.filter_append]
    simp [hsynthetic]
  constructor
  · intro h
    refine ⟨fun l hl => h.assistant l (List.mem_append_left _ hl), ?_, ?_⟩
    · rintro ⟨l, hl, hrecord⟩ l' hl'
      exact h.solid ⟨l, List.mem_append_left _ hl, hrecord⟩ l' (List.mem_append_left _ hl')
    · intro id huse hresult
      have hanswered := h.answered id
      grind
  · intro h
    refine ⟨?_, ?_, ?_⟩
    · intro l hl r hload' hsynthetic'
      rcases List.mem_append.mp hl with hl | hl
      · exact h.assistant l hl r hload' hsynthetic'
      · grind
    · rintro ⟨l, hl, r, hload', hsynthetic'⟩ l' hl'
      rcases List.mem_append.mp hl with hl | hl
      · rcases List.mem_append.mp hl' with hl' | hl'
        · exact h.solid ⟨l, hl, r, hload', hsynthetic'⟩ l' hl'
        · rw [List.mem_singleton.mp hl']
          exact hblank
      · grind
    · intro id huse hresult
      rw [hkept, List.flatMap_append, List.flatMap_singleton] at huse ⊢
      rw [hrecords, List.flatMap_append, List.flatMap_singleton] at hresult
      rw [huses, List.append_nil] at huse
      rcases List.mem_append.mp hresult with hresult | hresult
      · exact List.mem_append_left _ (h.answered id huse hresult)
      · exact List.mem_append_right _ hresult

private theorem pySpace_of_jsonSpace (h : jsonSpace c = true) : pySpace c = true := by
  simp only [jsonSpace, Bool.or_eq_true, decide_eq_true_eq] at h
  rcases h with ((rfl | rfl) | rfl) | rfl <;> rfl

include laws in
/-- What heals a file whose last piece is blank: one record that answers the orphans. -/
theorem records_appended (hdecode : Utf8.decode false content = some text)
    (htext : textPieces text = front ++ [last]) (hlast : stripBy jsonSpace last = []) :
    records loads content = front.filterMap loads ∧
      loads (last ++ dumps (synthetic format sessionId (orphansOf loads content))) =
        some (synthetic format sessionId (orphansOf loads content)) := by
  have hblank : stripBy pySpace last = [] :=
    stripBy_eq_nil.mpr fun c hc => pySpace_of_jsonSpace (stripBy_eq_nil.mp hlast c hc)
  refine ⟨?_, by rw [laws.document, if_pos hlast]⟩
  rw [records_of_textPieces laws hdecode htext, laws.blank last hblank]
  exact List.append_nil _

include hsession in
theorem Healed.readable (h : Healed loads dumps format sessionId content) :
    (∃ text, Utf8.decode false content = some text) ∧ ∀ record ∈ records loads content, Readable record := by
  obtain ⟨n, content', hheal, -⟩ := h
  cases hdecode : Utf8.decode false content with
  | none =>
    rw [healOrphanToolUses, if_neg hsession, hdecode] at hheal
    cases hheal
  | some text =>
    refine ⟨⟨text, rfl⟩, (foldlM_scanRecord (records loads content) {}).2 ?_⟩
    intro hraised
    rw [heal_eq hsession hdecode, hraised] at hheal
    cases hheal

include laws hsession in
theorem healed_of_no_orphans (hdecode : Utf8.decode false content = some text)
    (hreadable : ∀ record ∈ records loads content, Readable record) (hnone : orphansOf loads content = []) :
    Healed loads dumps format sessionId content ↔ Strippable loads (lines content) := by
  obtain ⟨scan, hscan, -, horphans⟩ := exists_scan hreadable
  have hempty : scan.orphans = [] := by rw [← orphansOf_eq hdecode hscan, hnone]
  have hanswered : Answered (records loads content) := by
    intro id huse
    by_contra hresult
    have hid := (horphans id).mpr ⟨huse, hresult⟩
    rw [hempty] at hid
    cases hid
  have hheal : healOrphanToolUses loads dumps format sessionId (some content) = some (0, some content) :=
    heal_answered hsession hdecode hreadable hanswered
  rw [← stripped_iff laws hdecode]
  constructor
  · rintro ⟨n, content', hheal', -, -, -, hstripped⟩
    rw [hheal] at hheal'
    cases hheal'
    exact hstripped
  · intro hstripped
    exact ⟨0, content, hheal, ⟨[], (List.append_nil _).symm, .inl ⟨rfl, rfl⟩⟩, hanswered, hheal, hstripped⟩

include laws hsession in
theorem healed_of_orphans (hdecode : Utf8.decode false content = some text)
    (htext : textPieces text = front ++ [last]) (hreadable : ∀ record ∈ records loads content, Readable record)
    (hsome : orphansOf loads content ≠ []) :
    Healed loads dumps format sessionId content ↔ stripBy jsonSpace last = [] ∧ Strippable loads front := by
  obtain ⟨scan, hscan, hkeyed, horphans⟩ := exists_scan hreadable
  have hscanned : scan.orphans = orphansOf loads content := (orphansOf_eq hdecode hscan).symm
  rw [hscanned] at hkeyed horphans
  obtain ⟨hreadableSynthetic, hnoUses, hanswers⟩ := synthetic_spec format sessionId (orphansOf loads content) hkeyed
  obtain ⟨⟨text', hdecode'⟩, hlines⟩ := lines_appended laws hdecode htext
  have hheal : healOrphanToolUses loads dumps format sessionId (some content) =
      some ((orphansOf loads content).length, some (content ++ Utf8.encode
        (dumps (synthetic format sessionId (orphansOf loads content)) ++ [0x0a]))) := by
    rw [heal_eq hsession hdecode, hscan, Option.map_some, hscanned, if_neg hsome]
  generalize hcontent' : content ++ Utf8.encode
    (dumps (synthetic format sessionId (orphansOf loads content)) ++ [0x0a]) = content' at hheal hdecode' hlines
  have hrecords' : records loads content' = front.filterMap loads ++
      (loads (last ++ dumps (synthetic format sessionId (orphansOf loads content)))).toList := by
    rw [records_eq_lines laws hdecode', hlines, List.filterMap_append]
    cases hload : loads (last ++ dumps (synthetic format sessionId (orphansOf loads content))) <;> simp [hload]
  have hstrippable (hlast : stripBy jsonSpace last = []) :
      Stripped loads content' ↔ Strippable loads front := by
    obtain ⟨hrecords, hload⟩ := records_appended laws hdecode htext hlast
    rw [stripped_iff laws hdecode', hlines]
    apply strippable_append hload (not_blank laws (by simp [hload]))
      (not_isSyntheticRecord_synthetic format sessionId _) hnoUses
    intro id hid
    rw [hanswers] at hid
    rw [← hrecords]
    exact ((horphans id).mp hid).2
  constructor
  · rintro ⟨n, content'', hheal', ⟨appended, happended, hcases⟩, -, -, hstripped⟩
    rw [hheal] at hheal'
    cases hheal'
    have hlast : stripBy jsonSpace last = [] := by
      by_contra hlast
      rw [laws.document, if_neg hlast] at hrecords'
      obtain ⟨hzero, -⟩ | ⟨-, record, rfl, -⟩ := hcases
      · exact hsome (List.length_eq_zero_iff.mp hzero)
      · have hlength := congrArg List.length happended
        rw [hrecords', records_of_textPieces laws hdecode htext, List.length_append, List.length_append,
          List.length_append] at hlength
        simp only [Option.toList_none, List.length_nil, List.length_singleton] at hlength
        omega
    exact ⟨hlast, (hstrippable hlast).mp hstripped⟩
  · rintro ⟨hlast, h⟩
    obtain ⟨hrecords, hload⟩ := records_appended laws hdecode htext hlast
    rw [hload, ← hrecords] at hrecords'
    have hreadable' : ∀ record ∈ records loads content', Readable record := by
      grind
    have hanswered : Answered (records loads content') := by
      intro id huse
      grind
    refine ⟨_, content', hheal, ⟨_, hrecords', .inr ⟨?_, _, rfl, ?_⟩⟩, hanswered, ?_, (hstrippable hlast).mpr h⟩
    · exact List.length_pos_of_ne_nil hsome
    · rw [synthetic, Value.hasType, get_cons_self]
      exact isText_str _
    · exact heal_answered hsession hdecode' hreadable' hanswered

include laws hsession in
/-- Healing is right exactly for the files that can be healed. -/
theorem healed_iff : Healed loads dumps format sessionId content ↔ Healable loads content := by
  constructor
  · intro h
    obtain ⟨⟨text, hdecode⟩, hreadable⟩ := h.readable hsession
    obtain ⟨front, last, htext, -⟩ := exists_textPieces text
    by_cases hnone : orphansOf loads content = []
    · refine ⟨⟨text, hdecode⟩, hreadable, fun hsome => absurd hnone hsome, ?_⟩
      rw [if_pos hnone]
      exact (healed_of_no_orphans laws hsession hdecode hreadable hnone).mp h
    · obtain ⟨hlast, hstrippable⟩ := (healed_of_orphans laws hsession hdecode htext hreadable hnone).mp h
      refine ⟨⟨text, hdecode⟩, hreadable, fun _ => ?_, ?_⟩
      · rw [lastPiece, hdecode, Option.bind_some, htext, List.getLast?_concat]
        exact hlast
      · rw [if_neg hnone, endedLines, hdecode, Option.map_some, htext, List.dropLast_concat]
        exact hstrippable
  · rintro ⟨⟨text, hdecode⟩, hreadable, hended, hstrippable⟩
    obtain ⟨front, last, htext, -⟩ := exists_textPieces text
    by_cases hnone : orphansOf loads content = []
    · rw [if_pos hnone] at hstrippable
      exact (healed_of_no_orphans laws hsession hdecode hreadable hnone).mpr hstrippable
    · have hlast := hended hnone
      rw [lastPiece, hdecode, Option.bind_some, htext, List.getLast?_concat] at hlast
      rw [if_neg hnone, endedLines, hdecode, Option.map_some, htext, List.dropLast_concat] at hstrippable
      exact (healed_of_orphans laws hsession hdecode htext hreadable hnone).mpr ⟨hlast, hstrippable⟩

end Heal

end Claims

/-- `{"message":{"content":[{"type":"tool_use","id":"a","name":"B"}]}}` -/
def orphanLine : List Nat :=
  text "\x7b\"message\":\x7b\"content\":[\x7b\"type\":\"tool_use\",\"id\":\"a\",\"name\":\"B\"\x7d]\x7d\x7d"

def orphanRecord : Value :=
  .object [(text "message", .object [(text "content", .array [.object
    [(text "type", .str (text "tool_use")), (text "id", .str (text "a")), (text "name", .str (text "B"))]])])]

def orphan : ToolUse where
  key := .str (text "a")
  id := .str (text "a")
  name := .str (text "B")

def strName : Value → List Nat
  | .str s => s
  | _ => []

def healingRecord : Value := synthetic strName (text "s") [orphan]

/-- What `json.dumps` makes of the record. -/
def healingLine : List Nat :=
  text "\x7b\"type\": \"user\", \"message\": \x7b\"role\": \"user\", \"content\": [\x7b\"type\": \"tool_result\", " ++
    text "\"tool_use_id\": \"a\", \"content\": \"[Tool interrupted] B did not complete before the session ended.\", " ++
    text "\"is_error\": true\x7d]\x7d, \"session_id\": \"s\"\x7d"

/-- `json.loads` on these two texts and on others that are malformed. -/
def loadsOne (line : List Nat) : Option Value :=
  if stripBy jsonSpace line = healingLine then some healingRecord
  else if stripBy jsonSpace line = orphanLine then some orphanRecord
  else none

private theorem orphanLine_plain : orphanLine = 0x7b :: (orphanLine.tail.dropLast ++ [0x7d]) ∧
    ∀ c ∈ orphanLine, 0x20 ≤ c ∧ c ≤ 0x7e := by
  rw [orphanLine, text_ofList]
  decide

private theorem healingLine_plain : healingLine = 0x7b :: (healingLine.tail.dropLast ++ [0x7d]) ∧
    ∀ c ∈ healingLine, 0x20 ≤ c ∧ c ≤ 0x7e := by
  rw [healingLine, text_ofList, text_ofList, text_ofList]
  decide +kernel

private theorem length_orphanLine_lt : orphanLine.length < healingLine.length := by
  rw [healingLine, orphanLine, text_ofList, text_ofList, text_ofList, text_ofList]
  decide +kernel

private theorem isCR_isLF_of_printable (h : 0x20 ≤ c ∧ c ≤ 0x7e) : isCR c = false ∧ isLF c = false := by
  have hcr : c ≠ 0x0d := by omega
  have hlf : c ≠ 0x0a := by omega
  exact ⟨beq_false_of_ne hcr, beq_false_of_ne hlf⟩

private theorem jsonLaws_loadsOne : JsonLaws loadsOne (fun _ => healingLine) healingRecord where
  newline line := by rw [loadsOne, stripBy_append rfl, loadsOne]
  blank line hline := by
    have hspace : ∀ c ∈ stripBy jsonSpace line, pySpace c = true := by
      intro c hc
      apply stripBy_eq_nil.mp hline
      exact (List.dropWhile_sublist _).subset ((List.rdropWhile_prefix _ _).subset hc)
    rw [loadsOne, if_neg, if_neg]
    · intro h
      have hbrace := hspace 0x7b (by rw [h, orphanLine_plain.1]; exact List.mem_cons_self)
      exact absurd hbrace (by decide)
    · intro h
      have hbrace := hspace 0x7b (by rw [h, healingLine_plain.1]; exact List.mem_cons_self)
      exact absurd hbrace (by decide)
  printable := healingLine_plain.2
  document front := by
    have hstrip : stripBy jsonSpace (front ++ healingLine) = front.dropWhile jsonSpace ++ healingLine := by
      rw [healingLine_plain.1]
      exact stripBy_append_solid rfl rfl front
    split
    · rename_i hblank
      have hdrop : front.dropWhile jsonSpace = [] :=
        List.dropWhile_eq_nil_iff.mpr fun c hc => stripBy_eq_nil.mp hblank c hc
      rw [loadsOne, hstrip, hdrop, List.nil_append, if_pos rfl]
    · rename_i hsolid
      have hdrop : front.dropWhile jsonSpace ≠ [] := by
        intro hdrop
        rw [stripBy, hdrop] at hsolid
        exact hsolid rfl
      have hlength := List.length_pos_of_ne_nil hdrop
      have horphan := length_orphanLine_lt
      rw [loadsOne, hstrip, if_neg, if_neg]
      · intro h
        have hsame := congrArg List.length h
        rw [List.length_append] at hsame
        omega
      · intro h
        have hsame := congrArg List.length h
        rw [List.length_append] at hsame
        omega

private theorem loadsOne_orphanLine : loadsOne orphanLine = some orphanRecord := by
  have hstrip : stripBy jsonSpace orphanLine = orphanLine := by
    rw [orphanLine_plain.1]
    exact stripBy_append_solid rfl rfl []
  rw [loadsOne, hstrip, if_neg, if_pos rfl]
  intro h
  exact absurd (congrArg List.length h) length_orphanLine_lt.ne

private theorem orphansOf_orphanLine {content : List UInt8} {content' : List Nat}
    (hdecode : Utf8.decode false content = some content')
    (hrecords : records loadsOne content = [orphanRecord]) : orphansOf loadsOne content = [orphan] := by
  have hscan : [orphanRecord].foldlM scanRecord {} = some { toolUses := [orphan] } := by rfl
  rw [← hrecords] at hscan
  rw [orphansOf_eq hdecode hscan]
  rfl

private theorem readable_orphanRecord : ∀ record ∈ [orphanRecord], Readable record := by
  apply (foldlM_scanRecord [orphanRecord] {}).2
  have hscan : [orphanRecord].foldlM scanRecord {} = some { toolUses := [orphan] } := by rfl
  rw [hscan]
  simp

def endedFile : List UInt8 := (orphanLine ++ [0x0a]).map UInt8.ofNat

def tornFile : List UInt8 := orphanLine.map UInt8.ofNat

private theorem decode_tornFile : Utf8.decode false tornFile = some orphanLine :=
  Utf8.decode_ascii fun c hc => (orphanLine_plain.2 c hc).2.trans_lt (by decide)

private theorem decode_endedFile : Utf8.decode false endedFile = some (orphanLine ++ [0x0a]) := by
  apply Utf8.decode_ascii
  intro c hc
  rcases List.mem_append.mp hc with hc | hc
  · exact (orphanLine_plain.2 c hc).2.trans_lt (by decide)
  · rw [List.mem_singleton.mp hc]
    decide

theorem healed_iff_endedFile : Healed loadsOne (fun _ => healingLine) strName (text "s") endedFile := by
  have hpieces : textPieces (orphanLine ++ [0x0a]) = [orphanLine] ++ [[]] := by
    have hends : ∀ line ∈ [orphanLine], ∀ c ∈ line, isCR c = false ∧ isLF c = false := by
      intro line hline c hc
      rw [List.mem_singleton.mp hline] at hc
      exact isCR_isLF_of_printable (orphanLine_plain.2 c hc)
    have hflat := textPieces_flatMap (fun line hline c hc => (hends line hline c hc).1)
      (fun line hline c hc => (hends line hline c hc).2)
    rwa [List.flatMap_singleton] at hflat
  have hrecords : records loadsOne endedFile = [orphanRecord] := by
    rw [records_of_textPieces jsonLaws_loadsOne decode_endedFile hpieces, jsonLaws_loadsOne.blank [] rfl]
    simp [loadsOne_orphanLine]
  have horphans : orphansOf loadsOne endedFile = [orphan] := orphansOf_orphanLine decode_endedFile hrecords
  have hlaws : JsonLaws loadsOne (fun _ => healingLine)
      (synthetic strName (text "s") (orphansOf loadsOne endedFile)) := by
    rw [horphans]
    exact jsonLaws_loadsOne
  have hended : endedLines endedFile = [orphanLine] := by
    rw [endedLines, decode_endedFile, Option.map_some, hpieces]
    rfl
  have hplain : isSyntheticRecord orphanRecord = false := by rfl
  refine (healed_iff hlaws (by decide)).mpr ⟨⟨_, decode_endedFile⟩, ?_, ?_, ?_⟩
  · rw [hrecords]
    exact readable_orphanRecord
  · intro _
    rw [lastPiece, decode_endedFile, Option.bind_some, hpieces]
    rfl
  · rw [horphans, if_neg (by simp), hended]
    refine ⟨?_, ?_, ?_⟩
    · intro line hline record hload hsynthetic
      rw [List.mem_singleton.mp hline, loadsOne_orphanLine] at hload
      cases hload
      rw [hplain] at hsynthetic
      cases hsynthetic
    · rintro ⟨line, hline, record, hload, hsynthetic⟩
      rw [List.mem_singleton.mp hline, loadsOne_orphanLine] at hload
      cases hload
      rw [hplain] at hsynthetic
      cases hsynthetic
    · intro id huse hresult
      simpa [loadsOne_orphanLine, hplain] using hresult

/-- The record is written behind the last line, and the merged line is no record at all. -/
theorem not_healed_tornFile : ¬ Healed loadsOne (fun _ => healingLine) strName (text "s") tornFile := by
  have hpieces : textPieces orphanLine = [] ++ [orphanLine] := by
    have hends : ∀ c ∈ orphanLine, isCR c = false ∧ isLF c = false :=
      fun c hc => isCR_isLF_of_printable (orphanLine_plain.2 c hc)
    rw [textPieces, universalNewlines_of_notMem fun c hc => (hends c hc).1,
      splitBy_of_notMem fun c hc => (hends c hc).2]
    rfl
  have hrecords : records loadsOne tornFile = [orphanRecord] := by
    rw [records_of_textPieces jsonLaws_loadsOne decode_tornFile hpieces, loadsOne_orphanLine]
    rfl
  have horphans : orphansOf loadsOne tornFile = [orphan] := orphansOf_orphanLine decode_tornFile hrecords
  have hlaws : JsonLaws loadsOne (fun _ => healingLine)
      (synthetic strName (text "s") (orphansOf loadsOne tornFile)) := by
    rw [horphans]
    exact jsonLaws_loadsOne
  rw [healed_of_orphans hlaws (by decide) decode_tornFile hpieces (by rw [hrecords]; exact readable_orphanRecord)
    (by rw [horphans]; simp)]
  rintro ⟨hlast, -⟩
  exact absurd (orphanLine_plain.1.symm.trans hlast) (List.cons_ne_nil _ _)

end PrivaCloud.AgentRunner.TranscriptHealing
