import PrivaCloud.AskUser.AnswerText
import PrivaCloud.Framework.JsonPieces

/-!
# The lines of the audit log

The line that `AuditLogger.append` writes for an entry, and the two readers of a day's file: `_tail_lines`
with the loop over its lines, and the scan of `rebuild_counts`. The page reader cuts lines as
`str.splitlines` does.
-/

namespace PrivaCloud.Common.AuditLines

open Framework
open Framework.JsonText (Value loads render)
open AskUser (pySpace)

structure AuditEntry where
  id : String
  /-- the timestamp as pydantic writes it -/
  timestamp : String
  actor : String
  action : String
  target : Option String
  details : List (List Char × Value)
  /-- the numbers in the details are numbers -/
  written : JsonText.Written (.obj details)

namespace AuditEntry

/-- The record that a reader makes of the entry -/
def value (entry : AuditEntry) : Value :=
  .obj [("id".toList, .str entry.id.toList), ("timestamp".toList, .str entry.timestamp.toList),
    ("actor".toList, .str entry.actor.toList), ("action".toList, .str entry.action.toList),
    ("target".toList, (entry.target.map fun target => .str target.toList).getD .null),
    ("details".toList, .obj entry.details)]

/-- `model_dump_json` -/
def line (entry : AuditEntry) : List Char := render entry.value

private theorem value_written (entry : AuditEntry) : JsonText.Written entry.value := by
  refine ⟨trivial, trivial, trivial, trivial, trivial, trivial, trivial, trivial, trivial, ?_, trivial,
    entry.written, trivial⟩
  cases entry.target <;> trivial

end AuditEntry

/-- What `append` adds to the file of the day -/
def appendLine (file : List UInt8) (entry : AuditEntry) : List UInt8 :=
  file ++ Utf8.encodeChars (entry.line ++ ['\n'])

def dayFile (entries : List AuditEntry) : List UInt8 := entries.foldl appendLine []

/-- Where `str.splitlines` cuts -/
def isLineBoundary (c : Char) : Bool :=
  c.toNat ∈ [0x0A, 0x0B, 0x0C, 0x0D, 0x1C, 0x1D, 0x1E, 0x85, 0x2028, 0x2029]

def splitlines : List Char → List (List Char)
  | [] => []
  | '\r' :: '\n' :: rest => [] :: splitlines rest
  | c :: rest =>
    if isLineBoundary c then [] :: splitlines rest
    else
      match splitlines rest with
      | [] => [[c]]
      | line :: lines => (c :: line) :: lines

def universalNewlines : List Char → List Char
  | '\r' :: '\n' :: rest => '\n' :: universalNewlines rest
  | '\r' :: rest => '\n' :: universalNewlines rest
  | c :: rest => c :: universalNewlines rest
  | [] => []

/-- `_tail_lines`; nothing where the file is not UTF-8. -/
def tailLines (file : List UInt8) (limit : Nat) : Option (List (List Char)) :=
  if file.length ≤ limit then (Utf8.decodeChars file).map fun text => splitlines (universalNewlines text)
  else
    let chunk := file.drop (file.length - limit)
    if 0x0A ∈ chunk then some (splitlines (Utf8.replaceChars (chunk.dropWhile (· ≠ 0x0A)).tail)) else some []

/-- A line of the loop: nothing for a blank one and for one that is no JSON text -/
def loadLine (line : List Char) : Option Value :=
  if stripBy pySpace line = [] then none else loads (stripBy pySpace line)

def pageRecords (file : List UInt8) (limit : Nat) : List Value :=
  ((tailLines file limit).getD []).filterMap loadLine

/-- `raw.get(key)`, the last of the pairs with that key -/
def get? (key : String) (members : List (List Char × Value)) : Option Value :=
  (members.reverse.find? fun member => member.1 = key.toList).map (·.2)

/-- `bool(value)`; a number is zero if it has no other digit before its exponent. -/
def truthy : Value → Bool
  | .null => false
  | .bool b => b
  | .num token => (token.takeWhile fun c => c ≠ 'e' ∧ c ≠ 'E').any fun c => c ≠ '-' ∧ c ≠ '.' ∧ c ≠ '0'
  | .str text => text ≠ []
  | .arr items => !items.isEmpty
  | .obj members => !members.isEmpty

/-- `_extract_id`; nothing where it raises. -/
def extractId : Value → Option Value
  | .obj members => some (((get? "id" members).filter truthy).getD (.str []))
  | _ => none

/-- `for line in f` -/
def textLines (text : List Char) : List (List Char) := splitBy (· = '\n') (universalNewlines text)

/-- The ids that `rebuild_counts` sees in a file -/
def scannedIds (file : List UInt8) : List Value :=
  ((((Utf8.decodeChars file).map textLines).getD []).filterMap loadLine).filterMap extractId

/-- Both readers find what was written. -/
structure Decodes (entries : List AuditEntry) : Prop where
  whole : ∀ limit, (dayFile entries).length ≤ limit → pageRecords (dayFile entries) limit = entries.map AuditEntry.value
  ids : ∀ limit, (dayFile entries).length ≤ limit → ∀ id,
    id ∈ (pageRecords (dayFile entries) limit).filterMap extractId ↔ id ∈ scannedIds (dayFile entries)
  tail : ∀ limit, limit < (dayFile entries).length →
    pageRecords (dayFile entries) limit <:+ entries.map AuditEntry.value

/-- U+0085, U+2028 and U+2029 are written as they are. -/
def AuditEntry.Unbroken (entry : AuditEntry) : Prop :=
  entry.value.Each (fun text => ∀ c ∈ text, c.toNat ≠ 0x85 ∧ c.toNat ≠ 0x2028 ∧ c.toNat ≠ 0x2029) (fun _ => True)

section Line

variable (entry : AuditEntry)

private theorem AuditEntry.control_notMem_line : ∀ c ∈ entry.line, decide (c.toNat < 32) = false := by
  have hprintable : ∀ c, JsonText.isPrintable c = true → decide (c.toNat < 32) = false := by
    intro c hc
    simp only [JsonText.isPrintable, Bool.and_eq_true, decide_eq_true_iff] at hc
    exact decide_eq_false (by omega)
  refine (JsonText.unmarked_render hprintable entry.value entry.value_written).mpr ?_
  refine JsonText.Value.Each.imp (fun text _ c _ hc => ?_) (fun _ _ => trivial) _ entry.value_written
  exact decide_eq_false (by omega)

private theorem AuditEntry.notMem_line {c : Char} (hc : c.toNat < 32) : c ∉ entry.line := by
  intro hmem
  exact absurd hc (of_decide_eq_false (entry.control_notMem_line c hmem))

theorem not_printable_of_isLineBoundary (c : Char) (hc : JsonText.isPrintable c = true) : isLineBoundary c = false := by
  simp only [JsonText.isPrintable, Bool.and_eq_true, decide_eq_true_iff] at hc
  simp only [isLineBoundary, List.mem_cons, List.not_mem_nil, or_false, decide_eq_false_iff_not]
  omega

private theorem AuditEntry.unbroken_iff : entry.Unbroken ↔ ∀ c ∈ entry.line, isLineBoundary c = false := by
  have htexts : ∀ c : Char, (c.toNat ≠ 0x85 ∧ c.toNat ≠ 0x2028 ∧ c.toNat ≠ 0x2029) ↔
      (32 ≤ c.toNat → isLineBoundary c = false) := by
    intro c
    simp only [isLineBoundary, List.mem_cons, List.not_mem_nil, or_false, decide_eq_false_iff_not]
    omega
  rw [AuditEntry.line, JsonText.unmarked_render not_printable_of_isLineBoundary entry.value entry.value_written]
  constructor
  · exact JsonText.Value.Each.imp (fun text h c hc => (htexts c).mp (h c hc)) (fun _ h => h) _
  · exact JsonText.Value.Each.imp (fun text h c hc => (htexts c).mpr (h c hc)) (fun _ h => h) _

private theorem AuditEntry.exists_line : ∃ l, entry.line = '\x7b' :: (l ++ ['\x7d']) := by
  have hmembers : ∀ members, ∃ l, JsonText.renderMembers members = l ++ ['\x7d'] := by
    intro members
    induction members with
    | nil => exact ⟨[], rfl⟩
    | cons member members ih =>
      obtain ⟨l, hl⟩ := ih
      refine ⟨',' :: ('"' :: JsonText.body member.1 ++ ':' :: (render member.2 ++ l)), ?_⟩
      rw [JsonText.renderMembers, hl]
      simp
  rw [AuditEntry.line, AuditEntry.value, render]
  obtain ⟨l, hl⟩ := hmembers [("timestamp".toList, .str entry.timestamp.toList),
    ("actor".toList, .str entry.actor.toList), ("action".toList, .str entry.action.toList),
    ("target".toList, (entry.target.map fun target => .str target.toList).getD .null),
    ("details".toList, .obj entry.details)]
  refine ⟨'"' :: JsonText.body "id".toList ++ ':' :: (render (.str entry.id.toList) ++ l), ?_⟩
  rw [hl]
  simp

private theorem AuditEntry.loadLine_line : loadLine entry.line = some entry.value := by
  have hstrip : stripBy pySpace entry.line = entry.line := by
    obtain ⟨l, hl⟩ := entry.exists_line
    rw [hl]
    exact stripBy_append_solid (by decide) (by decide) []
  have hne : entry.line ≠ [] := by
    obtain ⟨l, hl⟩ := entry.exists_line
    rw [hl]
    exact List.cons_ne_nil _ _
  rw [loadLine, hstrip, if_neg hne, AuditEntry.line, JsonText.loads_render entry.value_written]

end Line

def fileText (entries : List AuditEntry) : List Char := entries.flatMap fun entry => entry.line ++ ['\n']

private theorem fileText_cons (entry : AuditEntry) (entries : List AuditEntry) :
    fileText (entry :: entries) = entry.line ++ '\n' :: fileText entries := by
  rw [fileText, List.flatMap_cons, List.append_assoc]
  rfl

private theorem dayFile_eq (entries : List AuditEntry) : dayFile entries = Utf8.encodeChars (fileText entries) := by
  have hfold : ∀ file, entries.foldl appendLine file = file ++ Utf8.encodeChars (fileText entries) := by
    induction entries with
    | nil => exact fun file => (List.append_nil file).symm
    | cons entry entries ih =>
      intro file
      rw [List.foldl_cons, ih, appendLine, List.append_assoc, ← Utf8.encodeChars_append]
      rfl
  exact hfold []

private theorem dayFile_cons (entry : AuditEntry) (entries : List AuditEntry) :
    dayFile (entry :: entries) = Utf8.encodeChars entry.line ++ 0x0A :: dayFile entries := by
  rw [dayFile_eq, fileText_cons, ← List.singleton_append, Utf8.encodeChars_append, Utf8.encodeChars_append, dayFile_eq]
  rfl

private theorem splitlines_append {line : List Char} (hline : '\r' ∉ line) (rest : List Char) :
    splitlines (line ++ '\n' :: rest) = splitBy isLineBoundary line ++ splitlines rest := by
  induction line with
  | nil => rfl
  | cons c line ih =>
    rw [List.mem_cons, not_or] at hline
    obtain ⟨part, parts, hparts⟩ := exists_splitBy isLineBoundary line
    have hrest := ih hline.2
    rw [List.cons_append, splitlines]
    · by_cases hc : isLineBoundary c = true
      · rw [if_pos hc, splitBy_cons_sep hc, hrest]
        rfl
      · rw [if_neg hc, splitBy_cons (by simpa using hc) hparts, hrest, hparts]
        rfl
    · intro _ heq
      exact absurd heq.symm hline.1

private theorem splitlines_fileText (entries : List AuditEntry) :
    splitlines (fileText entries) = entries.flatMap fun entry => splitBy isLineBoundary entry.line := by
  induction entries with
  | nil => rfl
  | cons entry entries ih =>
    rw [fileText_cons, splitlines_append (entry.notMem_line (by decide)), ih, List.flatMap_cons]

private theorem universalNewlines_eq {text : List Char} (htext : '\r' ∉ text) : universalNewlines text = text := by
  induction text with
  | nil => rfl
  | cons c text ih =>
    rw [List.mem_cons, not_or] at htext
    rw [universalNewlines, ih htext.2]
    · intro _ heq
      exact absurd heq.symm htext.1
    · intro heq
      exact absurd heq.symm htext.1

private theorem cr_notMem_fileText (entries : List AuditEntry) : '\r' ∉ fileText entries := by
  intro hmem
  obtain ⟨entry, -, hline⟩ := List.mem_flatMap.mp hmem
  rcases List.mem_append.mp hline with hline | hline
  · exact entry.notMem_line (by decide) hline
  · exact absurd (List.mem_singleton.mp hline) (by decide)

def yields (entry : AuditEntry) : List Value := (splitBy isLineBoundary entry.line).filterMap loadLine

theorem pageRecords_whole (entries : List AuditEntry) {limit : Nat} (hlimit : (dayFile entries).length ≤ limit) :
    pageRecords (dayFile entries) limit = entries.flatMap yields := by
  rw [pageRecords, tailLines, if_pos hlimit, dayFile_eq, Utf8.decodeChars_encodeChars, Option.map_some,
    Option.getD_some, universalNewlines_eq (cr_notMem_fileText entries), splitlines_fileText, List.filterMap_flatMap]
  rfl

private theorem scannedIds_dayFile (entries : List AuditEntry) :
    scannedIds (dayFile entries) = (entries.map AuditEntry.value).filterMap extractId := by
  have hlines : textLines (fileText entries) = entries.map AuditEntry.line ++ [[]] := by
    have hflat : fileText entries = (entries.map AuditEntry.line).flatMap (· ++ ['\n']) := by
      rw [fileText, List.flatMap_map]
    rw [textLines, universalNewlines_eq (cr_notMem_fileText entries), hflat]
    refine splitBy_flatMap (by decide) fun line hline c hc => ?_
    obtain ⟨entry, -, rfl⟩ := List.mem_map.mp hline
    refine decide_eq_false ?_
    rintro rfl
    exact entry.notMem_line (by decide) hc
  have hload : (entries.map AuditEntry.line ++ [[]]).filterMap loadLine = entries.map AuditEntry.value := by
    have hblank : stripBy pySpace [] = [] := rfl
    have hlast : loadLine [] = none := by rw [loadLine, if_pos hblank]
    rw [List.filterMap_append, List.filterMap_map, List.filterMap_cons_none hlast, List.filterMap_nil, List.append_nil]
    have hsome : loadLine ∘ AuditEntry.line = fun entry => some entry.value := by
      funext entry
      rw [Function.comp_apply, entry.loadLine_line]
    rw [hsome, List.filterMap_eq_map']
  rw [scannedIds, dayFile_eq, Utf8.decodeChars_encodeChars, Option.map_some, Option.getD_some, hlines, hload]

private theorem AuditEntry.Unbroken.yields {entry : AuditEntry} (h : entry.Unbroken) :
    AuditLines.yields entry = [entry.value] := by
  rw [AuditLines.yields, splitBy_of_notMem (entry.unbroken_iff.mp h), List.filterMap_cons_some entry.loadLine_line,
    List.filterMap_nil]

def hasId : Value → Bool
  | .obj members => members.any fun member => member.1 = "id".toList
  | _ => false

private theorem hasId_value (entry : AuditEntry) : hasId entry.value = true := rfl

private theorem hasId_of_structural {v : Value}
    (h : v.Each (fun text => ∀ c ∈ text, JsonText.isStructural c = true) (fun _ => True)) : hasId v = false := by
  have hmembers : ∀ members, JsonText.EachMember (fun text => ∀ c ∈ text, JsonText.isStructural c = true)
      (fun _ => True) members → (members.any fun member => member.1 = "id".toList) = false := by
    intro members
    induction members with
    | nil => exact fun _ => rfl
    | cons member members ih =>
      intro h
      have hkey : member.1 ≠ "id".toList := by
        intro hkey
        exact absurd (h.1 'i' (by rw [hkey]; decide)) (by decide)
      rw [List.any_cons, ih h.2.2, decide_eq_false hkey]
      rfl
  cases v with
  | obj members => exact hmembers members h
  | _ => rfl

private theorem loose_of_pySpace (c : Char) (hc : pySpace c = true) : JsonText.Loose c := by
  by_cases hspace : c = ' '
  · rw [hspace]
    exact ⟨by decide, by decide, by decide, by decide⟩
  · apply JsonText.loose_of_not_printable
    have hne : c.toNat ≠ 32 := fun heq => hspace (Char.toNat_inj.mp heq)
    simp only [pySpace, Bool.or_eq_true, Bool.and_eq_true, decide_eq_true_iff, beq_iff_eq] at hc
    rw [JsonText.isPrintable, Bool.and_eq_false_iff, decide_eq_false_iff_not, decide_eq_false_iff_not]
    omega

private theorem loose_of_isLineBoundary (c : Char) (hc : isLineBoundary c = true) : JsonText.Loose c := by
  apply JsonText.loose_of_not_printable
  by_contra hprintable
  rw [not_printable_of_isLineBoundary c (by simpa using hprintable)] at hc
  cases hc

private theorem hasId_of_broken {entry : AuditEntry} (h : ¬ entry.Unbroken) : ∀ v ∈ yields entry, hasId v = false := by
  intro v hv
  obtain ⟨piece, hpiece, hload⟩ := List.mem_filterMap.mp hv
  have hscan := JsonText.scan_render entry.value [] entry.value_written
  rw [List.append_nil] at hscan
  have hpieces := JsonText.pieces_splitBy loose_of_isLineBoundary (show _ = some .outside from hscan)
  obtain ⟨first, pieces, hsplit⟩ := exists_splitBy isLineBoundary entry.line
  have hcut : pieces ≠ [] := by
    rintro rfl
    exact h (entry.unbroken_iff.mpr (splitBy_eq_singleton hsplit))
  rw [loadLine] at hload
  split at hload
  · cases hload
  · rw [AuditEntry.line] at hsplit hpiece
    rw [hsplit] at hpieces hpiece
    exact hasId_of_structural (JsonText.loads_piece loose_of_pySpace hcut hpieces piece hpiece v hload)

private theorem flatMap_yields {entries : List AuditEntry} (h : ∀ entry ∈ entries, entry.Unbroken) :
    entries.flatMap yields = entries.map AuditEntry.value := by
  rw [List.flatMap_congr fun entry hentry => (h entry hentry).yields, ← List.map_eq_flatMap]

theorem unbroken_of_flatMap_yields {entries : List AuditEntry} (h : entries.flatMap yields = entries.map AuditEntry.value) :
    ∀ entry ∈ entries, entry.Unbroken := by
  have hcount : ∀ entries : List AuditEntry, (entries.flatMap yields).countP hasId ≤ entries.length ∧
      ((entries.flatMap yields).countP hasId = entries.length → ∀ entry ∈ entries, entry.Unbroken) := by
    intro entries
    induction entries with
    | nil => exact ⟨le_rfl, fun _ entry hentry => by cases hentry⟩
    | cons entry entries ih =>
      rw [List.flatMap_cons, List.countP_append, List.length_cons]
      by_cases hentry : entry.Unbroken
      · have hone : (yields entry).countP hasId = 1 := by
          rw [hentry.yields]
          rfl
        refine ⟨by omega, fun hall => List.forall_mem_cons.mpr ⟨hentry, ih.2 (by omega)⟩⟩
      · have hnone : (yields entry).countP hasId = 0 :=
          List.countP_eq_zero.mpr fun v hv => by rw [hasId_of_broken hentry v hv]; decide
        exact ⟨by omega, fun hall => by omega⟩
  apply (hcount entries).2
  rw [h, List.countP_map]
  exact List.countP_eq_length.mpr fun entry _ => hasId_value entry

theorem exists_dayFile_drop (entries : List AuditEntry) (start : Nat) (h : 0x0A ∈ (dayFile entries).drop start) :
    ∃ last, last <:+ entries ∧ (((dayFile entries).drop start).dropWhile (· ≠ 0x0A)).tail = dayFile last := by
  induction entries generalizing start with
  | nil =>
    have hempty : dayFile [] = [] := rfl
    rw [hempty, List.drop_nil] at h
    cases h
  | cons entry entries ih =>
    have hline : ∀ b ∈ Utf8.encodeChars entry.line, decide (b ≠ 0x0A) = true := by
      intro b hb
      refine decide_eq_true ?_
      rintro rfl
      obtain ⟨c, hc, hnat⟩ := Utf8.mem_encodeChars hb (by decide)
      exact entry.notMem_line (by rw [hnat]; decide) hc
    rw [dayFile_cons] at h ⊢
    by_cases hstart : start ≤ (Utf8.encodeChars entry.line).length
    · refine ⟨entries, List.suffix_cons _ _, ?_⟩
      rw [List.drop_append_of_le_length hstart,
        List.dropWhile_append_of_pos fun b hb => hline b (List.mem_of_mem_drop hb),
        List.dropWhile_cons_of_neg (by decide), List.tail_cons]
    · obtain ⟨more, hmore⟩ := Nat.exists_eq_add_of_lt (Nat.lt_of_not_le hstart)
      have hdrop : (Utf8.encodeChars entry.line ++ 0x0A :: dayFile entries).drop start = (dayFile entries).drop more := by
        rw [hmore, Nat.add_assoc, ← List.drop_drop, List.drop_left, List.drop_succ_cons]
      rw [hdrop] at h ⊢
      obtain ⟨last, hlast, htail⟩ := ih more h
      exact ⟨last, hlast.trans (List.suffix_cons _ _), htail⟩

private theorem pageRecords_tail {entries : List AuditEntry} {limit : Nat} (hlimit : limit < (dayFile entries).length) :
    ∃ last, last <:+ entries ∧ pageRecords (dayFile entries) limit = last.flatMap yields := by
  rw [pageRecords, tailLines, if_neg (Nat.not_le.mpr hlimit)]
  simp only
  split
  · rename_i hmem
    obtain ⟨last, hlast, htail⟩ := exists_dayFile_drop entries _ hmem
    refine ⟨last, hlast, ?_⟩
    rw [htail, dayFile_eq, Utf8.replaceChars_encodeChars, Option.getD_some, splitlines_fileText, List.filterMap_flatMap]
    rfl
  · exact ⟨[], List.nil_suffix, rfl⟩

/-- Both readers find what was written exactly where no text has a line boundary that is written as it is. -/
theorem decodes_iff_unbroken (entries : List AuditEntry) : Decodes entries ↔ ∀ entry ∈ entries, entry.Unbroken := by
  constructor
  · intro h
    have hwhole := h.whole _ le_rfl
    rw [pageRecords_whole entries le_rfl] at hwhole
    exact unbroken_of_flatMap_yields hwhole
  · intro h
    have hwhole : ∀ limit, (dayFile entries).length ≤ limit →
        pageRecords (dayFile entries) limit = entries.map AuditEntry.value := by
      intro limit hlimit
      rw [pageRecords_whole entries hlimit, flatMap_yields h]
    refine ⟨hwhole, ?_, ?_⟩
    · intro limit hlimit id
      rw [hwhole limit hlimit, scannedIds_dayFile]
    · intro limit hlimit
      obtain ⟨last, hlast, hrecords⟩ := pageRecords_tail hlimit
      rw [hrecords, flatMap_yields fun entry hentry => h entry (hlast.subset hentry)]
      exact hlast.map _

def separatedEntry : AuditEntry where
  id := "1"
  timestamp := "2026-01-01T00:00:00Z"
  actor := "a\u2028b"
  action := "login"
  target := none
  details := []
  written := JsonText.written_empty

private theorem not_unbroken_separatedEntry : ¬ separatedEntry.Unbroken := by
  rintro ⟨-, -, -, -, -, hactor, -⟩
  exact absurd rfl (hactor (Char.ofNat 0x2028) (by decide)).2.1

theorem separatedEntry_not_decodes : ¬ Decodes [separatedEntry] := by
  intro h
  have hwhole := h.whole _ le_rfl
  rw [pageRecords_whole _ le_rfl, List.flatMap_singleton] at hwhole
  have hlost := hasId_of_broken not_unbroken_separatedEntry separatedEntry.value (by rw [hwhole]; exact List.mem_cons_self)
  rw [hasId_value] at hlost
  cases hlost

end PrivaCloud.Common.AuditLines
