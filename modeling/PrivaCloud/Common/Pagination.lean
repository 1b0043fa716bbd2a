import Mathlib.Data.List.Infix
import Mathlib.Data.Prod.Lex
import Mathlib.Data.String.Basic
import PrivaCloud.Framework.Paging

/-!
# The reader of daily files

`_read_records_before` of `_pagination` and the cursors, over any kind of line. A store says what a
line is worth to a query: a record with its timestamp and id, or nothing.
-/

namespace PrivaCloud.Common.Jsonl

open Framework

/-- A timestamp, as its ISO text, and an id -/
abbrev Cursor := String ×ₗ String

instance : DecidableEq Cursor := inferInstanceAs (DecidableEq (String × String))

def Cursor.ts (cursor : Cursor) : String := (ofLex cursor).1

def Cursor.rid (cursor : Cursor) : String := (ofLex cursor).2

inductive QueryError
  | valueError
  | typeError
  deriving DecidableEq

/-- `encode_cursor`, without the base64 around it -/
def encodeCursor (cursor : Cursor) : List Char := cursor.ts.toList ++ '|' :: cursor.rid.toList

/-- `decode_cursor`: the id begins after the first bar. -/
def decodeCursor (text : List Char) : Except QueryError Cursor :=
  let rid := (text.dropWhile (· ≠ '|')).drop 1
  if rid = [] then .error .valueError
  else .ok (toLex (String.ofList (text.takeWhile (· ≠ '|')), String.ofList rid))

def Cursor.wellFormed (cursor : Cursor) : Bool := '|' ∉ cursor.ts.toList ∧ cursor.rid ≠ ""

private theorem decodeCursor_encodeCursor {cursor : Cursor} (h : cursor.wellFormed = true) :
    decodeCursor (encodeCursor cursor) = .ok cursor := by
  obtain ⟨hts, hrid⟩ := of_decide_eq_true h
  have hkeep : ∀ c ∈ cursor.ts.toList, decide (c ≠ '|') = true := by
    intro c hc
    exact decide_eq_true fun hbar => hts (hbar ▸ hc)
  have htake : (encodeCursor cursor).takeWhile (· ≠ '|') = cursor.ts.toList := by
    rw [encodeCursor, List.takeWhile_append_of_pos hkeep]
    simp
  have hdrop : (encodeCursor cursor).dropWhile (· ≠ '|') = '|' :: cursor.rid.toList := by
    rw [encodeCursor, List.dropWhile_append_of_pos hkeep]
    simp
  have hne : cursor.rid.toList ≠ [] := fun hnil => hrid (String.toList_eq_nil_iff.mp hnil)
  simp only [decodeCursor, htake, hdrop, List.drop_succ_cons, List.drop_zero, if_neg hne, String.ofList_toList]
  rfl

def datePrefix (ts : String) : String := String.ofList (ts.toList.take 10)

private theorem lt_of_take_lt {n : Nat} {l l' : List Char} (h : l.take n < l'.take n) : l < l' := by
  induction n generalizing l l' with
  | zero => exact absurd h (lt_irrefl _)
  | succ n ih =>
    cases l with
    | nil =>
      cases l' with
      | nil => exact absurd h (lt_irrefl _)
      | cons c' l' => exact List.nil_lt_cons _ _
    | cons c l =>
      cases l' with
      | nil => exact absurd h (List.not_lt_nil _)
      | cons c' l' =>
        rw [List.take_succ_cons, List.take_succ_cons, List.cons_lt_cons_iff] at h
        rw [List.cons_lt_cons_iff]
        exact h.imp_right fun ⟨heq, hlt⟩ => ⟨heq, ih hlt⟩

private theorem lt_of_datePrefix_lt {a b : String} (h : datePrefix a < datePrefix b) : a < b := by
  rw [String.lt_iff_toList_lt] at h ⊢
  simp only [datePrefix, String.toList_ofList] at h
  exact lt_of_take_lt h

/-- The files of the days, each with its lines in the order in which they were appended. -/
abbrev DailyFiles (Line : Type) := List (String × List Line)

/-- The name of a file has a date, `\d{4}-\d{2}-\d{2}`. -/
def isDate (date : String) : Bool :=
  match date.toList with
  | [y1, y2, y3, y4, '-', m1, m2, '-', d1, d2] => [y1, y2, y3, y4, m1, m2, d1, d2].all Char.isDigit
  | _ => false

section Reader

variable {Line Record : Type}

def appendLine (date : String) (line : Line) : DailyFiles Line → DailyFiles Line
  | [] => [(date, [line])]
  | (other, lines) :: files =>
    if other = date then (other, lines ++ [line]) :: files
    else (other, lines) :: appendLine date line files

/-- `list_daily_files`, newest first -/
def listDailyFiles (files : DailyFiles Line) : DailyFiles Line :=
  (files.filter fun file => isDate file.1).insertionSort (fun a b => b.1 ≤ a.1)

def maxDailyScanBytes : Nat := 8 * 1024 * 1024

/-- The longest end of the lines whose bytes come after a line break within the bound. -/
def lastLines (size : Line → Nat) (limit : Nat) : List Line → List Line
  | [] => []
  | line :: lines =>
    if ((line :: lines).map size).sum < limit then line :: lines else lastLines size limit lines

def tailLines (size : Line → Nat) (limit : Nat) (lines : List Line) : List Line :=
  if (lines.map size).sum ≤ limit then lines else lastLines size limit lines

-- the bytes of a line, what it is worth to a query, and the timestamp and id of a record
variable (size : Line → Nat) (load : Line → Except QueryError (Option Record)) (key : Record → Cursor) (limit : Nat)
  (cursor : Option Cursor)

/-- The loop over the lines of a file, last line first; it stops with more than `limit` records. -/
def scanLines : List Record → List Line → Except QueryError (List Record)
  | seen, [] => .ok seen
  | seen, line :: lines =>
    match load line with
    | .error e => .error e
    | .ok none => scanLines seen lines
    | .ok (some record) =>
      if cursor.any fun c => c ≤ key record then scanLines seen lines
      else if seen.any fun other => (key other).rid = (key record).rid then scanLines seen lines
      else if limit < (seen ++ [record]).length then .ok (seen ++ [record])
      else scanLines (seen ++ [record]) lines

/-- The loop over the files; those of days after the cursor are skipped. -/
def scanFiles : List Record → DailyFiles Line → Except QueryError (List Record)
  | seen, [] => .ok seen
  | seen, (date, lines) :: files =>
    if cursor.any fun c => datePrefix c.ts < date then scanFiles seen files
    else
      match scanLines load key limit cursor seen (tailLines size maxDailyScanBytes lines).reverse with
      | .error e => .error e
      | .ok seen' => if limit < seen'.length then .ok seen' else scanFiles seen' files

def readRecordsBefore (files : DailyFiles Line) : Except QueryError (List Record × Bool) :=
  (scanFiles size load key limit cursor [] files).map fun seen =>
    ((descending key seen).take limit, decide (limit < seen.length))

/-- `compute_cursors` of a page without `after`: the next cursor is the key of the last record. -/
def nextCursor (records : List Record) (hasMore : Bool) : Option (List Char) :=
  if hasMore then records.getLast?.map fun record => encodeCursor (key record) else none

/-- A page of a query, from the cursor of an older page -/
def queryPage (files : DailyFiles Line) (before : Option (List Char)) :
    Except QueryError (List Record × Option (List Char)) :=
  match before.mapM decodeCursor with
  | .error e => .error e
  | .ok cursor =>
    (readRecordsBefore size load key limit cursor (listDailyFiles files)).map fun (records, hasMore) =>
      (records, nextCursor key records hasMore)

def walkPages (files : DailyFiles Line) : Nat → Option (List Char) → Option (List (List Record))
  | 0, _ => none
  | fuel + 1, before =>
    match queryPage size load key limit files before with
    | .error _ => none
    | .ok (page, none) => some [page]
    | .ok (page, some next) => (walkPages files fuel (some next)).map (page :: ·)

def readOrder (files : DailyFiles Line) : List Line := files.flatMap fun file => file.2.reverse

theorem readOrder_appendLine (date : String) (line : Line) (files : DailyFiles Line) :
    (readOrder (appendLine date line files)).Perm (line :: readOrder files) := by
  induction files with
  | nil => exact List.Perm.refl _
  | cons file files ih =>
    simp only [appendLine]
    split
    · simp [readOrder]
    · have hcons : readOrder (file :: appendLine date line files) =
          file.2.reverse ++ readOrder (appendLine date line files) := rfl
      rw [hcons]
      exact (ih.append_left _).trans List.perm_middle

theorem readOrder_listDailyFiles {files : DailyFiles Line} (hdates : ∀ file ∈ files, isDate file.1 = true) :
    (readOrder (listDailyFiles files)).Perm (readOrder files) := by
  rw [listDailyFiles, List.filter_eq_self.mpr hdates]
  exact (List.perm_insertionSort _ files).flatMap_right _

variable {size load key limit cursor} {loaded : Line → Option Record}

variable {pages : List (List Record)} {fuel : Nat}

theorem walkPages_two {files : DailyFiles Line} {page page' : List Record} {next : List Char}
    (hfirst : queryPage size load key limit files none = .ok (page, some next))
    (hsecond : queryPage size load key limit files (some next) = .ok (page', none))
    (hpages : walkPages size load key limit files fuel none = some pages) :
    pages = [page, page'] := by
  rcases fuel with _ | _ | fuel
  · cases hpages
  · simp [walkPages, hfirst] at hpages
  · simpa [walkPages, hfirst, hsecond] using hpages.symm

def taken (key : Record → Cursor) (cursor : Option Cursor) (record : Record) : Bool :=
  cursor.all fun c => key record < c

/-- A cursor without an id is refused. -/
theorem walkPages_refused {files : DailyFiles Line} {record : Record} (hplain : '|' ∉ (key record).ts.toList)
    (hrid : (key record).rid = "") (fuel : Nat) :
    walkPages size load key limit files fuel (some (encodeCursor (key record))) = none := by
  have hdecode : decodeCursor (encodeCursor (key record)) = .error .valueError := by
    have hkeep : ∀ c ∈ (key record).ts.toList, decide (c ≠ '|') = true := by
      intro c hc
      exact decide_eq_true fun hbar => hplain (hbar ▸ hc)
    have hdrop : ((encodeCursor (key record)).dropWhile (· ≠ '|')).drop 1 = [] := by
      rw [encodeCursor, List.dropWhile_append_of_pos hkeep, hrid]
      simp
    simp only [decodeCursor, hdrop, if_true]
  cases fuel with
  | zero => rfl
  | succ fuel =>
    rw [walkPages]
    simp [queryPage, hdecode]

theorem scanLines_eq {seen : List Record} {lines : List Line} (hload : ∀ line ∈ lines, load line = .ok (loaded line))
    (hids : ((seen ++ lines.filterMap loaded).map fun record => (key record).rid).Nodup)
    (hseen : seen.length ≤ limit) :
    scanLines load key limit cursor seen lines =
      .ok ((seen ++ (lines.filterMap loaded).filter (taken key cursor)).take (limit + 1)) := by
  induction lines generalizing seen with
  | nil => rw [scanLines, List.filterMap_nil, List.filter_nil, List.append_nil, List.take_of_length_le (by omega)]
  | cons line lines ih =>
    obtain ⟨hline, hlines⟩ := List.forall_mem_cons.mp hload
    rw [scanLines, hline]
    cases hrecord : loaded line with
    | none =>
      rw [List.filterMap_cons_none hrecord] at hids ⊢
      exact ih hlines hids hseen
    | some record =>
      rw [List.filterMap_cons_some hrecord] at hids ⊢
      have hskip : ((seen ++ lines.filterMap loaded).map fun other => (key other).rid).Nodup := hids.sublist
        ((List.Sublist.append_left (List.sublist_cons_self _ _) _).map _)
      simp only
      by_cases hcursor : taken key cursor record = true
      · have hbeyond : (cursor.any fun c => c ≤ key record) = false := by
          cases cursor with
          | none => rfl
          | some c => simpa [taken] using hcursor
        have hnew : (seen.any fun other => (key other).rid = (key record).rid) = false := by
          rw [List.any_eq_false]
          intro other hother heq
          rw [List.map_append, List.nodup_append] at hids
          exact hids.2.2 _ (List.mem_map_of_mem hother) (key record).rid
            (List.mem_map_of_mem List.mem_cons_self) (by simpa using heq)
        rw [hbeyond, hnew, List.filter_cons_of_pos hcursor]
        simp only [Bool.false_eq_true, if_false]
        split
        · rename_i hfull
          have hlen : (seen ++ [record]).length = limit + 1 := by
            rw [List.length_append, List.length_singleton] at hfull ⊢
            omega
          rw [List.append_cons seen record (List.filter _ _), List.take_append_of_le_length hlen.ge,
            List.take_of_length_le hlen.le]
        · rename_i hroom
          rw [ih hlines (by simpa using hids) (by omega), List.append_assoc, List.singleton_append]
      · have hbefore : (cursor.any fun c => c ≤ key record) = true := by
          cases cursor with
          | none => exact absurd rfl hcursor
          | some c => simpa [taken] using hcursor
        rw [hbefore, if_pos rfl, ih hlines hskip hseen, List.filter_cons_of_neg hcursor]

/-- What the reader goes by in the files that are listed: it loads their lines, which are not older than the file,
no file is longer than what is read of it, and no id comes twice. -/
structure Readable (size : Line → Nat) (load : Line → Except QueryError (Option Record))
    (loaded : Line → Option Record) (key : Record → Cursor) (files : DailyFiles Line) : Prop where
  loads : ∀ line ∈ readOrder files, load line = .ok (loaded line)
  dated : ∀ file ∈ files, ∀ line ∈ file.2, ∀ record, loaded line = some record →
    file.1 ≤ datePrefix (key record).ts
  small : ∀ file ∈ files, (file.2.map size).sum ≤ maxDailyScanBytes
  ids : (((readOrder files).filterMap loaded).map fun record => (key record).rid).Nodup

variable {files : DailyFiles Line}

private theorem filter_taken_newer {file : String × List Line}
    (hdated : ∀ line ∈ file.2, ∀ record, loaded line = some record → file.1 ≤ datePrefix (key record).ts)
    (hnewer : (cursor.any fun c => datePrefix c.ts < file.1) = true) :
    (file.2.reverse.filterMap loaded).filter (taken key cursor) = [] := by
  rw [List.filter_eq_nil_iff]
  intro record hrecord htaken
  obtain ⟨line, hline, hload⟩ := List.mem_filterMap.mp hrecord
  obtain ⟨c, rfl, hlt⟩ := (Option.any_eq_true _ _).mp hnewer
  have hdate := hdated line (List.mem_reverse.mp hline) record hload
  have hts : c.ts < (key record).ts := lt_of_datePrefix_lt (lt_of_lt_of_le (of_decide_eq_true hlt) hdate)
  have hle : c < key record := Prod.Lex.lt_iff.mpr (.inl hts)
  rw [taken, Option.all_some, decide_eq_true_iff] at htaken
  exact lt_asymm hle htaken

private theorem scanFiles_eq {seen : List Record} (hloads : ∀ line ∈ readOrder files, load line = .ok (loaded line))
    (hdated : ∀ file ∈ files, ∀ line ∈ file.2, ∀ record, loaded line = some record →
      file.1 ≤ datePrefix (key record).ts)
    (hsmall : ∀ file ∈ files, (file.2.map size).sum ≤ maxDailyScanBytes)
    (hids : ((seen ++ (readOrder files).filterMap loaded).map fun record => (key record).rid).Nodup)
    (hseen : seen.length ≤ limit) :
    scanFiles size load key limit cursor seen files =
      .ok ((seen ++ ((readOrder files).filterMap loaded).filter (taken key cursor)).take (limit + 1)) := by
  induction files generalizing seen with
  | nil =>
    rw [scanFiles]
    simp only [readOrder, List.flatMap_nil, List.filterMap_nil, List.filter_nil, List.append_nil]
    rw [List.take_of_length_le (by omega)]
  | cons file files ih =>
    obtain ⟨hfile, hfiles⟩ := List.forall_mem_cons.mp hdated
    obtain ⟨hfits, hsmall⟩ := List.forall_mem_cons.mp hsmall
    have hcons : readOrder (file :: files) = file.2.reverse ++ readOrder files := rfl
    rw [hcons] at hloads
    obtain ⟨hlines, hloads⟩ := List.forall_mem_append.mp hloads
    rw [hcons, List.filterMap_append] at hids ⊢
    rw [scanFiles, List.filter_append]
    split
    · rename_i hnewer
      rw [filter_taken_newer hfile hnewer, List.nil_append]
      refine ih hloads hfiles hsmall (hids.sublist ?_) hseen
      exact ((List.Sublist.append_left (List.sublist_append_right _ _) _).map _)
    · have hfirst : ((seen ++ file.2.reverse.filterMap loaded).map fun record => (key record).rid).Nodup := by
        refine hids.sublist (List.Sublist.map _ ?_)
        rw [← List.append_assoc]
        exact List.sublist_append_left _ _
      rw [tailLines, if_pos hfits, scanLines_eq hlines hfirst hseen]
      simp only
      split
      · rename_i hfull
        have hle : limit + 1 ≤ (seen ++ (file.2.reverse.filterMap loaded).filter (taken key cursor)).length := by
          rw [List.length_take] at hfull
          omega
        rw [← List.append_assoc, List.take_append_of_le_length hle]
      · rename_i hroom
        rw [List.length_take] at hroom
        rw [List.take_of_length_le (by omega)]
        rw [ih hloads hfiles hsmall ?_ (by omega), List.append_assoc]
        refine hids.sublist (List.Sublist.map _ ?_)
        rw [← List.append_assoc]
        exact List.Sublist.append_right (List.Sublist.append_left List.filter_sublist _) _

private theorem Readable.readRecordsBefore_eq (h : Readable size load loaded key files) (limit : Nat)
    (cursor : Option Cursor) :
    readRecordsBefore size load key limit cursor files =
      .ok (readPage key limit (beyond key cursor ((readOrder files).filterMap loaded)),
        decide (limit < (beyond key cursor ((readOrder files).filterMap loaded)).length)) := by
  have hbeyond : beyond key cursor ((readOrder files).filterMap loaded) =
      ((readOrder files).filterMap loaded).filter (taken key cursor) := rfl
  rw [readRecordsBefore, scanFiles_eq h.loads h.dated h.small h.ids (Nat.zero_le _), hbeyond]
  have hmore : (limit < (((readOrder files).filterMap loaded).filter (taken key cursor)).length) ↔
      limit < ((((readOrder files).filterMap loaded).filter (taken key cursor)).take (limit + 1)).length := by
    rw [List.length_take]
    omega
  simp only [Except.map, List.nil_append, readPage, hmore]

def inReadOrder (loaded : Line → Option Record) (files : DailyFiles Line) : List Record :=
  (readOrder (listDailyFiles files)).filterMap loaded

section Pages

variable (h : Readable size load loaded key (listDailyFiles files))

include h

private theorem Readable.nodup_keys : ((inReadOrder loaded files).map key).Nodup := by
  have hids := h.ids
  rw [List.Nodup, List.pairwise_map] at hids
  rw [List.Nodup, List.pairwise_map]
  exact hids.imp fun hne heq => hne (by rw [heq])

theorem Readable.queryPage_eq (limit : Nat) {cursor : Option Cursor} (hcursor : ∀ c ∈ cursor, c.wellFormed = true) :
    queryPage size load key limit files (cursor.map encodeCursor) =
      .ok (readPage key limit (beyond key cursor (inReadOrder loaded files)),
        nextCursor key (readPage key limit (beyond key cursor (inReadOrder loaded files)))
          (decide (limit < (beyond key cursor (inReadOrder loaded files)).length))) := by
  have hdecode : (cursor.map encodeCursor).mapM decodeCursor = .ok cursor := by
    cases cursor with
    | none => rfl
    | some c => simp [decodeCursor_encodeCursor (hcursor c rfl)]
  rw [queryPage, hdecode]
  simp only [h.readRecordsBefore_eq limit cursor, Except.map]
  rfl

/-- A page and the pages behind it, as far as its cursor is taken -/
theorem Readable.walkPages_succ (limit fuel : Nat) {cursor : Option Cursor}
    (hcursor : ∀ c ∈ cursor, c.wellFormed = true) :
    walkPages size load key limit files (fuel + 1) (cursor.map encodeCursor) =
      if limit < (beyond key cursor (inReadOrder loaded files)).length then
        match (readPage key limit (beyond key cursor (inReadOrder loaded files))).getLast? with
        | none => some [readPage key limit (beyond key cursor (inReadOrder loaded files))]
        | some record => (walkPages size load key limit files fuel (some (encodeCursor (key record)))).map
            (readPage key limit (beyond key cursor (inReadOrder loaded files)) :: ·)
      else some [readPage key limit (beyond key cursor (inReadOrder loaded files))] := by
  rw [walkPages, h.queryPage_eq limit hcursor]
  by_cases hmore : limit < (beyond key cursor (inReadOrder loaded files)).length
  · simp only [nextCursor, decide_eq_true hmore, if_true, if_pos hmore]
    cases (readPage key limit (beyond key cursor (inReadOrder loaded files))).getLast? <;> rfl
  · simp only [nextCursor, decide_eq_false hmore, Bool.false_eq_true, if_false, if_neg hmore]

private theorem Readable.walkPages_of_walk (limit : Nat) {cursor : Option Cursor}
    (hcursor : ∀ c ∈ cursor, c.wellFormed = true)
    (hwalk : walk key (fun record => (key record).wellFormed) limit (inReadOrder loaded files) fuel cursor =
      some pages) :
    walkPages size load key limit files fuel (cursor.map encodeCursor) = some pages := by
  induction fuel generalizing cursor pages with
  | zero => cases hwalk
  | succ fuel ih =>
    rw [walk] at hwalk
    rw [h.walkPages_succ limit fuel hcursor]
    split at hwalk
    · rename_i hmore
      rw [if_pos hmore]
      split at hwalk
      · rename_i hlast
        rw [hlast]
        exact hwalk
      · rename_i record hlast
        obtain ⟨haccepted, hmap⟩ := Option.ite_none_right_eq_some.mp hwalk
        obtain ⟨rest, hrest, rfl⟩ := Option.map_eq_some_iff.mp hmap
        have haccepts : ∀ c ∈ some (key record), c.wellFormed = true := by
          rintro _ ⟨⟩
          exact haccepted
        have hnext := ih haccepts hrest
        rw [Option.map_some] at hnext
        simp only [hlast, hnext, Option.map_some]
    · rename_i hlast
      rw [if_neg hlast]
      exact hwalk

/-- Where no timestamp has a bar, a cursor that is not taken has no id, and ends the walk. -/
theorem Readable.walk_of_walkPages (hplain : ∀ record, '|' ∉ (key record).ts.toList)
    {cursor : Option Cursor} (hcursor : ∀ c ∈ cursor, c.wellFormed = true)
    (hpages : walkPages size load key limit files fuel (cursor.map encodeCursor) = some pages) :
    walk key (fun record => (key record).wellFormed) limit (inReadOrder loaded files) fuel cursor = some pages := by
  induction fuel generalizing cursor pages with
  | zero => cases hpages
  | succ fuel ih =>
    rw [h.walkPages_succ limit fuel hcursor] at hpages
    rw [walk]
    split at hpages
    · rename_i hmore
      rw [if_pos hmore]
      split at hpages
      · rename_i hlast
        rw [hlast]
        exact hpages
      · rename_i record hlast
        obtain ⟨rest, hrest, rfl⟩ := Option.map_eq_some_iff.mp hpages
        have haccepted : (key record).wellFormed = true := by
          by_contra hrefused
          have hrid : (key record).rid = "" := by
            by_contra hne
            exact hrefused (decide_eq_true ⟨hplain record, hne⟩)
          rw [walkPages_refused (hplain record) hrid] at hrest
          cases hrest
        have haccepts : ∀ c ∈ some (key record), c.wellFormed = true := by
          rintro _ ⟨⟩
          exact haccepted
        have hnext := ih haccepts hrest
        simp only [hlast, haccepted, if_true, hnext, Option.map_some]
    · rename_i hlast
      rw [if_neg hlast]
      exact hpages

end Pages

variable [DecidableEq Record]

/-- Every record stands early enough in the reading, and the records that end a page make cursors. -/
structure Paged (loaded : Line → Option Record) (key : Record → Cursor) (limit : Nat)
    (files : DailyFiles Line) : Prop where
  placed : Placed limit (inReadOrder loaded files) (descending key (inReadOrder loaded files))
  ended : EndsAccepted (fun record => (key record).wellFormed) limit (descending key (inReadOrder loaded files))

theorem Paged.of_descending (limit : Nat) (hordered : Descending key (inReadOrder loaded files))
    (hcursors : ∀ record ∈ inReadOrder loaded files, (key record).wellFormed = true) :
    Paged loaded key limit files := by
  have hkeys : ((inReadOrder loaded files).map key).Nodup :=
    List.pairwise_map.mpr (hordered.imp fun h => (ne_of_lt h).symm)
  have hsorted : descending key (inReadOrder loaded files) = inReadOrder loaded files :=
    (descending_sorted hkeys).eq_of_perm hordered (perm_descending _)
  refine ⟨?_, fun p record _ hrecord => ?_⟩
  · rw [hsorted]
    exact placed_self limit hordered.nodup
  · exact hcursors record (mem_descending.mp (List.mem_of_getElem? hrecord))

/-- The pages of a log that is paged are the slices of its sorted records. -/
theorem Readable.walkPages_slices (h : Readable size load loaded key (listDailyFiles files)) (hlimit : 1 ≤ limit)
    (hpaged : Paged loaded key limit files) : ∃ fuel pages,
      walkPages size load key limit files fuel none = some pages ∧
        Slices limit (descending key (inReadOrder loaded files)) pages := by
  obtain ⟨fuel, pages, hwalk, hslices⟩ :=
    (At.walk_iff (fun record => (key record).wellFormed) hlimit h.nodup_keys (At.start h.nodup_keys)).mpr
      ⟨hpaged.placed, hpaged.ended⟩
  exact ⟨fuel, pages, h.walkPages_of_walk limit (fun c hc => by cases hc) hwalk, hslices⟩

theorem Readable.paged_of_walkPages (h : Readable size load loaded key (listDailyFiles files)) (hlimit : 1 ≤ limit)
    (hplain : ∀ record, '|' ∉ (key record).ts.toList)
    (hpages : walkPages size load key limit files fuel none = some pages)
    (hslices : Slices limit (descending key (inReadOrder loaded files)) pages) : Paged loaded key limit files := by
  have hnone : ∀ c ∈ (none : Option Cursor), c.wellFormed = true := nofun
  have hwalk := h.walk_of_walkPages hplain hnone hpages
  obtain ⟨hplaced, hended⟩ := (At.walk_iff _ hlimit h.nodup_keys (At.start h.nodup_keys)).mp
    ⟨fuel, pages, hwalk, hslices⟩
  exact ⟨hplaced, hended⟩

end Reader

end PrivaCloud.Common.Jsonl
