import PrivaCloud.Common.Pagination
import PrivaCloud.Framework.Dict

/-!
# The audit log and its pages

`AuditLogger.append` and `query_cursor`, for entries with naive timestamps. A line of a file is the entry it holds.
-/

namespace PrivaCloud.Common

open Framework Jsonl

/-- A naive datetime, as its ISO text: the texts sort as the datetimes do. -/
structure NaiveTime where
  iso : String
  plain : '|' ∉ iso.toList
  deriving DecidableEq

structure AuditEntry where
  id : String
  timestamp : NaiveTime
  actor : String := ""
  action : String := ""
  target : Option String := none
  /-- `str(details.get("session_id") or "")` -/
  sessionId : String := ""
  deriving DecidableEq

def extractTsId (entry : AuditEntry) : Cursor := toLex (entry.timestamp.iso, entry.id)

/-- `_entry_date_str`: the date of the ISO text, but `strftime` does not pad the year. -/
def entryDateStr (entry : AuditEntry) : String :=
  String.ofList ((entry.timestamp.iso.toList.take 10).dropWhile (· = '0'))

def append (files : DailyFiles AuditEntry) (entry : AuditEntry) : DailyFiles AuditEntry :=
  appendLine (entryDateStr entry) entry files

def logOf (entries : List AuditEntry) : DailyFiles AuditEntry := entries.foldl append []

/-- `start_time` and `end_time`, which may carry an offset. -/
structure TimeBound where
  instant : NaiveTime
  aware : Bool := false

structure AuditFilter where
  actionFilter : Option String := none
  actorFilter : Option String := none
  targetFilter : Option String := none
  sessionIdFilter : Option String := none
  startTime : Option TimeBound := none
  endTime : Option TimeBound := none

def NaiveTime.lt (a b : NaiveTime) : Bool := decide (a.iso < b.iso)

def compareTimes (bound : Option TimeBound) (outside : NaiveTime → Bool) : Except QueryError Bool :=
  match bound with
  | none => .ok false
  | some b => if b.aware then .error .typeError else .ok (outside b.instant)

section Filter

-- `str.lower`
variable (lower : String → String)

/-- `needle in hay` -/
def occursIn (needle hay : String) : Bool := decide (needle.toList <:+: hay.toList)

/-- The checks of `matches` that come before the times. -/
def rejectsText (filter : AuditFilter) (entry : AuditEntry) : Bool :=
  (truthy filter.actionFilter).any (fun a => ¬ a.toList <+: entry.action.toList) ||
    (truthy filter.actorFilter).any (fun a => !occursIn (lower a) (lower entry.actor)) ||
    (truthy filter.targetFilter).any (fun t => (truthy entry.target).all fun target =>
      !occursIn (lower t) (lower target)) ||
    (truthy filter.sessionIdFilter).any (fun s => entry.sessionId = "" ∨
      !occursIn (lower s) (lower entry.sessionId))

def matchesFilters (filter : AuditFilter) (entry : AuditEntry) : Except QueryError Bool :=
  if rejectsText lower filter entry then .ok false
  else
    match compareTimes filter.startTime (fun start => entry.timestamp.lt start) with
    | .error e => .error e
    | .ok true => .ok false
    | .ok false =>
      match compareTimes filter.endTime (fun stop => stop.lt entry.timestamp) with
      | .error e => .error e
      | .ok after => .ok (!after)

end Filter

section Query

variable (lower : String → String) (filter : AuditFilter) (size : AuditEntry → Nat) (limit : Nat)

/-- What a line is worth to the query -/
def loadEntry (entry : AuditEntry) : Except QueryError (Option AuditEntry) :=
  (matchesFilters lower filter entry).map fun kept => if kept then some entry else none

/-- The pages of `query_cursor` from the first one on -/
def walkCursors (files : DailyFiles AuditEntry) (fuel : Nat) : Option (List (List AuditEntry)) :=
  walkPages size (loadEntry lower filter) extractTsId limit files fuel none

def passes (entry : AuditEntry) : Bool :=
  match matchesFilters lower filter entry with
  | .ok b => b
  | .error _ => false

end Query

/-- The file of the entry has a date that is found among the files. -/
def listed (entry : AuditEntry) : Bool := isDate (entryDateStr entry)

private theorem entryDateStr_of_listed {entry : AuditEntry} (h : listed entry = true) :
    entryDateStr entry = datePrefix entry.timestamp.iso := by
  have hten : ∀ date, isDate date = true → date.toList.length = 10 := by
    intro date hdate
    unfold isDate at hdate
    split at hdate
    · rename_i htext
      rw [htext]
      rfl
    · cases hdate
  have hlength := hten _ h
  rw [entryDateStr, String.toList_ofList] at hlength
  have hsuffix := List.dropWhile_suffix (fun c => decide (c = '0')) (l := entry.timestamp.iso.toList.take 10)
  have htake := List.length_take_le 10 entry.timestamp.iso.toList
  rw [entryDateStr, datePrefix, hsuffix.eq_of_length_le (by omega)]

section Files

variable {entries : List AuditEntry}

private theorem mem_append_date {files : DailyFiles AuditEntry}
    (h : ∀ file ∈ files, ∀ entry ∈ file.2, entryDateStr entry = file.1) (entry : AuditEntry) :
    ∀ file ∈ append files entry, ∀ e ∈ file.2, entryDateStr e = file.1 := by
  unfold append
  induction files with
  | nil =>
    intro file hfile e he
    rw [List.mem_singleton.mp hfile, List.mem_singleton] at he
    rw [List.mem_singleton.mp hfile, he]
  | cons file files ih =>
    obtain ⟨hfirst, hrest⟩ := List.forall_mem_cons.mp h
    simp only [appendLine]
    split
    · rename_i hdate
      refine List.forall_mem_cons.mpr ⟨fun e he => ?_, hrest⟩
      rcases List.mem_append.mp he with he | he
      · exact hfirst e he
      · rw [List.mem_singleton.mp he]
        exact hdate.symm
    · exact List.forall_mem_cons.mpr ⟨hfirst, ih hrest⟩

private theorem logOf_dated (entries : List AuditEntry) :
    ∀ file ∈ logOf entries, ∀ entry ∈ file.2, entryDateStr entry = file.1 := by
  have hfold : ∀ files : DailyFiles AuditEntry, (∀ file ∈ files, ∀ entry ∈ file.2, entryDateStr entry = file.1) →
      ∀ file ∈ entries.foldl append files, ∀ entry ∈ file.2, entryDateStr entry = file.1 := by
    induction entries with
    | nil => exact fun _ h => h
    | cons entry entries ih => exact fun files h => ih _ (mem_append_date h entry)
  exact hfold [] fun _ h => by cases h

private theorem readOrder_logOf (entries : List AuditEntry) : (readOrder (logOf entries)).Perm entries := by
  have hfold : ∀ files, (readOrder (entries.foldl append files)).Perm (entries ++ readOrder files) := by
    induction entries with
    | nil => exact fun _ => List.Perm.refl _
    | cons entry entries ih =>
      intro files
      refine (ih (append files entry)).trans (((readOrder_appendLine _ entry files).append_left _).trans ?_)
      exact List.perm_middle
  have hempty := hfold []
  rwa [show readOrder ([] : DailyFiles AuditEntry) = [] from rfl, List.append_nil] at hempty

private theorem mem_listDailyFiles {file : String × List AuditEntry} (h : file ∈ listDailyFiles (logOf entries)) :
    file ∈ logOf entries ∧ isDate file.1 = true :=
  List.mem_filter.mp ((List.mem_insertionSort _).mp h)

/-- The reader comes upon the entries that are listed. -/
theorem readOrder_listed (entries : List AuditEntry) :
    (readOrder (listDailyFiles (logOf entries))).Perm (entries.filter listed) := by
  have hfilter : ∀ files : DailyFiles AuditEntry, (∀ file ∈ files, ∀ entry ∈ file.2, entryDateStr entry = file.1) →
      readOrder (files.filter fun file => isDate file.1) = (readOrder files).filter listed := by
    intro files h
    induction files with
    | nil => rfl
    | cons file files ih =>
      obtain ⟨hfile, hfiles⟩ := List.forall_mem_cons.mp h
      have hcons : readOrder (file :: files) = file.2.reverse ++ readOrder files := rfl
      have hlisted : ∀ entry ∈ file.2.reverse, listed entry = isDate file.1 := by
        intro entry hentry
        rw [listed, hfile entry (List.mem_reverse.mp hentry)]
      rw [hcons, List.filter_append, ← ih hfiles]
      cases hdate : isDate file.1 with
      | true =>
        have hall : file.2.reverse.filter listed = file.2.reverse :=
          List.filter_eq_self.mpr fun entry hentry => (hlisted entry hentry).trans hdate
        rw [List.filter_cons_of_pos (by simpa using hdate), hall]
        rfl
      | false =>
        have hnone : file.2.reverse.filter listed = [] :=
          List.filter_eq_nil_iff.mpr fun entry hentry => by simp [hlisted entry hentry, hdate]
        rw [List.filter_cons_of_neg (by simpa using hdate), hnone, List.nil_append]
  rw [listDailyFiles]
  refine ((List.perm_insertionSort _ _).flatMap_right _).trans ?_
  rw [show ((logOf entries).filter fun file => isDate file.1).flatMap (fun file => file.2.reverse) = _ from
    hfilter _ (logOf_dated entries)]
  exact (readOrder_logOf entries).filter _

end Files

section Pages

variable {lower : String → String} {filter : AuditFilter} {size : AuditEntry → Nat} {entries : List AuditEntry}
  {limit : Nat}

/-- Once a comparison of times raises, no entry passes: a bound is aware. -/
theorem not_passes_of_error {entry : AuditEntry} {e : QueryError}
    (hraises : matchesFilters lower filter entry = .error e) (other : AuditEntry) :
    matchesFilters lower filter other ≠ .ok true := by
  have haware : ∀ {bound : Option TimeBound} {outside : NaiveTime → Bool},
      compareTimes bound outside = .error e → ∀ outside', compareTimes bound outside' = .error e := by
    intro bound outside h outside'
    cases bound with
    | none => cases h
    | some b =>
      simp only [compareTimes] at h ⊢
      split at h
      · rename_i hb
        rw [if_pos hb]
        exact h
      · cases h
  intro hother
  unfold matchesFilters at hraises hother
  split at hraises
  · cases hraises
  · split at hother
    · cases hother
    · split at hraises
      · rename_i hstart
        rw [haware (hraises ▸ hstart)] at hother
        cases hother
      · cases hraises
      · split at hraises
        · rename_i hstop
          split at hother
          · cases hother
          · cases hother
          · rw [haware (hraises ▸ hstop)] at hother
            cases hother
        · cases hraises

/-- What is found where no comparison raises -/
def found (lower : String → String) (filter : AuditFilter) (entry : AuditEntry) : Option AuditEntry :=
  if passes lower filter entry then some entry else none

private theorem filterMap_found (lower : String → String) (filter : AuditFilter) (lines : List AuditEntry) :
    lines.filterMap (found lower filter) = lines.filter (passes lower filter) := by
  induction lines with
  | nil => rfl
  | cons entry lines ih =>
    rw [List.filterMap_cons, List.filter_cons, ih, found]
    cases passes lower filter entry <;> rfl

theorem loadEntry_ne_some {entry : AuditEntry} {e : QueryError} (hraises : matchesFilters lower filter entry = .error e)
    (other record : AuditEntry) : loadEntry lower filter other ≠ .ok (some record) := by
  have hnot := not_passes_of_error hraises other
  unfold loadEntry
  cases hmatches : matchesFilters lower filter other with
  | error e => simp [Except.map]
  | ok kept =>
    cases kept with
    | false => simp [Except.map]
    | true => exact absurd hmatches hnot

theorem scanLines_error {lines : List AuditEntry} (hnone : ∀ line record, loadEntry lower filter line ≠ .ok (some record))
    (hraises : ∃ line ∈ lines, ∃ e, loadEntry lower filter line = .error e) (seen : List AuditEntry) :
    ∃ e, scanLines (loadEntry lower filter) extractTsId limit none seen lines = .error e := by
  induction lines with
  | nil =>
    obtain ⟨_, hline, -⟩ := hraises
    cases hline
  | cons line lines ih =>
    rw [scanLines]
    cases hload : loadEntry lower filter line with
    | error e => exact ⟨e, rfl⟩
    | ok record =>
      cases record with
      | some record => exact absurd hload (hnone line record)
      | none =>
        obtain ⟨other, hother, e, he⟩ := hraises
        rcases List.mem_cons.mp hother with rfl | hother
        · rw [hload] at he
          cases he
        · exact ih ⟨other, hother, e, he⟩

private theorem scanFiles_error {files : DailyFiles AuditEntry}
    (hnone : ∀ line record, loadEntry lower filter line ≠ .ok (some record))
    (hsmall : ∀ file ∈ files, (file.2.map size).sum ≤ maxDailyScanBytes)
    (hraises : ∃ line ∈ readOrder files, ∃ e, loadEntry lower filter line = .error e) :
    ∃ e, scanFiles size (loadEntry lower filter) extractTsId limit none [] files = .error e := by
  induction files with
  | nil =>
    obtain ⟨_, hline, -⟩ := hraises
    cases hline
  | cons file files ih =>
    obtain ⟨hfits, hsmall⟩ := List.forall_mem_cons.mp hsmall
    obtain ⟨line, hline, e, he⟩ := hraises
    rw [scanFiles, Option.any_none, if_neg Bool.false_ne_true, tailLines, if_pos hfits]
    by_cases hfile : ∃ other ∈ file.2.reverse, ∃ e', loadEntry lower filter other = .error e'
    · obtain ⟨e', he'⟩ : ∃ e', scanLines (loadEntry lower filter) extractTsId limit none [] file.2.reverse = .error e' :=
        scanLines_error hnone hfile []
      rw [he']
      exact ⟨e', rfl⟩
    · have hclean : ∀ other ∈ file.2.reverse, loadEntry lower filter other = .ok none := by
        intro other hother
        cases hload : loadEntry lower filter other with
        | error e' => exact absurd ⟨other, hother, e', hload⟩ hfile
        | ok record =>
          cases record with
          | none => rfl
          | some record => exact absurd hload (hnone other record)
      have hnothing : file.2.reverse.filterMap (fun _ : AuditEntry => (none : Option AuditEntry)) = [] :=
        List.filterMap_eq_nil_iff.mpr fun _ _ => rfl
      have hscan := @scanLines_eq _ _ _ extractTsId limit none (fun _ => none) [] _ hclean (by simp) (Nat.zero_le _)
      rw [hscan, hnothing]
      simp only [List.filter_nil, List.append_nil, List.take_nil, List.length_nil, Nat.not_lt_zero, if_false]
      refine ih hsmall ⟨line, ?_, e, he⟩
      rcases List.mem_append.mp hline with hmem | hmem
      · exact absurd he (by rw [hclean line hmem]; simp)
      · exact hmem

private theorem walkCursors_error (hsmall : ∀ file ∈ logOf entries, (file.2.map size).sum ≤ maxDailyScanBytes)
    {entry : AuditEntry} (hentry : entry ∈ entries) (hlisted : listed entry = true) {e : QueryError}
    (hraises : matchesFilters lower filter entry = .error e) (fuel : Nat) :
    walkCursors lower filter size limit (logOf entries) fuel = none := by
  cases fuel with
  | zero => rfl
  | succ fuel =>
    have hread : entry ∈ readOrder (listDailyFiles (logOf entries)) :=
      (readOrder_listed entries).mem_iff.mpr (List.mem_filter.mpr ⟨hentry, hlisted⟩)
    have hload : loadEntry lower filter entry = .error e := by rw [loadEntry, hraises, Except.map]
    obtain ⟨e', he'⟩ : ∃ e', scanFiles size (loadEntry lower filter) extractTsId limit none []
        (listDailyFiles (logOf entries)) = .error e' := scanFiles_error (loadEntry_ne_some hraises)
      (fun file hfile => hsmall file (mem_listDailyFiles hfile).1) ⟨entry, hread, e, hload⟩
    have hquery : queryPage size (loadEntry lower filter) extractTsId limit (logOf entries) none = .error e' := by
      have hdecode : (none : Option (List Char)).mapM decodeCursor = .ok none := rfl
      rw [queryPage, hdecode]
      simp only [readRecordsBefore, he', Except.map]
    rw [walkCursors, walkPages, hquery]

variable (lower filter size entries limit)

/-- No time of an entry that is listed is compared with an aware bound. -/
def Comparable : Prop :=
  ∀ entry ∈ entries, listed entry = true → matchesFilters lower filter entry = .ok (passes lower filter entry)

/-- The entries that pass, in the order in which the reader comes upon them. -/
def inOrder : List AuditEntry :=
  (readOrder (listDailyFiles (logOf entries))).filter (passes lower filter)

/-- An entry whose key is a well-formed cursor. -/
def endsPage (entry : AuditEntry) : Bool := (extractTsId entry).wellFormed

/-- Following `next_cursor` from the first page on yields the slices of the sorted entries that pass. -/
def PagesAll : Prop :=
  ∃ fuel pages, walkCursors lower filter size limit (logOf entries) fuel = some pages ∧
    Slices limit (descending extractTsId (entries.filter (passes lower filter))) pages

/-- No naive timestamp is compared with an aware bound, every entry that passes is listed and stands within the first
`limit + 1` of what the reader comes upon from its page on, and no page that has a next one ends with an entry without
id. -/
structure KeepsPages : Prop where
  comparable : Comparable lower filter entries
  listed : ∀ entry ∈ entries, passes lower filter entry = true → listed entry = true
  placed : Placed limit (inOrder lower filter entries)
    (descending extractTsId (entries.filter (passes lower filter)))
  ended : EndsAccepted endsPage limit (descending extractTsId (entries.filter (passes lower filter)))

variable {lower filter size entries limit}

private theorem inReadOrder_eq (lower : String → String) (filter : AuditFilter) (entries : List AuditEntry) :
    inReadOrder (found lower filter) (logOf entries) = inOrder lower filter entries :=
  filterMap_found lower filter _

private theorem readable (hsmall : ∀ file ∈ logOf entries, (file.2.map size).sum ≤ maxDailyScanBytes)
    (hids : (entries.map (·.id)).Nodup) (hcomp : Comparable lower filter entries) :
    Readable size (loadEntry lower filter) (found lower filter) extractTsId (listDailyFiles (logOf entries)) where
  loads := by
    intro entry hentry
    obtain ⟨hmem, hlisted⟩ := List.mem_filter.mp ((readOrder_listed entries).mem_iff.mp hentry)
    rw [loadEntry, hcomp entry hmem hlisted, Except.map, found]
  dated := by
    intro file hfile entry hentry record hfound
    obtain ⟨hmem, hdate⟩ := mem_listDailyFiles hfile
    have hfiled := logOf_dated entries file hmem entry hentry
    obtain ⟨-, hsame⟩ := Option.ite_none_right_eq_some.mp hfound
    obtain rfl := Option.some.inj hsame
    rw [← hfiled, entryDateStr_of_listed (by rw [listed, hfiled, hdate])]
    exact le_rfl
  small := fun file hfile => hsmall file (mem_listDailyFiles hfile).1
  ids := by
    have hread := ((readOrder_listed entries).map (·.id)).nodup_iff.mpr (hids.sublist (List.filter_sublist.map _))
    rw [filterMap_found]
    exact hread.sublist (List.filter_sublist.map _)

private theorem inOrder_perm (hlisted : ∀ entry ∈ entries, passes lower filter entry = true → listed entry = true) :
    (inOrder lower filter entries).Perm (entries.filter (passes lower filter)) := by
  refine ((readOrder_listed entries).filter _).trans (List.Perm.of_eq ?_)
  rw [List.filter_filter]
  refine List.filter_congr fun entry hentry => ?_
  cases hpasses : passes lower filter entry with
  | false => rfl
  | true => rw [hlisted entry hentry hpasses, Bool.and_self]

private theorem descending_inOrder (hids : (entries.map (·.id)).Nodup)
    (hlisted : ∀ entry ∈ entries, passes lower filter entry = true → listed entry = true) :
    descending extractTsId (entries.filter (passes lower filter)) =
      descending extractTsId (inOrder lower filter entries) := by
  have hperm := inOrder_perm hlisted
  have hkeys : ((entries.filter (passes lower filter)).map extractTsId).Nodup := by
    have hsub := hids.sublist (List.filter_sublist (p := passes lower filter) |>.map _)
    rw [List.Nodup, List.pairwise_map] at hsub ⊢
    exact hsub.imp fun hne heq => hne (Prod.mk.inj (toLex.injective heq)).2
  refine (descending_sorted hkeys).eq_of_perm (descending_sorted ((hperm.map _).nodup_iff.mpr hkeys)) ?_
  exact (perm_descending _).trans (hperm.symm.trans (perm_descending _).symm)

/-- Paging through the audit log loses nothing exactly when the log keeps its pages. -/
theorem pagesAll_iff_keepsPages (lower : String → String) (filter : AuditFilter) (size : AuditEntry → Nat)
    (entries : List AuditEntry) (limit : Nat) (hlimit : 1 ≤ limit) (hids : (entries.map (·.id)).Nodup)
    (hsmall : ∀ file ∈ logOf entries, (file.2.map size).sum ≤ maxDailyScanBytes) :
    PagesAll lower filter size entries limit ↔ KeepsPages lower filter entries limit := by
  constructor
  · rintro ⟨fuel, pages, hpages, hslices⟩
    have hcomp : Comparable lower filter entries := by
      intro entry hentry hlisted
      cases hmatches : matchesFilters lower filter entry with
      | error e =>
        rw [walkCursors_error hsmall hentry hlisted hmatches] at hpages
        cases hpages
      | ok kept => rw [passes, hmatches]
    have hreadable := readable hsmall hids hcomp
    have hplain : ∀ entry : AuditEntry, '|' ∉ (extractTsId entry).ts.toList := fun entry => entry.timestamp.plain
    have hlisted : ∀ entry ∈ entries, passes lower filter entry = true → listed entry = true := by
      intro entry hentry hpasses
      have hmem : entry ∈ pages.flatten := by
        rw [hslices.1, mem_descending]
        exact List.mem_filter.mpr ⟨hentry, hpasses⟩
      have hnone : ∀ c ∈ (none : Option Cursor), c.wellFormed = true := nofun
      have hread := mem_of_walk (hreadable.walk_of_walkPages hplain hnone hpages) entry hmem
      rw [inReadOrder_eq] at hread
      exact (List.mem_filter.mp ((readOrder_listed entries).mem_iff.mp (List.mem_of_mem_filter hread))).2
    rw [descending_inOrder hids hlisted, ← inReadOrder_eq] at hslices
    obtain ⟨hplaced, hended⟩ := hreadable.paged_of_walkPages hlimit hplain hpages hslices
    rw [inReadOrder_eq, ← descending_inOrder hids hlisted] at hplaced hended
    exact ⟨hcomp, hlisted, hplaced, hended⟩
  · rintro ⟨hcomp, hlisted, hplaced, hended⟩
    rw [descending_inOrder hids hlisted, ← inReadOrder_eq] at hplaced hended
    obtain ⟨fuel, pages, hpages, hslices⟩ := (readable hsmall hids hcomp).walkPages_slices hlimit ⟨hplaced, hended⟩
    rw [inReadOrder_eq, ← descending_inOrder hids hlisted] at hslices
    exact ⟨fuel, pages, hpages, hslices⟩

theorem KeepsPages.of_ordered (limit : Nat) (hids : (entries.map (·.id)).Nodup) (hcomp : Comparable lower filter entries)
    (hlisted : ∀ entry ∈ entries, passes lower filter entry = true → Common.listed entry = true)
    (hordered : Descending extractTsId (inOrder lower filter entries))
    (hcursors : ∀ entry ∈ inOrder lower filter entries, endsPage entry = true) :
    KeepsPages lower filter entries limit := by
  rw [← inReadOrder_eq] at hordered hcursors
  obtain ⟨hplaced, hended⟩ := Paged.of_descending limit hordered hcursors
  rw [inReadOrder_eq, ← descending_inOrder hids hlisted] at hplaced hended
  exact ⟨hcomp, hlisted, hplaced, hended⟩

end Pages

def loginAt (id iso : String) (h : '|' ∉ iso.toList := by decide) : AuditEntry where
  id := id
  timestamp := ⟨iso, h⟩
  action := "login"

/-- Three entries of a day, appended in the order of their times. -/
def orderedEntries : List AuditEntry :=
  [loginAt "a" "2026-01-01T00:00:01", loginAt "b" "2026-01-01T00:00:02", loginAt "c" "2026-01-01T00:00:03"]

theorem pagesAll_orderedEntries : PagesAll String.toLower {} (fun _ => 200) orderedEntries 2 :=
  (pagesAll_iff_keepsPages String.toLower {} (fun _ => 200) orderedEntries 2 (by decide) (by decide) (by decide)).mpr
    (KeepsPages.of_ordered 2 (by decide) (by unfold Comparable; decide) (by decide) (by unfold Descending; decide)
      (by decide))

def swappedEntries : List AuditEntry :=
  [loginAt "c" "2026-01-01T00:00:03", loginAt "a" "2026-01-01T00:00:01", loginAt "b" "2026-01-01T00:00:02"]

-- With one entry to a page the reader stops at the two that were appended last and never returns "c".
theorem swappedEntries_not_pagesAll : ¬ PagesAll String.toLower {} (fun _ => 200) swappedEntries 1 := by
  have hfirst : queryPage (fun _ => 200) (loadEntry String.toLower {}) extractTsId 1 (logOf swappedEntries) none =
      .ok ([loginAt "b" "2026-01-01T00:00:02"], some "2026-01-01T00:00:02|b".toList) := by
    decide +kernel
  have hsecond : queryPage (fun _ => 200) (loadEntry String.toLower {}) extractTsId 1 (logOf swappedEntries)
      (some "2026-01-01T00:00:02|b".toList) = .ok ([loginAt "a" "2026-01-01T00:00:01"], none) := by
    decide +kernel
  rintro ⟨fuel, pages, hpages, hflat, -⟩
  rw [walkPages_two hfirst hsecond hpages] at hflat
  exact absurd hflat (by decide +kernel)

end PrivaCloud.Common
