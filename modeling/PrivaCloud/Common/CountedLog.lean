import Mathlib.Data.List.Dedup
import Mathlib.Data.List.Perm.Basic
import PrivaCloud.Common.Pagination

/-!
# A log with a cached total

The daily files of an append-only store and the sidecar with their total: `increment_counts_sidecar` counts
on it, `_sidecar_matches` trusts it and `rebuild_counts` makes it anew. The total is right whenever the
sidecar is trusted, as long as no line is added where the sidecar does not see it.
-/

namespace PrivaCloud.Common.Jsonl

open Framework

section NewLine

variable {Line : Type} {date other : String} {line : Line} {files : DailyFiles Line} {file : String × List Line}

private theorem map_fst_appendLine (date : String) (line : Line) (files : DailyFiles Line) :
    (appendLine date line files).map Prod.fst =
      if date ∈ files.map Prod.fst then files.map Prod.fst else files.map Prod.fst ++ [date] := by
  induction files with
  | nil => rfl
  | cons file files ih =>
    simp only [appendLine]
    by_cases hdate : file.1 = date
    · rw [if_pos hdate, if_pos (by rw [← hdate]; exact List.mem_cons_self)]
      rfl
    · rw [if_neg hdate, List.map_cons, List.map_cons, ih]
      by_cases hmem : date ∈ files.map Prod.fst
      · rw [if_pos hmem, if_pos (List.mem_cons_of_mem _ hmem)]
      · rw [if_neg hmem, if_neg fun hcons => hmem ((List.mem_cons.mp hcons).resolve_left (Ne.symm hdate))]
        rfl

private theorem mem_map_fst_appendLine :
    other ∈ (appendLine date line files).map Prod.fst ↔ other ∈ files.map Prod.fst ∨ other = date := by
  rw [map_fst_appendLine]
  split
  · rename_i hmem
    exact ⟨Or.inl, fun h => h.elim id fun heq => heq ▸ hmem⟩
  · rw [List.mem_append, List.mem_singleton]

private theorem nodup_concat_date (honce : (files.map Prod.fst).Nodup) (hnew : date ∉ files.map Prod.fst) :
    (files.map Prod.fst ++ [date]).Nodup :=
  List.nodup_append.mpr ⟨honce, List.nodup_singleton _, fun _ hother _ hdate heq =>
    hnew (List.mem_singleton.mp hdate ▸ heq ▸ hother)⟩

private theorem nodup_appendLine (honce : (files.map Prod.fst).Nodup) :
    ((appendLine date line files).map Prod.fst).Nodup := by
  rw [map_fst_appendLine]
  split
  · exact honce
  · exact nodup_concat_date honce ‹_›

/-- The file of the date ends with the new line; the others are as they were. -/
theorem mem_appendLine (honce : (files.map Prod.fst).Nodup) (hfile : file ∈ appendLine date line files) :
    file ∈ files ∧ file.1 ≠ date ∨ file.1 = date ∧ file.2.getLast? = some line := by
  induction files with
  | nil =>
    rw [appendLine, List.mem_singleton] at hfile
    rw [hfile]
    exact Or.inr ⟨rfl, rfl⟩
  | cons first files ih =>
    obtain ⟨hfresh, hrest⟩ := List.nodup_cons.mp honce
    simp only [appendLine] at hfile
    split at hfile
    · rename_i hdate
      rcases List.mem_cons.mp hfile with rfl | hmem
      · exact Or.inr ⟨hdate, by simp⟩
      · refine Or.inl ⟨List.mem_cons_of_mem _ hmem, fun heq => hfresh ?_⟩
        rw [hdate, ← heq]
        exact List.mem_map_of_mem hmem
    · rename_i hdate
      rcases List.mem_cons.mp hfile with rfl | hmem
      · exact Or.inl ⟨List.mem_cons_self, hdate⟩
      · rcases ih hrest hmem with ⟨hold, hne⟩ | hnew
        · exact Or.inl ⟨List.mem_cons_of_mem _ hold, hne⟩
        · exact Or.inr hnew

end NewLine

/-- The counts sidecar -/
structure Counts where
  total : Nat
  lastFile : String
  lastLineId : String

structure CountedLog (Line : Type) where
  files : DailyFiles Line := []
  counts : Option Counts := none

/-- `open(path, "a")` -/
def openFile {Line : Type} (date : String) (files : DailyFiles Line) : DailyFiles Line :=
  if date ∈ files.map Prod.fst then files else files ++ [(date, [])]

section Log

variable {Line : Type} (size : Line → Nat) (id : Line → String)

/-- The sidecar names the file and its last line; a line that does not fit in the tail that is read is cut
and cannot be loaded. -/
def names (counts : Counts) (file : String × List Line) : Bool :=
  counts.lastFile = file.1 &&
    match file.2.getLast? with
    | none => counts.lastLineId = ""
    | some line => size line ≤ 8192 && id line = counts.lastLineId

def sidecarMatches (counts : Counts) : DailyFiles Line → Bool
  | [] => counts.total = 0
  | latest :: _ => names size id counts latest

/-- The date and the id of every line, oldest file first -/
def scanned (files : DailyFiles Line) : List (String × String) :=
  files.reverse.flatMap fun file => file.2.map fun line => (file.1, id line)

def rebuildCounts (files : DailyFiles Line) : Counts where
  total := ((scanned id files).map Prod.snd).dedup.length
  lastFile := ((scanned id files).getLast?.map Prod.fst).getD ""
  lastLineId := ((scanned id files).getLast?.map Prod.snd).getD ""

namespace CountedLog

variable (log : CountedLog Line)

def stored : List Line := readOrder log.files

/-- A line that is written, with `increment_counts_sidecar` -/
def append (date : String) (line : Line) : CountedLog Line where
  files := appendLine date line log.files
  counts := log.counts.map fun counts => { total := counts.total + 1, lastFile := date, lastLineId := id line }

def appendUncounted (date : String) (line : Line) : CountedLog Line :=
  { log with files := appendLine date line log.files }

def opened (date : String) : CountedLog Line := { log with files := openFile date log.files }

def trusts (counts : Counts) : Bool := sidecarMatches size id counts (listDailyFiles log.files)

def rebuilt : CountedLog Line := { log with counts := some (rebuildCounts id (listDailyFiles log.files)) }

/-- `_get_total`: the total, and the log with its sidecar -/
def getTotal : Nat × CountedLog Line :=
  match log.counts with
  | some counts =>
    if log.trusts size id counts then (counts.total, log)
    else ((rebuildCounts id (listDailyFiles log.files)).total, log.rebuilt id)
  | none => ((rebuildCounts id (listDailyFiles log.files)).total, log.rebuilt id)

structure Kept : Prop where
  dates : ∀ file ∈ log.files, isDate file.1 = true
  once : (log.files.map Prod.fst).Nodup
  ids : (log.stored.map id).Nodup
  known : ∀ counts ∈ log.counts, counts.lastFile = "" ∨
    counts.lastFile ∈ log.files.map Prod.fst ∧ counts.lastLineId ∈ log.stored.map id
  total : ∀ counts ∈ log.counts, log.trusts size id counts = true → counts.total = log.stored.length

/-- A line may be counted: the sidecar is trusted, or it will not be trusted afterwards. -/
def Countable (date : String) (line : Line) : Prop := ∀ counts ∈ log.counts,
  log.trusts size id counts = true ∨ (∃ file ∈ log.files, date < file.1) ∨ 8192 < size line

/-- A line may be left uncounted: it ends the newest file, or the sidecar is not trusted anyway. -/
def Uncountable (date : String) : Prop := ∀ counts ∈ log.counts,
  (∀ file ∈ log.files, file.1 ≤ date) ∨ log.trusts size id counts = false

instance (date : String) (line : Line) : Decidable (log.Countable size id date line) :=
  inferInstanceAs (Decidable (∀ _ ∈ log.counts, _))

instance (date : String) : Decidable (log.Uncountable size id date) :=
  inferInstanceAs (Decidable (∀ _ ∈ log.counts, _))

end CountedLog

end Log

section Latest

variable {Line : Type} {size : Line → Nat} {id : Line → String} {date : String} {line : Line}
  {files rest : DailyFiles Line} {file file' : String × List Line} {counts : Counts}

def Latest (files : DailyFiles Line) (file : String × List Line) : Prop :=
  file ∈ files ∧ ∀ other ∈ files, other.1 ≤ file.1

private theorem Latest.unique (honce : (files.map Prod.fst).Nodup) (h : Latest files file) (h' : Latest files file') :
    file = file' :=
  List.inj_on_of_nodup_map honce h.1 h'.1 (le_antisymm (h'.2 file h.1) (h.2 file' h'.1))

theorem listDailyFiles_perm (hdates : ∀ file ∈ files, isDate file.1 = true) : (listDailyFiles files).Perm files := by
  rw [listDailyFiles, List.filter_eq_self.mpr hdates]
  exact List.perm_insertionSort _ files

theorem latest_head (hdates : ∀ file ∈ files, isDate file.1 = true) (hlist : listDailyFiles files = file :: rest) :
    Latest files file := by
  have hperm := listDailyFiles_perm hdates
  have htotal : Std.Total (fun a b : String × List Line => b.1 ≤ a.1) := ⟨fun a b => le_total b.1 a.1⟩
  have htrans : IsTrans (String × List Line) (fun a b => b.1 ≤ a.1) := ⟨fun _ _ _ hab hbc => hbc.trans hab⟩
  have hsorted : (listDailyFiles files).Pairwise (fun a b => b.1 ≤ a.1) := List.pairwise_insertionSort _ _
  rw [hlist] at hperm hsorted
  refine ⟨hperm.mem_iff.mp List.mem_cons_self, fun other hother => ?_⟩
  rcases List.mem_cons.mp (hperm.mem_iff.mpr hother) with rfl | hrest
  · exact le_rfl
  · exact (List.pairwise_cons.mp hsorted).1 other hrest

private theorem latest_iff {trusted : DailyFiles Line → Bool} {empty : Prop} {named : String × List Line → Prop}
    (hdates : ∀ file ∈ files, isDate file.1 = true) (honce : (files.map Prod.fst).Nodup)
    (hnil : trusted [] = true ↔ empty)
    (hcons : ∀ head rest, Latest files head → (trusted (head :: rest) = true ↔ named head)) :
    trusted (listDailyFiles files) = true ↔ files = [] ∧ empty ∨ ∃ file, Latest files file ∧ named file := by
  cases hlist : listDailyFiles files with
  | nil =>
    have hempty : files = [] := by
      have hperm := listDailyFiles_perm hdates
      rw [hlist] at hperm
      exact hperm.symm.eq_nil
    rw [hnil]
    constructor
    · exact fun htotal => Or.inl ⟨hempty, htotal⟩
    · rintro (⟨-, htotal⟩ | ⟨file, ⟨hfile, -⟩, -⟩)
      · exact htotal
      · rw [hempty] at hfile
        cases hfile
  | cons head rest =>
    have hhead := latest_head hdates hlist
    rw [hcons head rest hhead]
    constructor
    · exact fun hnames => Or.inr ⟨_, hhead, hnames⟩
    · rintro (⟨hempty, -⟩ | ⟨file, hlatest, hnames⟩)
      · rw [hempty] at hhead
        cases hhead.1
      · rwa [hlatest.unique honce hhead] at hnames

theorem sidecarMatches_iff (hdates : ∀ file ∈ files, isDate file.1 = true) (honce : (files.map Prod.fst).Nodup) :
    sidecarMatches size id counts (listDailyFiles files) = true ↔
      files = [] ∧ counts.total = 0 ∨ ∃ file, Latest files file ∧ names size id counts file = true :=
  latest_iff hdates honce (by rw [sidecarMatches, decide_eq_true_iff]) fun _ _ _ => by rw [sidecarMatches]

private theorem names_lastFile (h : names size id counts file = true) : counts.lastFile = file.1 := by
  rw [names, Bool.and_eq_true, decide_eq_true_iff] at h
  exact h.1

private theorem names_line (h : names size id counts file = true) (hlast : file.2.getLast? = some line) :
    size line ≤ 8192 ∧ id line = counts.lastLineId := by
  rw [names, Bool.and_eq_true, hlast] at h
  simpa using h.2

private theorem Latest.le_appendLine (hlatest : Latest (appendLine date line files) file) :
    date ≤ file.1 ∧ ∀ other ∈ files, other.1 ≤ file.1 := by
  have hle : ∀ name ∈ (appendLine date line files).map Prod.fst, name ≤ file.1 := by
    intro name hname
    obtain ⟨other, hother, rfl⟩ := List.mem_map.mp hname
    exact hlatest.2 other hother
  exact ⟨hle date (mem_map_fst_appendLine.mpr (Or.inr rfl)), fun other hother =>
    hle other.1 (mem_map_fst_appendLine.mpr (Or.inl (List.mem_map_of_mem hother)))⟩

end Latest

namespace CountedLog

variable {Line : Type} {size : Line → Nat} {id : Line → String} {log : CountedLog Line} {date : String} {line : Line}
  {counts : Counts}

private theorem stored_appendLine (counts : Option Counts) :
    (stored ⟨appendLine date line log.files, counts⟩).Perm (line :: log.stored) :=
  readOrder_appendLine date line log.files

private theorem Kept.dates_appendLine (h : log.Kept size id) (hdate : isDate date = true) :
    ∀ file ∈ appendLine date line log.files, isDate file.1 = true := by
  intro file hfile
  rcases mem_appendLine h.once hfile with ⟨hold, -⟩ | ⟨rfl, -⟩
  · exact h.dates file hold
  · exact hdate

theorem Kept.ids_appendLine (h : log.Kept size id) (hnew : id line ∉ log.stored.map id) (counts : Option Counts) :
    ((stored ⟨appendLine date line log.files, counts⟩).map id).Nodup := by
  rw [((stored_appendLine counts).map id).nodup_iff]
  exact List.nodup_cons.mpr ⟨hnew, h.ids⟩

private theorem Kept.trusts_appendLine (h : log.Kept size id) (hdate : isDate date = true) {kept : Option Counts}
    (htrusts : trusts size id ⟨appendLine date line log.files, kept⟩ counts = true) :
    (∀ file ∈ log.files, file.1 ≤ date) ∧ counts.lastFile = date ∧ size line ≤ 8192 ∧ id line = counts.lastLineId ∨
      ∃ file ∈ log.files, date < file.1 ∧ log.trusts size id counts = true := by
  rcases (sidecarMatches_iff (h.dates_appendLine hdate) (nodup_appendLine h.once)).mp htrusts with
    ⟨hempty, -⟩ | ⟨file, hlatest, hnames⟩
  · have hmem : date ∈ (appendLine date line log.files).map Prod.fst := mem_map_fst_appendLine.mpr (Or.inr rfl)
    rw [show appendLine date line log.files = [] from hempty] at hmem
    cases hmem
  · obtain ⟨hle, hothers⟩ := hlatest.le_appendLine
    rcases mem_appendLine h.once hlatest.1 with ⟨hold, hne⟩ | ⟨hfile, hlast⟩
    · refine Or.inr ⟨file, hold, lt_of_le_of_ne hle (Ne.symm hne), ?_⟩
      exact (sidecarMatches_iff h.dates h.once).mpr (Or.inr ⟨file, ⟨hold, hothers⟩, hnames⟩)
    · rw [hfile] at hothers
      exact Or.inl ⟨hothers, (names_lastFile hnames).trans hfile, names_line hnames hlast⟩

theorem Kept.append (h : log.Kept size id) (hdate : isDate date = true) (hnew : id line ∉ log.stored.map id)
    (hcountable : log.Countable size id date line) : (log.append id date line).Kept size id where
  dates := h.dates_appendLine hdate
  once := nodup_appendLine h.once
  ids := h.ids_appendLine hnew _
  known := by
    intro counts hcounts
    obtain ⟨old, -, rfl⟩ := Option.map_eq_some_iff.mp hcounts
    have hperm : (log.append id date line).stored.Perm (line :: log.stored) := stored_appendLine _
    exact Or.inr ⟨mem_map_fst_appendLine.mpr (Or.inr rfl), (hperm.map id).mem_iff.mpr List.mem_cons_self⟩
  total := by
    intro counts hcounts htrusts
    obtain ⟨old, hold, rfl⟩ := Option.map_eq_some_iff.mp hcounts
    rw [CountedLog.append, (stored_appendLine _).length_eq, List.length_cons]
    rcases hcountable old hold with htrusted | hdistrusted
    · rw [h.total old hold htrusted]
    · exfalso
      rcases h.trusts_appendLine hdate htrusts with ⟨hnewest, -, hfits, -⟩ | ⟨file, hfile, hnewer, htrusts'⟩
      · rcases hdistrusted with ⟨file, hfile, hnewer⟩ | hlarge
        · exact absurd hnewer (not_lt_of_ge (hnewest file hfile))
        · exact absurd hlarge (Nat.not_lt.mpr hfits)
      · -- a trusted sidecar that names this day would make it the newest
        rcases (sidecarMatches_iff h.dates h.once).mp htrusts' with ⟨hempty, -⟩ | ⟨latest, hlatest, hnames⟩
        · rw [hempty] at hfile
          cases hfile
        · have hday : date = latest.1 := names_lastFile hnames
          exact absurd hnewer (not_lt_of_ge (hday ▸ hlatest.2 file hfile))

theorem Kept.appendUncounted (h : log.Kept size id) (hdate : isDate date = true) (hnew : id line ∉ log.stored.map id)
    (huncountable : log.Uncountable size id date) : (log.appendUncounted date line).Kept size id where
  dates := h.dates_appendLine hdate
  once := nodup_appendLine h.once
  ids := h.ids_appendLine hnew _
  known := by
    intro counts hcounts
    refine (h.known counts hcounts).imp_right fun ⟨hfile, hline⟩ => ?_
    exact ⟨mem_map_fst_appendLine.mpr (Or.inl hfile),
      ((stored_appendLine _).map id).mem_iff.mpr (List.mem_cons_of_mem _ hline)⟩
  total := by
    intro counts hcounts htrusts
    exfalso
    rcases h.trusts_appendLine hdate htrusts with ⟨-, hfile, -, hline⟩ | ⟨file, hfile, hnewer, htrusts'⟩
    · rcases h.known counts hcounts with hempty | ⟨-, hknown⟩
      · rw [← hfile, hempty] at hdate
        exact absurd hdate (by decide)
      · exact hnew (hline ▸ hknown)
    · rcases huncountable counts hcounts with hnewest | hidle
      · exact absurd hnewer (not_lt_of_ge (hnewest file hfile))
      · rw [hidle] at htrusts'
        cases htrusts'

theorem Kept.opened (h : log.Kept size id) (hdate : isDate date = true) : (log.opened date).Kept size id := by
  by_cases hold : date ∈ log.files.map Prod.fst
  · rw [CountedLog.opened, openFile, if_pos hold]
    exact h
  · have hfiles : (log.opened date).files = log.files ++ [(date, [])] := if_neg hold
    have hstored : (log.opened date).stored = log.stored := by
      rw [stored, hfiles, stored, readOrder, List.flatMap_append, List.flatMap_singleton, List.reverse_nil,
        List.append_nil]
      rfl
    have hnames : (log.opened date).files.map Prod.fst = log.files.map Prod.fst ++ [date] := by
      rw [hfiles, List.map_append]
      rfl
    have hdates : ∀ file ∈ (log.opened date).files, isDate file.1 = true := by
      intro file hfile
      rw [hfiles, List.mem_append, List.mem_singleton] at hfile
      rcases hfile with hfile | rfl
      · exact h.dates file hfile
      · exact hdate
    have honce : ((log.opened date).files.map Prod.fst).Nodup := by
      rw [hnames]
      exact nodup_concat_date h.once hold
    refine ⟨hdates, honce, by rw [hstored]; exact h.ids, ?_, ?_⟩
    · intro counts hcounts
      rw [hstored, hnames]
      exact (h.known counts hcounts).imp_right fun hknown => ⟨List.mem_append_left _ hknown.1, hknown.2⟩
    · intro counts hcounts htrusts
      rw [hstored]
      apply h.total counts hcounts
      rcases (sidecarMatches_iff hdates honce).mp htrusts with ⟨hempty, -⟩ | ⟨file, ⟨hfile, hlatest⟩, hname⟩
      · rw [hfiles] at hempty
        exact absurd hempty (by simp)
      · rw [hfiles, List.mem_append, List.mem_singleton] at hfile
        rcases hfile with hfile | rfl
        · refine (sidecarMatches_iff h.dates h.once).mpr (Or.inr ⟨file, ⟨hfile, fun other hother => ?_⟩, hname⟩)
          exact hlatest other (by rw [hfiles]; exact List.mem_append_left _ hother)
        · have hday : counts.lastFile = date := names_lastFile hname
          rcases h.known counts hcounts with hempty | ⟨hknown, -⟩
          · rw [← hday, hempty] at hdate
            exact absurd hdate (by decide)
          · exact absurd (hday ▸ hknown) hold

private theorem Kept.scanned_perm (h : log.Kept size id) :
    ((scanned id (listDailyFiles log.files)).map Prod.snd).Perm (log.stored.map id) := by
  have hscanned : (scanned id (listDailyFiles log.files)).map Prod.snd =
      (listDailyFiles log.files).reverse.flatMap fun file => file.2.map id := by
    rw [scanned, List.map_flatMap]
    simp only [List.map_map]
    rfl
  have hstored : log.stored.map id = log.files.flatMap fun file => file.2.reverse.map id := by
    rw [stored, readOrder, List.map_flatMap]
  rw [hscanned, hstored]
  refine ((List.reverse_perm _).trans (listDailyFiles_perm h.dates)).flatMap_right _ |>.trans ?_
  exact List.Perm.flatMap_left _ fun file _ => ((List.reverse_perm file.2).map _).symm

private theorem Kept.rebuildCounts_total (h : log.Kept size id) :
    (rebuildCounts id (listDailyFiles log.files)).total = log.stored.length := by
  have hperm := h.scanned_perm
  rw [rebuildCounts, List.Nodup.dedup (hperm.nodup_iff.mpr h.ids), hperm.length_eq, List.length_map]

private theorem Kept.rebuilt (h : log.Kept size id) : (log.rebuilt id).Kept size id where
  dates := h.dates
  once := h.once
  ids := h.ids
  known := by
    intro counts hcounts
    cases hcounts
    cases hlast : (scanned id (listDailyFiles log.files)).getLast? with
    | none =>
      refine Or.inl ?_
      rw [rebuildCounts, hlast]
      rfl
    | some last =>
      have hmem := List.mem_of_getLast? hlast
      obtain ⟨file, hfile, hline⟩ := List.mem_flatMap.mp hmem
      obtain ⟨line, -, rfl⟩ := List.mem_map.mp hline
      have hfile' := (listDailyFiles_perm h.dates).mem_iff.mp (List.mem_reverse.mp hfile)
      have hid := h.scanned_perm.mem_iff.mp (List.mem_map_of_mem hmem)
      refine Or.inr ⟨?_, ?_⟩
      · rw [rebuildCounts, hlast]
        exact List.mem_map_of_mem hfile'
      · rw [rebuildCounts, hlast]
        exact hid
  total := by
    intro counts hcounts _
    cases hcounts
    exact h.rebuildCounts_total

theorem Kept.getTotal_total (h : log.Kept size id) : (log.getTotal size id).1 = log.stored.length := by
  unfold getTotal
  cases hcounts : log.counts with
  | none => exact h.rebuildCounts_total
  | some counts =>
    simp only
    split
    · rename_i htrusts
      exact h.total counts hcounts htrusts
    · exact h.rebuildCounts_total

theorem Kept.getTotal (h : log.Kept size id) : (log.getTotal size id).2.Kept size id := by
  unfold CountedLog.getTotal
  cases hcounts : log.counts with
  | none => exact h.rebuilt
  | some counts =>
    simp only
    split
    · exact h
    · exact h.rebuilt

theorem Kept.start : (CountedLog.Kept size id {} : Prop) where
  dates := fun _ hfile => by cases hfile
  once := List.nodup_nil
  ids := List.nodup_nil
  known := fun _ hcounts => by cases hcounts
  total := fun _ hcounts => by cases hcounts

end CountedLog

end PrivaCloud.Common.Jsonl
