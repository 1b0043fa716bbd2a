import PrivaCloud.AgentRunner.HookLog

/-!
# What the hook log gives back

A query finds what was appended and the sidecar has the right total, as long as nothing is appended behind
the sidecar's back and the lines read as the reader expects them.
-/

namespace PrivaCloud.AgentRunner

open Framework Common.Jsonl

/-- A text that `model_dump_json` writes as it is. -/
def PlainText (text : String) : Prop := ∀ c ∈ text.toList, HookWriter.store.escape c = [c]

instance (text : String) : Decidable (PlainText text) := List.decidableBAll _ _

private theorem PlainText.quote {text : String} (h : PlainText text) :
    HookWriter.store.quote text = '"' :: text.toList ++ ['"'] := by
  have hflat : text.toList.flatMap HookWriter.store.escape = text.toList := by
    have hmap : text.toList.flatMap HookWriter.store.escape = text.toList.flatMap fun c => [c] :=
      List.flatMap_congr h
    rw [hmap, List.flatMap_singleton']
  rw [HookWriter.quote, hflat]

private theorem intercalate_append_cons (sep : Text) (front : List Text) (part : Text) (back : List Text) :
    part <:+: sep.intercalate (front ++ part :: back) := by
  induction front with
  | nil =>
    cases back with
    | nil => exact ⟨[], [], by simp⟩
    | cons next back => exact ⟨[], sep ++ sep.intercalate (next :: back), by simp [List.intercalate]⟩
  | cons first front ih =>
    obtain ⟨pre, post, hmid⟩ := ih
    cases hrest : front ++ part :: back with
    | nil => exact absurd hrest (by simp)
    | cons next rest =>
      refine ⟨first ++ sep ++ pre, post, ?_⟩
      rw [hrest] at hmid
      rw [List.cons_append, hrest, List.append_assoc, List.append_assoc, List.append_assoc]
      rw [← List.append_assoc pre, hmid]
      simp [List.intercalate]

private theorem prefilter_store {entry : HookLogEntry} (h : PlainText entry.eventType) :
    "\"event_type\":\"".toList ++ entry.eventType.toList ++ ['"'] <:+: HookWriter.store.render entry := by
  have hname : HookWriter.store.quote "event_type" ++ HookWriter.store.layout.key = "\"event_type\":".toList := by
    decide
  have hmember : HookWriter.store.member ("event_type", HookWriter.store.quote entry.eventType) =
      "\"event_type\":\"".toList ++ entry.eventType.toList ++ ['"'] := by
    rw [HookWriter.member, hname, h.quote]
    rfl
  rw [HookWriter.render, List.map_append, List.map_cons, hmember]
  obtain ⟨pre, post, hinner⟩ := intercalate_append_cons HookWriter.store.layout.item
    ((HookWriter.store.before entry).map HookWriter.store.member)
    ("\"event_type\":\"".toList ++ entry.eventType.toList ++ ['"'])
    ((HookWriter.store.after entry).map HookWriter.store.member)
  refine ⟨'\x7b' :: pre, post ++ ['\x7d'], ?_⟩
  rw [← hinner]
  simp

/-- The line is whole and, if the query has a type, written by the store and in the type's own letters. -/
def Found (eventType : Option String) (line : HookLine) : Prop :=
  line.cut = false ∧ ∀ type ∈ truthy eventType, line.writer = .store ∧ PlainText type

instance (eventType : Option String) (line : HookLine) : Decidable (Found eventType line) :=
  inferInstanceAs (Decidable (_ ∧ _))

private theorem loadLine_eq {eventType : Option String} {line : HookLine}
    (h : wanted eventType line.entry = true → Found eventType line) :
    loadLine eventType line = if wanted eventType line.entry then some line.entry else none := by
  unfold loadLine
  by_cases hwanted : wanted eventType line.entry = true
  · obtain ⟨hcut, hfound⟩ := h hwanted
    have hprefilter : (prefilter eventType).any (fun substr => ¬ substr <:+: line.text) = false := by
      unfold prefilter
      unfold wanted at hwanted
      cases htype : truthy eventType with
      | none => rfl
      | some type =>
        obtain ⟨hwriter, hplain⟩ := hfound type htype
        rw [htype, Option.all_some, decide_eq_true_iff] at hwanted
        have hinfix := prefilter_store (show PlainText line.entry.eventType from hwanted ▸ hplain)
        rw [hwanted, ← hwriter] at hinfix
        rw [Option.map_some, Option.any_some, decide_eq_false_iff_not, not_not]
        exact hinfix
    rw [hcut, hprefilter]
    rfl
  · rw [Bool.not_eq_true] at hwanted
    rw [hwanted]
    split
    · rfl
    · split <;> rfl

private theorem filterMap_loadLine {eventType : Option String} {lines : List HookLine}
    (h : ∀ line ∈ lines, wanted eventType line.entry = true → Found eventType line) :
    lines.filterMap (loadLine eventType) = (lines.map (·.entry)).filter (wanted eventType) := by
  induction lines with
  | nil => rfl
  | cons line lines ih =>
    obtain ⟨hline, hlines⟩ := List.forall_mem_cons.mp h
    rw [List.filterMap_cons, loadLine_eq hline, List.map_cons, List.filter_cons, ih hlines]
    cases wanted eventType line.entry <;> rfl

namespace HookTrail

/-- The store appends while the sidecar is trusted, or will not be trusted afterwards; the wrapper appends to the
newest file or while the sidecar is not trusted anyway. A file is named by a date. -/
def Careful (log : HookLog) : HookLogOp → Prop
  | .append entry today => isDate (entryDateStr entry today) = true ∧
      log.Countable HookLine.size HookLine.id (entryDateStr entry today) ⟨.store, entry⟩
  | .appendManaged _ day => log.Uncountable HookLine.size HookLine.id day
  | .query => True

instance (log : HookLog) : (op : HookLogOp) → Decidable (Careful log op)
  | .append _ _ => inferInstanceAs (Decidable (_ ∧ _))
  | .appendManaged _ day => inferInstanceAs (Decidable (log.Uncountable HookLine.size HookLine.id day))
  | .query => .isTrue trivial

variable {log : HookLog}

private theorem kept_hookLogStep {op : HookLogOp} {log' : HookLog} (h : log.Kept HookLine.size HookLine.id)
    (hcareful : Careful log op) (hstep : hookLogStep log op = some log') : log'.Kept HookLine.size HookLine.id := by
  cases op with
  | append entry today =>
    obtain ⟨⟨hnew, -⟩, happend⟩ := Option.ite_none_right_eq_some.mp hstep
    cases happend
    exact h.append hcareful.1 hnew hcareful.2
  | appendManaged call day =>
    obtain ⟨⟨hnew, hday⟩, happend⟩ := Option.ite_none_right_eq_some.mp hstep
    cases happend
    exact h.appendUncounted hday hnew hcareful
  | query =>
    cases hstep
    exact h.getTotal

/-- Walking by the cursors yields every entry that matches once. -/
def WalksAll (log : HookLog) (eventType : Option String) (limit : Nat) : Prop :=
  ∃ fuel pages, walkHookLog log eventType limit fuel = some pages ∧
    pages.flatten.Perm ((storedEntries log).filter (wanted eventType))

/-- The lines that match are found and not older than their file, no file is too long, and the reader
comes upon the entries in time. -/
structure Legible (log : HookLog) (eventType : Option String) (limit : Nat) : Prop where
  found : ∀ line ∈ readOrder log.files, wanted eventType line.entry = true → Found eventType line
  dated : ∀ file ∈ log.files, ∀ line ∈ file.2, ∀ entry, loadLine eventType line = some entry →
    file.1 ≤ datePrefix (extractTsId entry).ts
  small : ∀ file ∈ log.files, (file.2.map HookLine.size).sum ≤ maxDailyScanBytes
  paged : Paged (loadLine eventType) extractTsId limit log.files

private theorem walksAll_of_kept (h : log.Kept HookLine.size HookLine.id) {eventType : Option String} {limit : Nat}
    (hlimit : 1 ≤ limit) (hlegible : Legible log eventType limit) : WalksAll log eventType limit := by
  have hlisted : ∀ file ∈ listDailyFiles log.files, file ∈ log.files := fun file hfile =>
    (listDailyFiles_perm h.dates).mem_iff.mp hfile
  have hread := readOrder_listDailyFiles h.dates
  have hrecords : inReadOrder (loadLine eventType) log.files =
      ((readOrder (listDailyFiles log.files)).map (·.entry)).filter (wanted eventType) :=
    filterMap_loadLine fun line hline => hlegible.found line (hread.mem_iff.mp hline)
  have hreadable : Readable HookLine.size (fun line => .ok (loadLine eventType line)) (loadLine eventType) extractTsId
      (listDailyFiles log.files) := by
    refine ⟨fun _ _ => rfl, fun file hfile => hlegible.dated file (hlisted file hfile),
      fun file hfile => hlegible.small file (hlisted file hfile), ?_⟩
    have hids : ((readOrder (listDailyFiles log.files)).map HookLine.id).Nodup := (hread.map _).nodup_iff.mpr h.ids
    rw [show (readOrder (listDailyFiles log.files)).filterMap (loadLine eventType) = _ from hrecords]
    refine List.Nodup.sublist (List.filter_sublist.map _) ?_
    rw [List.map_map]
    exact hids
  obtain ⟨fuel, pages, hpages, hflat, -⟩ := hreadable.walkPages_slices hlimit hlegible.paged
  refine ⟨fuel, pages, hpages, ?_⟩
  rw [hflat, hrecords]
  exact (perm_descending _).trans ((hread.map _).filter _)

/-- The lines that match were appended in the order of their timestamps and ids. -/
def Ordered (log : HookLog) (eventType : Option String) : Prop :=
  (∀ line ∈ readOrder log.files, wanted eventType line.entry = true → Found eventType line) ∧
    (∀ file ∈ log.files, ∀ line ∈ file.2,
      (loadLine eventType line).all fun entry => file.1 ≤ datePrefix (extractTsId entry).ts) ∧
    (∀ file ∈ log.files, (file.2.map HookLine.size).sum ≤ maxDailyScanBytes) ∧
    (inReadOrder (loadLine eventType) log.files).Pairwise (fun a b => extractTsId b < extractTsId a) ∧
    ∀ entry ∈ inReadOrder (loadLine eventType) log.files, (extractTsId entry).wellFormed = true

instance (log : HookLog) (eventType : Option String) : Decidable (Ordered log eventType) :=
  inferInstanceAs (Decidable (_ ∧ _ ∧ _ ∧ _ ∧ _))

private theorem Ordered.legible {eventType : Option String} (h : Ordered log eventType) (limit : Nat) :
    Legible log eventType limit := by
  obtain ⟨hfound, hdated, hsmall, hordered, hcursors⟩ := h
  refine ⟨hfound, fun file hfile line hline entry hload => ?_, hsmall, .of_descending limit hordered hcursors⟩
  have hall := hdated file hfile line hline
  rw [hload, Option.all_some] at hall
  exact of_decide_eq_true hall

end HookTrail

open HookTrail

/-- After a careful run the total is right, and every query that finds legible lines gets all of them. -/
theorem readBack_of_careful {ops : List HookLogOp} {log : HookLog}
    (hrun : run hookLogStep {} ops = some log) (hcareful : RunMeets hookLogStep Careful {} ops) :
    (hookTotal log).1 = log.stored.length ∧ ∀ eventType limit, 1 ≤ limit → Legible log eventType limit →
      WalksAll log eventType limit := by
  have hkept : log.Kept HookLine.size HookLine.id :=
    run_invariant (fun _ _ _ h hc hs => kept_hookLogStep h hc hs) CountedLog.Kept.start hcareful hrun
  exact ⟨hkept.getTotal_total, fun eventType limit hlimit hlegible => walksAll_of_kept hkept hlimit hlegible⟩

/-- An entry as the callback of the Runner makes it -/
def callbackEntry (id timestamp : String) : HookLogEntry where
  id := id
  timestamp := timestamp
  eventType := "PostToolUse"
  handlerType := "in_process"
  exitCode := 0
  durationMs := 0
  toolName := some "Bash"

def managedCall (uuid clock eventName : String) : ManagedCall where
  uuid := uuid
  clock := clock
  hookId := "policy"
  eventName := eventName
  exitCode := 2
  durationMs := 5
  toolName := "Bash"
  error := "blocked"

def mixedHookRun : List HookLogOp :=
  [.append (callbackEntry "a" "2026-01-01T10:00:00.5+00:00") "2026-01-01", .query,
    .appendManaged (managedCall "b" "2026-01-01T10:00:01" "Stop") "2026-01-01", .query,
    .append (callbackEntry "c" "2026-01-01T10:00:02.5+00:00") "2026-01-01"]

theorem readBack_mixedHookRun : ∃ log, run hookLogStep {} mixedHookRun = some log ∧
    (hookTotal log).1 = log.stored.length ∧ WalksAll log none 1 ∧ WalksAll log (some "PostToolUse") 1 := by
  obtain ⟨log, hrun, hall, hfiltered⟩ := exists_run_of_decide hookLogStep {} mixedHookRun
    (p := fun log => Ordered log none ∧ Ordered log (some "PostToolUse")) (fun _ => id) (by decide +kernel)
  obtain ⟨htotal, hwalks⟩ := readBack_of_careful hrun (by decide +kernel)
  exact ⟨log, hrun, htotal, hwalks none 1 le_rfl (hall.legible 1),
    hwalks (some "PostToolUse") 1 le_rfl (hfiltered.legible 1)⟩

/-- A page of `query_cursor` -/
def hookPage (log : HookLog) (eventType : Option String) (limit : Nat) (before : Option (List Char)) :
    Except QueryError (List HookLogEntry × Option (List Char)) :=
  queryPage HookLine.size (fun line => .ok (loadLine eventType line)) extractTsId limit log.files before

private theorem not_walksAll {log : HookLog} {eventType : Option String} {limit : Nat} {page : List HookLogEntry}
    (h : hookPage log eventType limit none = .ok (page, none) ∧
      page.length ≠ ((storedEntries log).filter (wanted eventType)).length) : ¬ WalksAll log eventType limit := by
  rintro ⟨fuel, pages, hwalk, hperm⟩
  have hpages : pages = [page] := by
    cases fuel with
    | zero => cases hwalk
    | succ fuel =>
      have hfirst := h.1
      rw [hookPage] at hfirst
      rw [walkHookLog, walkPages, hfirst] at hwalk
      exact (Option.some.inj hwalk).symm
  rw [hpages, List.flatten_singleton] at hperm
  exact h.2 hperm.length_eq

private theorem not_walksAll_next {log : HookLog} {eventType : Option String} {limit : Nat}
    {page page' : List HookLogEntry} {next : List Char}
    (h : hookPage log eventType limit none = .ok (page, some next) ∧
      hookPage log eventType limit (some next) = .ok (page', none) ∧
      (page ++ page').length ≠ ((storedEntries log).filter (wanted eventType)).length) :
    ¬ WalksAll log eventType limit := by
  obtain ⟨hfirst, hsecond, hlength⟩ := h
  rintro ⟨fuel, pages, hwalk, hperm⟩
  rw [walkPages_two hfirst hsecond hwalk, List.flatten_cons, List.flatten_singleton] at hperm
  exact hlength hperm.length_eq

def burst : List HookLogOp :=
  ["c", "a", "b"].map fun uuid => .appendManaged (managedCall uuid "2026-01-01T10:00:00" "Stop") "2026-01-01"

theorem hookLog_not_readBack :
    (∃ log, run hookLogStep {} [.appendManaged (managedCall "b" "2026-01-01T10:00:01" "PostToolUse") "2026-01-01"] =
      some log ∧ ¬ WalksAll log (some "PostToolUse") 50) ∧
    (∃ log, run hookLogStep {} [.query, .appendManaged (managedCall "b" "2026-01-01T10:00:01" "Stop") "2026-01-01",
        .append (callbackEntry "c" "2026-01-01T10:00:02.5+00:00") "2026-01-01"] = some log ∧
      (hookTotal log).1 ≠ log.stored.length) ∧
    (∃ log, run hookLogStep {} burst = some log ∧ ¬ WalksAll log none 1) ∧
    ∃ log, run hookLogStep {} [.append { callbackEntry "a" "2026-01-01T10:00:00.5+00:00" with
        toolName := some (String.ofList ['x', '\u2028', 'y']) } "2026-01-01"] = some log ∧
      ¬ WalksAll log none 50 := by
  refine ⟨?_, ?_, ?_, ?_⟩
  · -- the prefilter has no space behind the colon
    exact exists_run_of_decide hookLogStep {} _ (fun log => @not_walksAll log _ _ []) (by decide +kernel)
  · -- the store counts on from the total before the managed line
    exact exists_run_of_decide hookLogStep {} _ (fun _ => id) (by decide +kernel)
  · -- the first page reads only the two lines that were appended last
    exact exists_run_of_decide hookLogStep {} _ (fun log => @not_walksAll_next log _ _
      [(managedCall "b" "2026-01-01T10:00:00" "Stop").entry]
      [(managedCall "a" "2026-01-01T10:00:00" "Stop").entry] "2026-01-01T10:00:00Z|b".toList) (by decide +kernel)
  · -- the line is cut at the separator within the name
    exact exists_run_of_decide hookLogStep {} _ (fun log => @not_walksAll log _ _ []) (by decide +kernel)

end PrivaCloud.AgentRunner
