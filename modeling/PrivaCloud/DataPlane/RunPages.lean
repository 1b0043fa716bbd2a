import PrivaCloud.DataPlane.Authz
import PrivaCloud.Framework.Base64
import PrivaCloud.Framework.Paging
import PrivaCloud.Framework.Utf8

/-!
# The pages of the run history

`list_runs` with its opaque cursors: the codec, the service and the walk of a reader who follows
`next_cursor` from the first page.
-/

namespace PrivaCloud.DataPlane

open Framework

/-- `str.encode` -/
def utf8Bytes (text : String) : List UInt8 := Utf8.encodeChars text.toList

/-- `bytes.decode` -/
def utf8Text (bytes : List UInt8) : Option String := (Utf8.decodeChars bytes).map String.ofList

def encodeCursor (tsIso rid : String) : String :=
  String.ofList (Base64.strip (Base64.encode (utf8Bytes (tsIso ++ "|" ++ rid))))

/-- `str.partition("|")`, the parts before and after -/
def partitionBar (text : String) : String × String :=
  (String.ofList (text.toList.takeWhile (· ≠ '|')), String.ofList (text.toList.dropWhile (· ≠ '|')).tail)

/-- `decode_cursor`; nothing where it raises. -/
def decodeCursor (s : String) : Option (String × String) :=
  if s.toList.all fun c => c.toNat < 0x80 then
    match (Base64.decode (Base64.pad s.toList)).bind utf8Text with
    | none => none
    | some decoded => if (partitionBar decoded).2 = "" then none else some (partitionBar decoded)
  else none

private theorem utf8Text_utf8Bytes (text : String) : utf8Text (utf8Bytes text) = some text := by
  rw [utf8Text, utf8Bytes, Utf8.decodeChars_encodeChars, Option.map_some, String.ofList_toList]

variable {rid tsIso : String}

private theorem partitionBar_append (hts : '|' ∉ tsIso.toList) :
    partitionBar (tsIso ++ "|" ++ rid) = (tsIso, rid) := by
  have htext : (tsIso ++ "|" ++ rid).toList = tsIso.toList ++ '|' :: rid.toList := by
    rw [String.toList_append, String.toList_append, List.append_assoc]
    rfl
  have hbefore : ∀ c ∈ tsIso.toList, decide (c ≠ '|') = true := by
    intro c hc
    exact decide_eq_true fun hbar => hts (hbar ▸ hc)
  rw [partitionBar, htext, List.takeWhile_append_of_pos hbefore, List.dropWhile_append_of_pos hbefore,
    List.takeWhile_cons_of_neg (by simp), List.dropWhile_cons_of_neg (by simp), List.append_nil, List.tail_cons,
    String.ofList_toList, String.ofList_toList]

private theorem decodeCursor_encodeCursor (hts : '|' ∉ tsIso.toList) (hrid : rid ≠ "") :
    decodeCursor (encodeCursor tsIso rid) = some (tsIso, rid) := by
  have hascii : ∀ c ∈ Base64.strip (Base64.encode (utf8Bytes (tsIso ++ "|" ++ rid))), c.toNat < 0x80 := by
    intro c hc
    rw [Base64.strip_encode] at hc
    exact Base64.ascii_body hc
  have hall : (encodeCursor tsIso rid).toList.all (fun c => c.toNat < 0x80) = true := by
    rw [encodeCursor, String.toList_ofList]
    exact List.all_eq_true.mpr fun c hc => decide_eq_true (hascii c hc)
  rw [decodeCursor, if_pos hall, encodeCursor, String.toList_ofList, Base64.decode_pad_strip, Option.bind_some,
    utf8Text_utf8Bytes]
  simp only [partitionBar_append hts, if_neg hrid]

private theorem encodeCursor_ne_empty (hts : '|' ∉ tsIso.toList) (hrid : rid ≠ "") :
    encodeCursor tsIso rid ≠ "" := by
  intro hempty
  have hdecode := decodeCursor_encodeCursor hts hrid
  have hnone : decodeCursor "" = none := by decide
  rw [hempty, hnone] at hdecode
  cases hdecode

/-- `priva_common.models.RunPage` -/
structure TextPage where
  runs : List JobRunRecord
  nextCursor : Option String
  prevCursor : Option String
  total : Option Nat

/-- `decode_cursor(c) if c else None`; nothing where it raises. -/
def givenCursor : Option String → Option (Option (String × String))
  | none => some none
  | some c => if c = "" then some none else (decodeCursor c).map some

namespace SchedulerService

/-- `list_runs`; nothing where it raises. -/
def listRuns (s : Store) (accountId : String) (limit : Int) (before after : Option String)
    (jobId status : String) : Option TextPage :=
  match givenCursor before, givenCursor after with
  | some beforeCur, some afterCur =>
    let (rows, hasMore) := s.runList accountId limit beforeCur afterCur jobId status
    let (nextCursor, prevCursor) := computeCursors rows beforeCur afterCur hasMore
    some {
      runs := rows.map toRun
      nextCursor := nextCursor.map fun key => encodeCursor key.1 key.2
      prevCursor := prevCursor.map fun key => encodeCursor key.1 key.2
      total := if jobId = "" ∧ status = "" then some (s.runCount accountId) else none }
  | _, _ => none

/-- A reader follows `next_cursor` until there is none. -/
def walkRuns (s : Store) (accountId : String) (limit : Int) (jobId status : String) :
    Nat → Option String → Option (List TextPage)
  | 0, _ => none
  | fuel + 1, before =>
    match listRuns s accountId limit before none jobId status with
    | none => none
    | some page =>
      match page.nextCursor with
      | none => some [page]
      | some cursor => (walkRuns s accountId limit jobId status fuel (some cursor)).map (page :: ·)

end SchedulerService

section Pages

variable (s : Store) (accountId jobId status : String)

def runKey (row : RunRow) : String ×ₗ String := toLex (row.startedAt.text, row.runId)

/-- `encode_cursor` of a row -/
def rowCursor (row : RunRow) : String := encodeCursor row.startedAt.text row.runId

/-- A run of the account, of the job and with the status that the reader asks for -/
def Matches (row : RunRow) : Prop :=
  row.accountId = accountId ∧ (jobId = "" ∨ row.jobId = some jobId) ∧ (status = "" ∨ row.status.text = status)

instance (row : RunRow) : Decidable (Matches accountId jobId status row) := inferInstanceAs (Decidable (_ ∧ _))

def matching : List RunRow := s.runs.rows.filter (Matches accountId jobId status)

private theorem selected_none (row : RunRow) :
    Store.selected accountId jobId status none none row = decide (Matches accountId jobId status row) := by
  rw [Bool.eq_iff_iff, decide_eq_true_iff]
  simp [Store.selected, Matches, and_assoc]

variable {a b : RunRow}

private theorem newer_iff : Store.newer a b = true ↔ runKey b < runKey a := by
  rw [Store.newer, Bool.or_eq_true, Bool.and_eq_true, decide_eq_true_iff, decide_eq_true_iff, decide_eq_true_iff,
    runKey, runKey, Prod.Lex.toLex_lt_toLex, eq_comm (a := a.startedAt.text)]

private theorem runKey_nodup : ((matching s accountId jobId status).map runKey).Nodup := by
  have hids : ((matching s accountId jobId status).map fun row => row.runId).Nodup :=
    s.runs.nodup.sublist (List.filter_sublist.map _)
  refine List.Nodup.of_map (fun key => (ofLex key).2) ?_
  rwa [List.map_map]

private theorem eq_of_runKey (ha : a ∈ s.runs.rows) (hb : b ∈ s.runs.rows) (h : runKey a = runKey b) :
    a = b := by
  have hid : a.runId = b.runId := (Prod.mk.inj (toLex_inj.mp h)).2
  exact List.inj_on_of_nodup_map s.runs.nodup ha hb hid

private theorem newer_or_eq_iff (ha : a ∈ s.runs.rows) (hb : b ∈ s.runs.rows) :
    (Store.newer a b || a = b) = true ↔ runKey b ≤ runKey a := by
  rw [Bool.or_eq_true, newer_iff, decide_eq_true_iff, le_iff_lt_or_eq]
  constructor
  · rintro (hlt | rfl)
    · exact Or.inl hlt
    · exact Or.inr rfl
  · rintro (hlt | heq)
    · exact Or.inl hlt
    · exact Or.inr (eq_of_runKey s hb ha heq).symm

def history : List RunRow := descending runKey (matching s accountId jobId status)

private theorem history_sorted : Descending runKey (history s accountId jobId status) :=
  descending_sorted (runKey_nodup s accountId jobId status)

variable {p : RunRow → Bool}

private theorem insertionSort_congr {r r' : RunRow → RunRow → Prop} [DecidableRel r] [DecidableRel r']
    (hr : ∀ a ∈ s.runs.rows, ∀ b ∈ s.runs.rows, r a b ↔ r' a b) :
    ((matching s accountId jobId status).filter p).insertionSort r =
      ((matching s accountId jobId status).filter p).insertionSort r' := by
  have hrows : ∀ a ∈ (matching s accountId jobId status).filter p, a ∈ s.runs.rows := fun a ha =>
    List.mem_of_mem_filter (List.mem_of_mem_filter ha)
  have hmap := List.map_insertionSort r r' id ((matching s accountId jobId status).filter p)
    fun a ha b hb => hr a (hrows a ha) b (hrows b hb)
  rwa [List.map_id, List.map_id] at hmap

private theorem insertionSort_newer (r : RunRow → RunRow → Prop) [DecidableRel r]
    (hr : ∀ a ∈ s.runs.rows, ∀ b ∈ s.runs.rows, r a b ↔ runKey b ≤ runKey a) :
    ((matching s accountId jobId status).filter p).insertionSort r = (history s accountId jobId status).filter p := by
  rw [history, ← descending_filter (runKey_nodup s accountId jobId status), descending]
  exact insertionSort_congr s accountId jobId status hr

private theorem insertionSort_reverse (r : RunRow → RunRow → Prop) [DecidableRel r]
    (hr : ∀ a ∈ s.runs.rows, ∀ b ∈ s.runs.rows, r a b ↔ runKey a ≤ runKey b) :
    ((matching s accountId jobId status).filter p).insertionSort r =
      ((history s accountId jobId status).filter p).reverse := by
  have hkeys := runKey_nodup s accountId jobId status
  rw [history, ← descending_filter hkeys, ← descending_toDual (hkeys.sublist (List.filter_sublist.map _)), descending]
  exact insertionSort_congr s accountId jobId status hr

private theorem selected_before (t id : String) (row : RunRow) :
    Store.selected accountId jobId status (some (t, id)) none row =
      (decide (Matches accountId jobId status row) && decide (runKey row < toLex (t, id))) := by
  have hlt : decide (runKey row < toLex (t, id)) =
      (row.startedAt.text < t || row.startedAt.text = t && row.runId < id) := by
    rw [Bool.eq_iff_iff, decide_eq_true_iff, Bool.or_eq_true, Bool.and_eq_true, decide_eq_true_iff,
      decide_eq_true_iff, decide_eq_true_iff, runKey, Prod.Lex.toLex_lt_toLex]
  rw [hlt, ← selected_none, Store.selected, Store.selected, Bool.and_true]

private theorem selected_after (t id : String) (row : RunRow) :
    Store.selected accountId jobId status none (some (t, id)) row =
      (decide (Matches accountId jobId status row) && decide (toLex (t, id) < runKey row)) := by
  have hlt : decide (toLex (t, id) < runKey row) =
      (row.startedAt.text > t || row.startedAt.text = t && row.runId > id) := by
    rw [Bool.eq_iff_iff, decide_eq_true_iff, Bool.or_eq_true, Bool.and_eq_true, decide_eq_true_iff,
      decide_eq_true_iff, decide_eq_true_iff, runKey, Prod.Lex.toLex_lt_toLex, eq_comm (a := t)]
  rw [hlt, ← selected_none, Store.selected, Store.selected, Bool.and_true]

private theorem runList_older (limit : Int) (before : Option (String × String)) :
    s.runList accountId limit before none jobId status =
      let rows := (history s accountId jobId status).filter fun row => before.all fun c => runKey row < toLex c
      (Store.slice limit (Store.sqlLimit (limit + 1) rows),
        decide (limit < (Store.sqlLimit (limit + 1) rows).length)) := by
  have hfilter : s.runs.rows.filter (Store.selected accountId jobId status before none) =
      (matching s accountId jobId status).filter fun row => before.all fun c => runKey row < toLex c := by
    rw [matching, List.filter_filter]
    refine List.filter_congr fun row _ => ?_
    cases before with
    | none => exact (selected_none accountId jobId status row).trans (Bool.true_and _).symm
    | some c => exact (selected_before accountId jobId status c.1 c.2 row).trans (Bool.and_comm _ _)
  have hascending : (before.isNone && (none : Option (String × String)).isSome) = false := Bool.and_false _
  simp only [Store.runList, hascending, Bool.false_eq_true, if_false, hfilter]
  rw [insertionSort_newer]
  exact fun a ha b hb => newer_or_eq_iff s ha hb

private theorem runList_newer (limit : Int) (after : String × String) :
    s.runList accountId limit none (some after) jobId status =
      let rows := ((history s accountId jobId status).filter fun row => toLex after < runKey row).reverse
      ((Store.slice limit (Store.sqlLimit (limit + 1) rows)).reverse,
        decide (limit < (Store.sqlLimit (limit + 1) rows).length)) := by
  have hfilter : s.runs.rows.filter (Store.selected accountId jobId status none (some after)) =
      (matching s accountId jobId status).filter fun row => toLex after < runKey row := by
    rw [matching, List.filter_filter]
    refine List.filter_congr fun row _ => ?_
    exact (selected_after accountId jobId status after.1 after.2 row).trans (Bool.and_comm _ _)
  simp only [Store.runList, Option.isNone_none, Option.isSome_some, Bool.and_self, if_true, hfilter]
  rw [insertionSort_reverse]
  intro a ha b hb
  rw [decide_eq_decide.mpr (eq_comm (a := a) (b := b))]
  exact newer_or_eq_iff s hb ha

variable {limit : Int}

private theorem slice_sqlLimit (hlimit : 1 ≤ limit) (rows : List RunRow) :
    Store.slice limit (Store.sqlLimit (limit + 1) rows) = rows.take limit.toNat := by
  have hnext : (limit + 1).toNat = limit.toNat + 1 := by omega
  rw [Store.slice, Store.sqlLimit, if_neg (by omega), if_neg (by omega), hnext, List.take_take]
  congr 1
  omega

private theorem lt_length_sqlLimit (hlimit : 1 ≤ limit) (rows : List RunRow) :
    decide (limit < (Store.sqlLimit (limit + 1) rows).length) = !(rows.drop limit.toNat).isEmpty := by
  rw [Store.sqlLimit, if_neg (by omega), List.length_take, Bool.eq_iff_iff, decide_eq_true_iff, Bool.not_eq_true',
    List.isEmpty_eq_false_iff, ne_eq, List.drop_eq_nil_iff]
  omega

def rowPair (row : RunRow) : String × String := (row.startedAt.text, row.runId)

private theorem computeCursors_older (rows : List RunRow) (before : Option (String × String)) (hasMore : Bool) :
    computeCursors rows before none hasMore =
      (if hasMore then rows.getLast?.map rowPair else none, if before.isSome then rows.head?.map rowPair else none) := by
  cases rows with
  | nil => simp [computeCursors]
  | cons row rest =>
    obtain ⟨last, hlast⟩ := Option.isSome_iff_exists.mp (List.getLast?_isSome.mpr (List.cons_ne_nil row rest))
    cases before <;> simp [computeCursors, hlast, rowPair]

private theorem computeCursors_newer (rows : List RunRow) (after : String × String) (hasMore : Bool) :
    computeCursors rows none (some after) hasMore =
      (rows.getLast?.map rowPair, if hasMore then rows.head?.map rowPair else none) := by
  cases rows with
  | nil => simp [computeCursors]
  | cons row rest =>
    obtain ⟨last, hlast⟩ := Option.isSome_iff_exists.mp (List.getLast?_isSome.mpr (List.cons_ne_nil row rest))
    simp [computeCursors, hlast, rowPair]

def pageBetween (newer page older : List RunRow) : TextPage where
  runs := page.map SchedulerService.toRun
  nextCursor := if older.isEmpty then none else page.getLast?.map rowCursor
  prevCursor := if newer.isEmpty then none else page.head?.map rowCursor
  total := if jobId = "" ∧ status = "" then some (s.runCount accountId) else none

/-- The cursors that a reader meets can be decoded. -/
def Decodable : Prop := ∀ row ∈ s.runs.rows, row.accountId = accountId → '|' ∉ row.startedAt.text.toList ∧ row.runId ≠ ""

def cursorBehind (newer : List RunRow) : Option String := newer.getLast?.map rowCursor

variable {s accountId jobId status}

theorem givenCursor_row (hdec : Decodable s accountId) {row : RunRow} (hrow : row ∈ history s accountId jobId status) :
    givenCursor (some (rowCursor row)) = some (some (rowPair row)) := by
  obtain ⟨hstored, hselected⟩ := List.mem_filter.mp (mem_descending.mp hrow)
  obtain ⟨hts, hrid⟩ := hdec row hstored (of_decide_eq_true hselected).1
  rw [givenCursor, rowCursor, if_neg (encodeCursor_ne_empty hts hrid), decodeCursor_encodeCursor hts hrid,
    Option.map_some, rowPair]

variable {newer : List RunRow}

private theorem listRuns_older (hdec : Decodable s accountId) (hlimit : 1 ≤ limit) {rest : List RunRow}
    (hsplit : history s accountId jobId status = newer ++ rest) :
    SchedulerService.listRuns s accountId limit (cursorBehind newer) none jobId status =
      some (pageBetween s accountId jobId status newer (rest.take limit.toNat) (rest.drop limit.toNat)) := by
  have hrow : (fun key : String × String => encodeCursor key.1 key.2) ∘ rowPair = rowCursor := rfl
  have hpage : ∀ before, givenCursor (cursorBehind newer) = some before → before.isSome = !newer.isEmpty →
      ((history s accountId jobId status).filter fun row => before.all fun c => runKey row < toLex c) = rest →
      SchedulerService.listRuns s accountId limit (cursorBehind newer) none jobId status =
        some (pageBetween s accountId jobId status newer (rest.take limit.toNat) (rest.drop limit.toNat)) := by
    intro before hgiven hsome hrest
    rw [SchedulerService.listRuns, hgiven]
    simp only [givenCursor, runList_older, hrest, slice_sqlLimit hlimit, lt_length_sqlLimit hlimit,
      computeCursors_older, hsome, pageBetween]
    cases newer.isEmpty <;> cases (rest.drop limit.toNat).isEmpty <;> simp [hrow]
  have hsorted := history_sorted s accountId jobId status
  rcases List.eq_nil_or_concat newer with rfl | ⟨front, x, rfl⟩
  · apply hpage none rfl rfl
    rw [hsplit]
    exact List.filter_eq_self.mpr fun _ _ => rfl
  · have hx : x ∈ history s accountId jobId status := by
      rw [hsplit]
      simp
    have hlast : cursorBehind (front.concat x) = some (rowCursor x) := by
      rw [cursorBehind, List.concat_eq_append, List.getLast?_concat, Option.map_some]
    apply hpage (some (rowPair x))
    · rw [hlast]
      exact givenCursor_row hdec hx
    · simp
    · rw [List.concat_eq_append, List.append_assoc, List.singleton_append] at hsplit
      rw [hsplit] at hsorted ⊢
      exact hsorted.filter_lt

private theorem listRuns_newer (hdec : Decodable s accountId) (hlimit : 1 ≤ limit)
    {page older : List RunRow} {x : RunRow}
    (hsplit : history s accountId jobId status = newer ++ (page ++ x :: older)) (hlength : page.length = limit.toNat) :
    SchedulerService.listRuns s accountId limit none (some (rowCursor x)) jobId status =
      some (pageBetween s accountId jobId status newer page (x :: older)) := by
  have hsorted := history_sorted s accountId jobId status
  have hx : x ∈ history s accountId jobId status := by
    rw [hsplit]
    simp
  have hrows : ((history s accountId jobId status).filter fun row => toLex (rowPair x) < runKey row) = newer ++ page := by
    rw [← List.append_assoc] at hsplit
    rw [hsplit] at hsorted ⊢
    exact hsorted.filter_gt
  have htake : (newer ++ page).reverse.take limit.toNat = page.reverse := by
    rw [List.reverse_append, ← hlength, ← List.length_reverse, List.take_left]
  have hdrop : (newer ++ page).reverse.drop limit.toNat = newer.reverse := by
    rw [List.reverse_append, ← hlength, ← List.length_reverse, List.drop_left]
  have hrow : (fun key : String × String => encodeCursor key.1 key.2) ∘ rowPair = rowCursor := rfl
  rw [SchedulerService.listRuns, givenCursor_row hdec hx]
  simp only [givenCursor, runList_newer, hrows, slice_sqlLimit hlimit, lt_length_sqlLimit hlimit, htake, hdrop,
    List.reverse_reverse, computeCursors_newer, pageBetween, List.isEmpty_reverse]
  cases newer.isEmpty <;> simp [hrow]

variable (s accountId jobId status) in
/-- `prev_cursor` of a page leads back to the page before it. -/
def LeadsBack (limit : Int) (page next : TextPage) : Prop :=
  ∃ cursor, next.prevCursor = some cursor ∧
    SchedulerService.listRuns s accountId limit none (some cursor) jobId status = some page

private theorem leadsBack_pageBetween (hdec : Decodable s accountId) (hlimit : 1 ≤ limit)
    {page older : List RunRow} {x : RunRow}
    (hsplit : history s accountId jobId status = newer ++ (page ++ x :: older)) (hlength : page.length = limit.toNat) :
    LeadsBack s accountId jobId status limit (pageBetween s accountId jobId status newer page (x :: older))
      (pageBetween s accountId jobId status (newer ++ page) ((x :: older).take limit.toNat)
        ((x :: older).drop limit.toNat)) := by
  refine ⟨rowCursor x, ?_, listRuns_newer hdec hlimit hsplit hlength⟩
  have hpage : (newer ++ page).isEmpty = false := by
    rw [List.isEmpty_eq_false_iff]
    exact List.append_ne_nil_of_right_ne_nil _ (List.ne_nil_of_length_pos (by omega))
  have htake : (x :: older).take limit.toNat = x :: older.take (limit.toNat - 1) := by
    rw [List.take_cons (by omega)]
  rw [pageBetween, hpage, htake]
  rfl

private theorem walkRuns_rest (hdec : Decodable s accountId) (hlimit : 1 ≤ limit) (newer rest : List RunRow)
    (hsplit : history s accountId jobId status = newer ++ rest) :
    ∃ fuel pages, SchedulerService.walkRuns s accountId limit jobId status fuel (cursorBehind newer) =
        some (pageBetween s accountId jobId status newer (rest.take limit.toNat) (rest.drop limit.toNat) :: pages) ∧
      List.IsChain (LeadsBack s accountId jobId status limit)
        (pageBetween s accountId jobId status newer (rest.take limit.toNat) (rest.drop limit.toNat) :: pages) ∧
      (rest.take limit.toNat).map SchedulerService.toRun ++ pages.flatMap (·.runs) =
        rest.map SchedulerService.toRun := by
  induction hn : rest.length using Nat.strong_induction_on generalizing newer rest with
  | _ n ih =>
    have hfirst := listRuns_older hdec hlimit hsplit
    cases hrest : rest.drop limit.toNat with
    | nil =>
      refine ⟨1, [], ?_, List.IsChain.singleton _, ?_⟩
      · rw [SchedulerService.walkRuns, hfirst, hrest]
        rfl
      · rw [List.flatMap_nil, List.append_nil, List.take_of_length_le (List.drop_eq_nil_iff.mp hrest)]
    | cons x older =>
      have hcut : rest = rest.take limit.toNat ++ x :: older := by rw [← hrest, List.take_append_drop]
      have hmore : limit.toNat < rest.length := by
        rw [← List.drop_eq_nil_iff.not.trans Nat.not_le, hrest]
        exact List.cons_ne_nil _ _
      have hlength : (rest.take limit.toNat).length = limit.toNat := List.length_take_of_le hmore.le
      have hnext : history s accountId jobId status = (newer ++ rest.take limit.toNat) ++ x :: older := by
        rw [List.append_assoc, ← hcut, hsplit]
      have hshorter : (x :: older).length < n := by
        rw [← hrest, List.length_drop, hn]
        omega
      obtain ⟨fuel, pages, hwalk, hchain, hruns⟩ := ih _ hshorter _ _ hnext rfl
      have hback := leadsBack_pageBetween hdec hlimit (hcut ▸ hsplit) hlength
      have hcursor : (pageBetween s accountId jobId status newer (rest.take limit.toNat) (x :: older)).nextCursor =
          cursorBehind (newer ++ rest.take limit.toNat) := by
        have hpage : rest.take limit.toNat ≠ [] := List.ne_nil_of_length_pos (by omega)
        rw [cursorBehind, List.getLast?_append_of_ne_nil _ hpage]
        rfl
      obtain ⟨cursor, hsome⟩ : ∃ cursor, cursorBehind (newer ++ rest.take limit.toNat) = some cursor := by
        rw [← Option.isSome_iff_exists, cursorBehind, Option.isSome_map, List.getLast?_isSome]
        exact List.append_ne_nil_of_right_ne_nil _ (List.ne_nil_of_length_pos (by omega))
      refine ⟨fuel + 1, _ :: pages, ?_, List.isChain_cons_cons.mpr ⟨hback, hchain⟩, ?_⟩
      · rw [SchedulerService.walkRuns, hfirst, hrest]
        simp only [hcursor, hsome]
        rw [← hsome, hwalk, Option.map_some]
      · rw [List.flatMap_cons]
        conv_rhs => rw [hcut, List.map_append, ← hruns]
        rfl

variable (s accountId jobId status) in
/-- Following `next_cursor` visits each matching row once, newest first, and `prev_cursor` leads back. -/
def Partitioned (limit : Int) : Prop :=
  ∃ (fuel : Nat) (pages : List TextPage) (rows : List RunRow),
    SchedulerService.walkRuns s accountId limit jobId status fuel none = some pages ∧
    rows.Perm (s.runs.rows.filter (Matches accountId jobId status)) ∧
    rows.Pairwise (fun a b => Store.newer a b) ∧
    pages.flatMap (·.runs) = rows.map SchedulerService.toRun ∧
    pages.IsChain (LeadsBack s accountId jobId status limit)

variable (s accountId jobId status) in
/-- The run history is paged as it should where every run has an id and no timestamp has a bar. -/
theorem walkRuns_partition (hdec : Decodable s accountId) {limit : Int} (hlimit : 1 ≤ limit) :
    Partitioned s accountId jobId status limit := by
  obtain ⟨fuel, pages, hwalk, hchain, hruns⟩ :=
    walkRuns_rest hdec hlimit [] (history s accountId jobId status) (List.nil_append _).symm
  refine ⟨fuel, _, history s accountId jobId status, hwalk, perm_descending _, ?_, ?_, hchain⟩
  · exact (history_sorted s accountId jobId status).imp fun h => newer_iff.mpr h
  · rw [List.flatMap_cons]
    exact hruns

end Pages

def startedRun (runId : String) (startedAt : IsoTime) : RunRow where
  runId := runId
  jobId := none
  jobName := "job"
  accountId := "acct"
  sessionId := none
  startedAt := startedAt
  finishedAt := none
  status := .running
  durationMs := none
  isError := false
  errorMessage := none
  numTurns := none
  resultSummary := none

/-- Two runs that started at one moment, and an older one -/
def tiedRuns : Store where
  runs := {
    rows := [startedRun "b" (.ofText "2026-01-01T00:00:01+00:00"),
      startedRun "c" (.ofText "2026-01-01T00:00:00+00:00"), startedRun "a" (.ofText "2026-01-01T00:00:01+00:00")]
    nodup := by decide }

theorem walkRuns_partition_tiedRuns : Partitioned tiedRuns "acct" "" "" 1 :=
  walkRuns_partition tiedRuns "acct" "" "" (by unfold Decodable; decide) (by decide)

/-- The newest run has no id. -/
def unnamedRuns : Store where
  runs := {
    rows := [startedRun "a" (.ofText "2026-01-01T00:00:00+00:00"), startedRun "" (.ofText "2026-01-01T00:00:01+00:00")]
    nodup := by decide }

-- The cursor behind the first page is not taken.
theorem unnamedRuns_not_partitioned : ¬ Partitioned unnamedRuns "acct" "" "" 1 := by
  have hfirst : (SchedulerService.listRuns unnamedRuns "acct" 1 none none "" "").map TextPage.nextCursor =
      some (some (encodeCursor "2026-01-01T00:00:01+00:00" "")) := by decide +kernel
  have hsecond : SchedulerService.listRuns unnamedRuns "acct" 1 (some (encodeCursor "2026-01-01T00:00:01+00:00" "")) none
      "" "" = none := by decide +kernel
  obtain ⟨page, hpage, hnext⟩ := Option.map_eq_some_iff.mp hfirst
  rintro ⟨fuel, pages, rows, hwalk, -⟩
  rcases fuel with _ | _ | fuel
  · cases hwalk
  · simp [SchedulerService.walkRuns, hpage, hnext] at hwalk
  · simp [SchedulerService.walkRuns, hpage, hnext, hsecond] at hwalk

end PrivaCloud.DataPlane
