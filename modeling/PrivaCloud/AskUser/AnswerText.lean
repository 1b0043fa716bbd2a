import Mathlib.Data.Fin.Basic
import Mathlib.Data.List.Sort
import PrivaCloud.Framework.Dict
import PrivaCloud.Framework.Lines

/-!
# The answer text of AskUserQuestion

The web card (`buildAnswerText`) and the connector (`answer_from_form`, `answer_from_option`) write lines
`- head -> values`, and the runner reads them back into the map of the CLI (`_askuser_answers_map`). Nothing in a line
is escaped.
-/

namespace PrivaCloud.AskUser

open Framework

/-- `str.isspace`, which `str.strip` goes by -/
def pySpace (c : Char) : Bool :=
  let n := c.toNat
  (9 ≤ n && n ≤ 13) || (28 ≤ n && n ≤ 32) || n == 0x85 || n == 0xA0 || n == 0x1680 ||
    (0x2000 ≤ n && n ≤ 0x200A) || n == 0x2028 || n == 0x2029 || n == 0x202F || n == 0x205F ||
    n == 0x3000

/-- White space and line terminators, which `String.prototype.trim` goes by -/
def jsSpace (c : Char) : Bool :=
  let n := c.toNat
  (9 ≤ n && n ≤ 13) || n == 32 || n == 0xA0 || n == 0x1680 || (0x2000 ≤ n && n ≤ 0x200A) ||
    n == 0x2028 || n == 0x2029 || n == 0x202F || n == 0x205F || n == 0x3000 || n == 0xFEFF

/-- An option of a question, a record or a bare text. -/
inductive Opt
  | record (label description : Text)
  | bare (text : Text)
  deriving DecidableEq

structure Question where
  question : Text
  header : Text := []
  multiSelect : Bool := false
  options : List Opt := []
  deriving DecidableEq

/-- `header or question` -/
def headerOrQuestion (q : Question) : Text := if q.header = [] then q.question else q.header

structure Row where
  question : Question
  head : Text
  values : List Text

/-- `"; ".join(values)` -/
def joinValues : List Text → Text
  | [] => []
  | [value] => value
  | value :: value' :: values => value ++ ';' :: ' ' :: joinValues (value' :: values)

def arrow : Text := [' ', '-', '>', ' ']

/-- `- head -> value` -/
def answerLine (head value : Text) : Text := '-' :: ' ' :: (head ++ arrow ++ value)

def Row.value (row : Row) : Text := joinValues row.values

def Row.line (row : Row) : Text := answerLine row.head row.value

def answerText (rows : List Row) : Text :=
  joinLines ((rows.filter fun row => row.values ≠ []).map Row.line)

structure CustomInput where
  enabled : Bool := false
  text : Text := []
  deriving DecidableEq

/-- What the card holds for a question; its buttons toggle only options that exist. -/
structure WebChoice (q : Question) where
  selected : List (Fin q.options.length) := []
  custom : CustomInput := {}

/-- A bare option has no `label`, and `join` writes nothing for it. -/
def webOption : Opt → Text
  | .record label description =>
    if description = [] then label else label ++ [' ', '-', ' '] ++ description
  | .bare _ => []

section Web

-- `t('askUser.customPrefix')`
variable (customPrefix : Text)

def webRow (choice : (q : Question) × WebChoice q) : Row where
  question := choice.1
  head := headerOrQuestion choice.1
  values :=
    (choice.2.selected.insertionSort (· ≤ ·)).map (fun idx => webOption (choice.1.options.get idx)) ++
      if choice.2.custom.enabled ∧ strip jsSpace choice.2.custom.text ≠ [] then
        [customPrefix ++ ' ' :: strip jsSpace choice.2.custom.text]
      else []

def buildAnswerText (card : List ((q : Question) × WebChoice q)) : Text :=
  answerText (card.map (webRow customPrefix))

end Web

/-- The named inputs of a `form_submit`; an absent one is empty or unchecked. -/
structure FormValue where
  /-- `q{i}` -/
  select : Nat → Text := fun _ => []
  /-- `q{i}o{j}` -/
  checked : Nat → Nat → Bool := fun _ _ => false
  custom : Text := []

/-- `_head` -/
def connectorHead (q : Question) : Text := strip pySpace (headerOrQuestion q)

def optDisplay : Opt → Text
  | .record label description =>
    if strip pySpace description = [] then strip pySpace label
    else strip pySpace label ++ [' ', '·', ' '] ++ strip pySpace description
  | .bare text => text

/-- `int` of ASCII digits -/
def readDigits (ds : Text) : Nat := ds.foldl (fun n d => 10 * n + (d.toNat - '0'.toNat)) 0

/-- The option that a value `oJ` names. -/
def optionAt (q : Question) : Text → Option Opt
  | 'o' :: ds => if ds ≠ [] ∧ ds.all Char.isDigit then q.options[readDigits ds]? else none
  | _ => none

def qValues (q : Question) (i : Nat) (form : FormValue) : List Text :=
  if q.multiSelect then
    (q.options.zipIdx.filter fun opt => form.checked i opt.2).map fun opt => optDisplay opt.1
  else
    match optionAt q (form.select i) with
    | some opt => [optDisplay opt]
    | none => if form.select i = [] then [] else [form.select i]

/-- The row of the question at an index; the custom text goes to the first one. -/
def formRow (form : FormValue) : Question × Nat → Row
  | (q, i) =>
    { question := q
      head := connectorHead q
      values := qValues q i form ++
        if i = 0 ∧ strip pySpace form.custom ≠ [] then [strip pySpace form.custom] else [] }

def answerFromForm (questions : List Question) (form : FormValue) : Text :=
  answerText (questions.zipIdx.map (formRow form))

def answerFromOption (questions : List Question) (value : Text) : Text :=
  match questions with
  | [] => []
  | q :: _ =>
    match optionAt q value with
    | some opt => answerLine (connectorHead q) (optDisplay opt)
    | none => []

/-- `line.split(" -> ", 1)` -/
def splitArrow : Text → Option (Text × Text)
  | [] => none
  | c :: cs =>
    if arrow <+: c :: cs then some ([], (c :: cs).drop arrow.length)
    else (splitArrow cs).map fun parts => (c :: parts.1, parts.2)

/-- A leading `-` is dropped once. -/
def dropDash : Text → Text
  | '-' :: line => strip pySpace line
  | line => line

def readLine (raw : Text) : Option (Text × Text) :=
  (splitArrow (dropDash (strip pySpace raw))).map fun parts =>
    (strip pySpace parts.1, strip pySpace parts.2)

/-- `parsed.get(header) or parsed.get(qtext)` -/
def headedValue (parsed : List (Text × Text)) (q : Question) : Option Text :=
  match getValue parsed q.header with
  | some val => if val = [] then getValue parsed q.question else some val
  | none => getValue parsed q.question

/-- The value of a question, with the whole text as the answer of a single one. -/
def questionValue (questions : List Question) (parsed : List (Text × Text)) (text : Text)
    (q : Question) : Option Text :=
  match headedValue parsed q with
  | some val => some val
  | none =>
    if questions.length = 1 then
      match parsed with
      | entry :: _ => some entry.2
      | [] => some text
    else none

def answerStep (questions : List Question) (parsed : List (Text × Text)) (text : Text)
    (answers : List (Text × Text)) (q : Question) : List (Text × Text) :=
  if q.question = [] then answers
  else
    match questionValue questions parsed text q with
    | some val => assign answers q.question val
    | none => answers

def askuserAnswersMap (questions : List Question) (answer : Text) : List (Text × Text) :=
  let text := strip pySpace answer
  let parsed := assignAll [] (readLines readLine text)
  let answers := questions.foldl (answerStep questions parsed text) []
  match answers, questions with
  | [], q :: _ =>
    [(if q.question = [] then ['a', 'n', 's', 'w', 'e', 'r'] else q.question, text)]
  | _, _ => answers

private theorem splitArrow_eq_some {line head value : Text} (h : splitArrow line = some (head, value)) :
    line = head ++ arrow ++ value := by
  induction line generalizing head with
  | nil => cases h
  | cons c line ih =>
    rw [splitArrow] at h
    split at h
    · rename_i hprefix
      obtain ⟨rest, hrest⟩ := hprefix
      cases h
      rw [← hrest, List.drop_left, List.nil_append]
    · obtain ⟨parts, hparts, heq⟩ := Option.map_eq_some_iff.mp h
      cases heq
      rw [List.cons_append, List.cons_append, ← ih hparts]

private theorem strip_dropDash_strip (raw : Text) :
    strip pySpace (dropDash (strip pySpace raw)) = dropDash (strip pySpace raw) := by
  unfold dropDash
  split
  · rw [strip_strip]
  · rw [strip_strip]

private theorem splitArrow_append {head : Text} (h : ¬ arrow <:+: head ++ [' ', '-', '>']) (value : Text) :
    splitArrow (head ++ arrow ++ value) = some (head, value) := by
  induction head with
  | nil => rfl
  | cons c head ih =>
    have hfirst : ¬ arrow <+: c :: (head ++ arrow ++ value) := by
      intro hprefix
      refine h (List.IsPrefix.isInfix (List.prefix_of_prefix_length_le hprefix ⟨' ' :: value, ?_⟩ ?_))
      · simp [arrow]
      · simp [arrow]
    rw [List.cons_append, List.cons_append, splitArrow, if_neg hfirst, ih fun hin => h (List.infix_cons hin)]
    rfl

theorem splitArrow_head {line head value : Text} (h : splitArrow line = some (head, value)) : ¬ arrow <:+: head := by
  induction line generalizing head with
  | nil => cases h
  | cons c line ih =>
    rw [splitArrow] at h
    split at h
    · cases h
      exact fun hin => by simpa [arrow] using hin.length_le
    · rename_i hfirst
      obtain ⟨parts, hparts, heq⟩ := Option.map_eq_some_iff.mp h
      cases heq
      intro hin
      rcases List.infix_cons_iff.mp hin with hpre | hin
      · refine hfirst (hpre.trans ?_)
        rw [splitArrow_eq_some hparts, List.append_assoc]
        exact List.cons_prefix_cons.mpr ⟨rfl, List.prefix_append _ _⟩
      · exact ih hparts hin

private theorem readLine_strip (raw : Text) : readLine (strip pySpace raw) = readLine raw := by
  rw [readLine, strip_strip, readLine]

private theorem readLine_nil : readLine [] = none := rfl

/-- A line that ended in the arrow has lost the arrow's last blank, so no value read is empty. -/
theorem readLine_value {raw head value : Text} (h : readLine raw = some (head, value)) :
    strip pySpace value = value ∧ value ≠ [] := by
  obtain ⟨parts, hparts, heq⟩ := Option.map_eq_some_iff.mp h
  cases heq
  refine ⟨strip_strip _, fun hnil => ?_⟩
  have hline := splitArrow_eq_some hparts
  have hblank : ∀ c ∈ ' ' :: parts.2, pySpace c = true := by
    intro c hc
    rcases List.mem_cons.mp hc with rfl | hc
    · decide
    · exact strip_eq_nil_iff.mp hnil c hc
  have hcut : dropDash (strip pySpace raw) = (parts.1 ++ [' ', '-', '>']) ++ ' ' :: parts.2 := by
    rw [hline, arrow]
    simp
  have hlen := length_strip_le pySpace (parts.1 ++ [' ', '-', '>'])
  rw [← strip_append_spaces hblank, ← hcut, strip_dropDash_strip, hcut, List.length_append] at hlen
  simp only [List.length_append, List.length_cons, List.length_nil] at hlen
  omega

private theorem readLines_value {text : Text} {line : Text × Text} (h : line ∈ readLines readLine text) :
    strip pySpace line.2 = line.2 ∧ line.2 ≠ [] := by
  obtain ⟨raw, -, hraw⟩ := List.mem_filterMap.mp h
  exact readLine_value hraw

/-- The answer lines of the rows, heads and values as they are read back. -/
def answerLines (rows : List Row) : List (Text × Text) :=
  rows.flatMap fun row => readLines readLine row.line

/-- The value on the last answer line that is headed by the question's header, else by its text,
else, for a single question, by the head of the first answer line. -/
def carriedValue (rows : List Row) (q : Question) : Option Text :=
  ((lastUnder (answerLines rows) q.header).or (lastUnder (answerLines rows) q.question)).or
    (if rows.length = 1 then
      (answerLines rows).head?.bind fun line => lastUnder (answerLines rows) line.1
    else none)

def Legible (rows : List Row) : Prop :=
  ∀ row ∈ rows, carriedValue rows row.question = some (strip pySpace row.value)

/-- One entry for each question, which holds its joined values up to outer white space. -/
def Survives (rows : List Row) (answers : List (Text × Text)) : Prop :=
  (answers.map Prod.fst).Perm (rows.map fun row => row.question.question) ∧
    ∀ row ∈ rows, ∃ val, getValue answers row.question.question = some val ∧
      strip pySpace val = strip pySpace row.value

/-- The line of the row has no break but at its end, and no arrow before the encoder's own. -/
structure Row.Plain (row : Row) : Prop where
  head : strip pySpace row.head ≠ []
  value : strip pySpace row.value ≠ []
  line : '\n' ∉ row.head ∧ '\n' ∉ row.value.rdropWhile pySpace
  arrow : ¬ arrow <:+: row.head ++ [' ', '-', '>']

/-- Every header is as the decoder strips it, and rows under one head say the same. -/
def Apart (rows : List Row) : Prop :=
  ∀ row ∈ rows, strip pySpace (headerOrQuestion row.question) = headerOrQuestion row.question ∧
    ∀ other ∈ rows, strip pySpace other.head = strip pySpace row.head →
      strip pySpace other.value = strip pySpace row.value

structure Plain (rows : List Row) : Prop where
  lines : ∀ row ∈ rows, row.Plain
  apart : rows.length = 1 ∨ Apart rows

/-- A text that can stand before an arrow -/
structure Key (text : Text) : Prop where
  ne_nil : text ≠ []
  strip : strip pySpace text = text
  line : '\n' ∉ text
  arrow : ¬ arrow <:+: text

/-- What rows that survive have in common, whatever their lines are -/
structure Told (rows : List Row) : Prop where
  value : ∀ row ∈ rows, strip pySpace row.value ≠ [] ∧ '\n' ∉ strip pySpace row.value
  key : rows.length ≠ 1 → ∀ row ∈ rows, Key row.question.header ∨ Key row.question.question
  apart : (∀ row ∈ rows, row.Plain) →
    (∀ row ∈ rows, strip pySpace (headerOrQuestion row.question) = headerOrQuestion row.question) → Apart rows

section Sheet

variable {rows : List Row} {row : Row} {val : Text}

private theorem carriedValue_mem {q : Question} (h : carriedValue rows q = some val) :
    ∃ line ∈ answerLines rows, line.2 = val := by
  unfold carriedValue at h
  rcases Option.or_eq_some_iff.mp h with h | ⟨-, h⟩
  · rcases Option.or_eq_some_iff.mp h with h | ⟨-, h⟩
    · exact ⟨_, lastUnder_mem h, rfl⟩
    · exact ⟨_, lastUnder_mem h, rfl⟩
  · split at h
    · obtain ⟨line, -, hline⟩ := Option.bind_eq_some_iff.mp h
      exact ⟨_, lastUnder_mem hline, rfl⟩
    · cases h

private theorem answerLines_value {line : Text × Text} (h : line ∈ answerLines rows) :
    strip pySpace line.2 = line.2 ∧ line.2 ≠ [] := by
  obtain ⟨row, -, hrow⟩ := List.mem_flatMap.mp h
  exact readLines_value hrow

private theorem strip_carriedValue {q : Question} (h : carriedValue rows q = some val) :
    strip pySpace val = val := by
  obtain ⟨line, hline, rfl⟩ := carriedValue_mem h
  exact (answerLines_value hline).1

private theorem readLines_answerText (hne : rows ≠ []) (hans : ∀ row ∈ rows, row.values ≠ []) :
    readLines readLine (strip pySpace (answerText rows)) = answerLines rows := by
  have hall : rows.filter (fun row => row.values ≠ []) = rows :=
    List.filter_eq_self.mpr fun row hrow => by simpa using hans row hrow
  rw [readLines_strip readLine_strip readLine_nil, answerText, hall,
    readLines_joinLines _ (by simpa using hne), List.flatMap_map]
  rfl

private theorem headedValue_answerLines (q : Question) : headedValue (assignAll [] (answerLines rows)) q =
      (lastUnder (answerLines rows) q.header).or (lastUnder (answerLines rows) q.question) := by
  unfold headedValue
  rw [getValue_assignAll, getValue_assignAll]
  simp only [getValue, Option.or_none]
  cases hheader : lastUnder (answerLines rows) q.header with
  | none => rfl
  | some val =>
    have hval : val ≠ [] := (answerLines_value (lastUnder_mem hheader)).2
    simp [hval]

private theorem questionValue_answerLines {questions : List Question}
    (hlen : questions.length = rows.length) (text : Text) (q : Question) :
    questionValue questions (assignAll [] (answerLines rows)) text q =
      if questions.length = 1 ∧ answerLines rows = [] then some text else carriedValue rows q := by
  unfold questionValue carriedValue
  rw [headedValue_answerLines, ← first_assignAll, ← hlen]
  cases hheaded :
      (lastUnder (answerLines rows) q.header).or (lastUnder (answerLines rows) q.question) with
  | some val =>
    have hlines : answerLines rows ≠ [] := fun hnil => by
      rw [hnil] at hheaded
      cases hheaded
    simp [hlines]
  | none =>
    by_cases hone : questions.length = 1
    · cases hparsed : assignAll [] (answerLines rows) with
      | nil => simp [hone, (assignAll_nil_iff _).mp hparsed]
      | cons entry parsed =>
        have hlines : answerLines rows ≠ [] := fun hnil => by
          rw [hnil] at hparsed
          cases hparsed
        simp [hone, hlines]
    · simp [hone]

private theorem foldl_answerStep {questions : List Question} (parsed : List (Text × Text)) (text : Text)
    {qs : List Question} {answers : List (Text × Text)}
    (hnodup : (answers.map Prod.fst ++ qs.map Question.question).Nodup)
    (hnonempty : ∀ q ∈ qs, q.question ≠ []) :
    qs.foldl (answerStep questions parsed text) answers = answers ++ qs.filterMap fun q =>
        (questionValue questions parsed text q).map fun val => (q.question, val) := by
  induction qs generalizing answers with
  | nil => simp
  | cons q qs ih =>
    have hnonempty' : ∀ q ∈ qs, q.question ≠ [] := fun q' hq' =>
      hnonempty q' (List.mem_cons_of_mem _ hq')
    rw [List.map_cons] at hnodup
    rw [List.foldl_cons, answerStep, if_neg (hnonempty q List.mem_cons_self)]
    cases hval : questionValue questions parsed text q with
    | none =>
      have hrest := hnodup.sublist (List.Sublist.append_left (List.sublist_cons_self _ _) _)
      rw [ih hrest hnonempty', List.filterMap_cons_none (by rw [hval]; rfl)]
    | some val =>
      have hnew : q.question ∉ answers.map Prod.fst := fun hmem =>
        (List.nodup_append.mp hnodup).2.2 _ hmem _ List.mem_cons_self rfl
      dsimp only
      rw [assign_of_notMem hnew, ih (by simpa using hnodup) hnonempty',
        List.filterMap_cons_some (by rw [hval]; rfl), List.append_assoc, List.singleton_append]

private theorem strip_answerLine_ne (head value : Text) :
    strip pySpace (answerLine head value) ≠ strip pySpace value := by
  intro heq
  have hcount := congrArg (List.count '>') heq
  rw [count_strip (by decide), count_strip (by decide), answerLine] at hcount
  simp [arrow, List.count_append] at hcount
  omega

theorem readLine_answerLine {head value : Text} (hhead : strip pySpace head ≠ []) (hvalue : strip pySpace value ≠ [])
    (harrow : ¬ arrow <:+: head ++ [' ', '-', '>']) :
    readLine (answerLine head value) = some (strip pySpace head, strip pySpace value) := by
  have hdash : dropDash (strip pySpace (answerLine head value)) =
      head.dropWhile pySpace ++ arrow ++ value.rdropWhile pySpace := by
    rw [answerLine, strip_cons_of_not_space (by decide), dropDash, strip_rdropWhile, strip_cons_space (by decide),
      strip_append_append hhead hvalue]
  have hfirst : ¬ arrow <:+: head.dropWhile pySpace ++ [' ', '-', '>'] := fun hin =>
    harrow (hin.trans (List.IsSuffix.isInfix ((List.suffix_append_inj_of_length_eq rfl).mpr
      ⟨List.dropWhile_suffix _, rfl⟩)))
  rw [readLine, hdash, splitArrow_append hfirst, Option.map_some, strip_dropWhile, strip_rdropWhile]

private theorem readLines_plain (h : row.Plain) :
    readLines readLine row.line = [(strip pySpace row.head, strip pySpace row.value)] := by
  have hvalue : strip pySpace (row.value.rdropWhile pySpace) ≠ [] := by
    rw [strip_rdropWhile]
    exact h.value
  -- the white space behind the value is not read
  have hcut : (answerLine row.head (row.value.rdropWhile pySpace)).rdropWhile pySpace = row.line.rdropWhile pySpace := by
    have hcons (value : Text) : answerLine row.head value = ('-' :: ' ' :: (row.head ++ arrow)) ++ value := by
      simp [answerLine]
    rw [Row.line, hcons, hcons, rdropWhile_append_of_strip hvalue, rdropWhile_append_of_strip h.value,
      List.rdropWhile_idempotent]
  have hbreak : '\n' ∉ answerLine row.head (row.value.rdropWhile pySpace) := by
    simpa [answerLine, arrow] using h.line
  rw [← readLines_rdropWhile readLine_strip readLine_nil, ← hcut, readLines_rdropWhile readLine_strip readLine_nil,
    readLines, splitLines_of_notMem hbreak, List.filterMap_cons_some (readLine_answerLine h.head hvalue h.arrow),
    strip_rdropWhile]
  rfl

private theorem answerLines_plain (h : ∀ row ∈ rows, row.Plain) :
    answerLines rows = rows.map fun row => (strip pySpace row.head, strip pySpace row.value) := by
  rw [answerLines, List.flatMap_congr fun row hrow => readLines_plain (h row hrow), List.map_eq_flatMap]

private theorem lastUnder_plain (h : ∀ row ∈ rows, row.Plain) (hrow : row ∈ rows)
    (hsame : ∀ other ∈ rows, strip pySpace other.head = strip pySpace row.head →
      strip pySpace other.value = strip pySpace row.value) :
    lastUnder (answerLines rows) (strip pySpace row.head) = some (strip pySpace row.value) := by
  rw [answerLines_plain h]
  exact lastUnder_of_forall (List.mem_map.mpr ⟨row, hrow, rfl⟩) (List.forall_mem_map.mpr hsame)

private theorem lastUnder_nil (h : ∀ row ∈ rows, row.Plain) : lastUnder (answerLines rows) [] = none := by
  rw [answerLines_plain h]
  refine getValue_eq_none fun hmem => ?_
  obtain ⟨line, hline, hnil⟩ := List.mem_map.mp hmem
  obtain ⟨row, hrow, rfl⟩ := List.mem_map.mp (List.mem_reverse.mp hline)
  exact (h row hrow).head hnil

private theorem carriedValue_plain (h : ∀ row ∈ rows, row.Plain) {q : Question}
    (hval : lastUnder (answerLines rows) (headerOrQuestion q) = some val) : carriedValue rows q = some val := by
  unfold headerOrQuestion at hval
  unfold carriedValue
  split at hval
  · rename_i hheader
    rw [hheader, lastUnder_nil h, hval]
    rfl
  · rw [hval]
    rfl

private theorem carriedValue_single (h : row.Plain) (q : Question) :
    carriedValue [row] q = some (strip pySpace row.value) := by
  have hlines : answerLines [row] = [(strip pySpace row.head, strip pySpace row.value)] :=
    answerLines_plain (List.forall_mem_singleton.mpr h)
  have hunder (key : Text) : lastUnder [(strip pySpace row.head, strip pySpace row.value)] key =
      if key = strip pySpace row.head then some (strip pySpace row.value) else none := by
    simp [lastUnder, getValue]
  rw [carriedValue, hlines]
  simp only [hunder, List.length_singleton, if_true, List.head?_cons, Option.bind_some]
  split <;> split <;> rfl

variable (heads : ∀ row ∈ rows, strip pySpace row.head = strip pySpace (headerOrQuestion row.question))

include heads

private theorem legible_of_plain (h : Plain rows) : Legible rows := by
  intro row hrow
  rcases h.apart with hone | hapart
  · obtain ⟨only, rfl⟩ := List.length_eq_one_iff.mp hone
    cases List.mem_singleton.mp hrow
    exact carriedValue_single (h.lines row hrow) _
  · obtain ⟨hstrip, hsame⟩ := hapart row hrow
    apply carriedValue_plain h.lines
    rw [← hstrip, ← heads row hrow]
    exact lastUnder_plain h.lines hrow hsame

/-- The last one of the rows under a head decides, and what is carried for the others is what it says. -/
theorem apart_of_legible (hlines : ∀ row ∈ rows, row.Plain)
    (hstrip : ∀ row ∈ rows, strip pySpace (headerOrQuestion row.question) = headerOrQuestion row.question)
    (h : Legible rows) : Apart rows := by
  intro row hrow
  refine ⟨hstrip row hrow, fun other hother hsame => ?_⟩
  have hmem : (strip pySpace row.head, strip pySpace row.value) ∈ answerLines rows := by
    rw [answerLines_plain hlines]
    exact List.mem_map.mpr ⟨row, hrow, rfl⟩
  obtain ⟨val, hval⟩ := getValue_isSome (List.mem_map_of_mem (List.mem_reverse.mpr hmem))
  have hcarried {row' : Row} (hrow' : row' ∈ rows) (hhead : strip pySpace row'.head = strip pySpace row.head) :
      strip pySpace row'.value = val := by
    have hkey : headerOrQuestion row'.question = strip pySpace row.head := by
      rw [← hstrip row' hrow', ← heads row' hrow', hhead]
    have hlegible := h row' hrow'
    rw [carriedValue_plain hlines (hkey ▸ hval)] at hlegible
    exact (Option.some.inj hlegible).symm
  exact (hcarried hother hsame).trans (hcarried hrow rfl).symm

omit heads

private theorem mem_of_mem_strip {c : Char} {text : Text} (h : c ∈ strip pySpace text) : c ∈ text :=
  (strip_sublist pySpace text).mem h

private theorem readLine_line {raw head value : Text} (hraw : '\n' ∉ raw) (h : readLine raw = some (head, value)) :
    Key head ∧ '\n' ∉ value := by
  obtain ⟨parts, hparts, heq⟩ := Option.map_eq_some_iff.mp h
  cases heq
  have hline := splitArrow_eq_some hparts
  have hbreak : '\n' ∉ dropDash (strip pySpace raw) := by
    refine fun hmem => hraw (mem_of_mem_strip ?_)
    unfold dropDash at hmem
    split at hmem
    · rename_i hdash
      rw [hdash]
      exact List.mem_cons_of_mem _ (mem_of_mem_strip hmem)
    · exact hmem
  simp only [hline, List.mem_append, not_or] at hbreak
  refine ⟨⟨fun hnil => ?_, strip_strip _, fun hmem => hbreak.1.1 (mem_of_mem_strip hmem), fun hin => ?_⟩,
    fun hmem => hbreak.2 (mem_of_mem_strip hmem)⟩
  · -- a stripped line does not begin with the blank of an arrow
    have hblank : ∀ c ∈ parts.1 ++ [' '], pySpace c = true := by
      intro c hc
      rcases List.mem_append.mp hc with hc | hc
      · exact strip_eq_nil_iff.mp hnil c hc
      · rw [List.mem_singleton.mp hc]
        decide
    have hfirst : dropDash (strip pySpace raw) = (parts.1 ++ [' ']) ++ (['-', '>', ' '] ++ parts.2) := by
      rw [hline, arrow]
      simp
    have hstrip := strip_dropDash_strip raw
    rw [hfirst] at hstrip
    cases hcut : parts.1 ++ [' '] with
    | nil => simp at hcut
    | cons c rest =>
      rw [hcut, List.cons_append] at hstrip
      rw [hcut] at hblank
      cases (hblank c List.mem_cons_self).symm.trans (not_space_of_strip_eq hstrip)
  · refine splitArrow_head hparts (hin.trans ?_)
    exact (List.IsPrefix.isInfix (List.rdropWhile_prefix pySpace _)).trans
      (List.IsSuffix.isInfix (List.dropWhile_suffix pySpace))

private theorem answerLines_line {line : Text × Text} (h : line ∈ answerLines rows) : Key line.1 ∧ '\n' ∉ line.2 := by
  obtain ⟨row, -, hrow⟩ := List.mem_flatMap.mp h
  obtain ⟨raw, hraw, hread⟩ := List.mem_filterMap.mp hrow
  exact readLine_line (notMem_of_mem_splitLines hraw) hread

theorem told_of_legible (heads : ∀ row ∈ rows, strip pySpace row.head = strip pySpace (headerOrQuestion row.question))
    (h : Legible rows) : Told rows where
  value row hrow := by
    obtain ⟨line, hline, hvalue⟩ := carriedValue_mem (h row hrow)
    rw [← hvalue]
    exact ⟨(answerLines_value hline).2, (answerLines_line hline).2⟩
  key hlen row hrow := by
    have hcarried := h row hrow
    rw [carriedValue, if_neg hlen, Option.or_none] at hcarried
    rcases Option.or_eq_some_iff.mp hcarried with hheader | ⟨-, hquestion⟩
    · exact .inl (answerLines_line (lastUnder_mem hheader)).1
    · exact .inr (answerLines_line (lastUnder_mem hquestion)).1
  apart hlines hstrip := apart_of_legible heads hlines hstrip h

def rowValue (rows : List Row) (row : Row) : Option Text :=
  if rows.length = 1 ∧ answerLines rows = [] then some (strip pySpace (answerText rows))
  else carriedValue rows row.question

def collected (rows : List Row) : List (Text × Text) :=
  rows.filterMap fun row => (rowValue rows row).map fun val => (row.question.question, val)

private theorem askuserAnswersMap_answerText (hne : rows ≠ []) (hans : ∀ row ∈ rows, row.values ≠ [])
    (hnodup : (rows.map fun row => row.question.question).Nodup)
    (hnonempty : ∀ row ∈ rows, row.question.question ≠ []) :
    askuserAnswersMap (rows.map Row.question) (answerText rows) = if collected rows = [] then
        [((rows.head hne).question.question, strip pySpace (answerText rows))]
      else collected rows := by
  have hloop : (rows.map Row.question).foldl
      (answerStep (rows.map Row.question) (assignAll [] (answerLines rows))
        (strip pySpace (answerText rows))) [] = collected rows := by
    have hnodup' : (([] : List (Text × Text)).map Prod.fst ++
        (rows.map Row.question).map Question.question).Nodup := by
      rw [List.map_map]
      exact hnodup
    rw [foldl_answerStep _ _ hnodup' (by simpa using hnonempty), List.nil_append, List.filterMap_map]
    unfold collected rowValue
    apply List.filterMap_congr
    intro row _
    rw [Function.comp_apply, questionValue_answerLines (List.length_map _), List.length_map]
  unfold askuserAnswersMap
  dsimp only
  rw [readLines_answerText hne hans, hloop]
  cases rows with
  | nil => exact absurd rfl hne
  | cons row rows =>
    rw [List.map_cons, List.head_cons]
    cases hcollected : collected (row :: rows) with
    | nil => simp [hnonempty row List.mem_cons_self]
    | cons entry answers => simp

private theorem getValue_collected (hnodup : (rows.map fun row => row.question.question).Nodup) {row : Row}
    (hrow : row ∈ rows) : getValue (collected rows) row.question.question = rowValue rows row :=
  getValue_filterMap (rowValue rows) hnodup hrow

private theorem rowValue_of_legible (hlegible : Legible rows) (hrow : row ∈ rows) :
    rowValue rows row = some (strip pySpace row.value) := by
  have hcarried := hlegible row hrow
  obtain ⟨line, hline, -⟩ := carriedValue_mem hcarried
  have hlines : answerLines rows ≠ [] := List.ne_nil_of_mem hline
  rw [rowValue, if_neg (fun h => hlines h.2), hcarried]

private theorem collected_of_legible (hlegible : Legible rows) :
    collected rows = rows.map fun row => (row.question.question, strip pySpace row.value) := by
  rw [collected, ← List.filterMap_eq_map]
  apply List.filterMap_congr
  intro row hrow
  rw [rowValue_of_legible hlegible hrow]
  rfl

private theorem strip_answerText_ne (hans : ∀ row ∈ rows, row.values ≠ []) (hrow : row ∈ rows)
    (hone : rows.length = 1) :
    strip pySpace (strip pySpace (answerText rows)) ≠ strip pySpace row.value := by
  obtain ⟨only, rfl⟩ := List.length_eq_one_iff.mp hone
  cases List.mem_singleton.mp hrow
  have htext : answerText [row] = row.line := by simp [answerText, hans row hrow, joinLines]
  rw [strip_strip, htext]
  exact strip_answerLine_ne _ _

private theorem carriedValue_of_rowValue (hans : ∀ row ∈ rows, row.values ≠ [])
    (hrow : row ∈ rows) (hval : rowValue rows row = some val)
    (hstrip : strip pySpace val = strip pySpace row.value) :
    carriedValue rows row.question = some (strip pySpace row.value) := by
  rw [rowValue] at hval
  split at hval
  · rename_i hsingle
    cases hval
    exact absurd hstrip (strip_answerText_ne hans hrow hsingle.1)
  · rw [hval, ← strip_carriedValue hval, hstrip]

private theorem survives_answerText_iff (hne : rows ≠ []) (hans : ∀ row ∈ rows, row.values ≠ [])
    (hnodup : (rows.map fun row => row.question.question).Nodup)
    (hnonempty : ∀ row ∈ rows, row.question.question ≠ []) :
    Survives rows (askuserAnswersMap (rows.map Row.question) (answerText rows)) ↔ Legible rows := by
  rw [askuserAnswersMap_answerText hne hans hnodup hnonempty]
  constructor
  · intro ⟨hkeys, hvalues⟩ row hrow
    by_cases hnone : collected rows = []
    · -- The last resort holds one entry, which would be that of a single question.
      rw [if_pos hnone] at hkeys hvalues
      have hone : rows.length = 1 := by simpa using hkeys.length_eq.symm
      obtain ⟨val, hval, hstrip⟩ := hvalues row hrow
      have hentry := List.mem_singleton.mp (getValue_mem hval)
      rw [(Prod.mk.inj hentry).2] at hstrip
      exact absurd hstrip (strip_answerText_ne hans hrow hone)
    · rw [if_neg hnone] at hvalues
      obtain ⟨val, hval, hstrip⟩ := hvalues row hrow
      rw [getValue_collected hnodup hrow] at hval
      exact carriedValue_of_rowValue hans hrow hval hstrip
  · intro hlegible
    have hcollected := collected_of_legible hlegible
    have hsome : collected rows ≠ [] := by simpa [hcollected] using hne
    rw [if_neg hsome]
    constructor
    · rw [hcollected, List.map_map]
      rfl
    · intro row hrow
      refine ⟨strip pySpace row.value, ?_, strip_strip _⟩
      rw [getValue_collected hnodup hrow, rowValue_of_legible hlegible hrow]

end Sheet

/-- The row of a pick in the connector's dropdown, which sends the first question only. -/
def optionRow (value : Text) : Question × Nat → Row
  | (q, i) =>
    { question := q
      head := connectorHead q
      values := if i = 0 then (optionAt q value).toList.map optDisplay else [] }

inductive Reply
  | web (customPrefix : Text) (card : List ((q : Question) × WebChoice q))
  | form (questions : List Question) (inputs : FormValue)
  | option (questions : List Question) (value : Text)

namespace Reply

def questions : Reply → List Question
  | web _ card => card.map Sigma.fst
  | form questions _ => questions
  | option questions _ => questions

def text : Reply → Text
  | web customPrefix card => buildAnswerText customPrefix card
  | form questions inputs => answerFromForm questions inputs
  | option questions value => answerFromOption questions value

/-- What the encoder writes for each question, the questions without a value included. -/
def rows : Reply → List Row
  | web customPrefix card => card.map (webRow customPrefix)
  | form questions inputs => questions.zipIdx.map (formRow inputs)
  | option questions value => questions.zipIdx.map (optionRow value)

def Complete (r : Reply) : Prop := ∀ row ∈ r.rows, row.values ≠ []

private theorem rows_question (r : Reply) : r.rows.map Row.question = r.questions := by
  cases r with
  | web customPrefix card =>
    rw [rows, questions, List.map_map]
    rfl
  | form questions inputs =>
    rw [rows, List.map_map]
    exact List.zipIdx_map_fst 0 questions
  | option questions value =>
    rw [rows, List.map_map]
    exact List.zipIdx_map_fst 0 questions

theorem strip_head (r : Reply) : ∀ row ∈ r.rows, strip pySpace row.head = strip pySpace (headerOrQuestion row.question) := by
  cases r with
  | web customPrefix card => exact List.forall_mem_map.mpr fun _ _ => rfl
  | form questions inputs => exact List.forall_mem_map.mpr fun _ _ => strip_strip _
  | option questions value => exact List.forall_mem_map.mpr fun _ _ => strip_strip _

/-- A pick answers all questions only when there is one, and it names an option then. -/
theorem text_option {questions : List Question} {value : Text} (hcomplete : (option questions value).Complete) :
    (option questions value).text = answerText (option questions value).rows := by
  cases questions with
  | nil => rfl
  | cons q questions =>
    cases questions with
    | nil =>
      have hfirst : optionAt q value ≠ none := by
        intro hnone
        exact hcomplete (optionRow value (q, 0)) (by simp [rows]) (by simp [optionRow, hnone])
      obtain ⟨opt, hopt⟩ := Option.ne_none_iff_exists'.mp hfirst
      simp [text, rows, answerFromOption, answerText, optionRow, hopt, joinLines, Row.line,
        Row.value, joinValues]
    | cons q' questions =>
      exact absurd rfl (hcomplete (optionRow value (q', 1)) (by simp [rows]))

private theorem text_eq_answerText {r : Reply} (hcomplete : r.Complete) : r.text = answerText r.rows := by
  cases r with
  | web customPrefix card => rfl
  | form questions inputs => rfl
  | option questions value => exact text_option hcomplete

theorem survives_iff_legible (r : Reply) (hne : r.questions ≠ [])
    (hdistinct : (r.questions.map Question.question).Nodup)
    (hnonempty : ∀ q ∈ r.questions, q.question ≠ []) (hcomplete : r.Complete) :
    Survives r.rows (askuserAnswersMap r.questions r.text) ↔ Legible r.rows := by
  rw [← rows_question] at hne hdistinct hnonempty ⊢
  rw [text_eq_answerText hcomplete]
  apply survives_answerText_iff (by simpa using hne) hcomplete
  · rw [List.map_map] at hdistinct
    exact hdistinct
  · intro row hrow
    exact hnonempty _ (List.mem_map_of_mem hrow)

/-- The answers survive when the lines are plain and the heads keep the questions apart, and not without visible
values of one line each, headers or texts that a line can carry, and heads that keep the questions apart. -/
theorem survives_of_plain (r : Reply) (hne : r.questions ≠ [])
    (hdistinct : (r.questions.map Question.question).Nodup)
    (hnonempty : ∀ q ∈ r.questions, q.question ≠ []) (hcomplete : r.Complete) :
    (Plain r.rows → Survives r.rows (askuserAnswersMap r.questions r.text)) ∧
      (Survives r.rows (askuserAnswersMap r.questions r.text) → Told r.rows) := by
  have hiff := survives_iff_legible r hne hdistinct hnonempty hcomplete
  exact ⟨fun h => hiff.mpr (legible_of_plain r.strip_head h), fun h => told_of_legible r.strip_head (hiff.mp h)⟩

/-- A card with one question, which the user answers in his own words. -/
def ownWords (text : Text) : Reply :=
  web ['C', 'u', 's', 't', 'o', 'm', ':']
    [⟨{ question := ['Q', '?'], header := ['H'] }, { custom := { enabled := true, text } }⟩]

theorem survives_ownWords : (ownWords ['o', 'k']).Complete ∧ Survives (ownWords ['o', 'k']).rows
        (askuserAnswersMap (ownWords ['o', 'k']).questions (ownWords ['o', 'k']).text) := by
  have hcomplete : (ownWords ['o', 'k']).Complete := by
    unfold Complete
    decide
  refine ⟨hcomplete, (survives_of_plain _ ?_ ?_ ?_ hcomplete).1 ⟨?_, .inl rfl⟩⟩
  · decide
  · decide
  · decide
  · exact List.forall_mem_singleton.mpr ⟨by decide, by decide, by decide, by decide⟩

/-- The second line of the text is lost. -/
theorem twoLines_not_survives : ¬ ∀ r : Reply, r.questions ≠ [] → (r.questions.map Question.question).Nodup →
      (∀ q ∈ r.questions, q.question ≠ []) → r.Complete →
        Survives r.rows (askuserAnswersMap r.questions r.text) := by
  intro h
  have hsurvives := h (ownWords ['a', '\n', 'b']) (by decide) (by decide) (by decide)
    (by unfold Complete; decide)
  obtain ⟨val, hval, hstrip⟩ := hsurvives.2 _ List.mem_cons_self
  have hcut : getValue (askuserAnswersMap (ownWords ['a', '\n', 'b']).questions
      (ownWords ['a', '\n', 'b']).text) ['Q', '?'] = some ['C', 'u', 's', 't', 'o', 'm', ':', ' ', 'a'] := by
    decide
  cases hcut.symm.trans hval
  exact absurd hstrip (by decide)

end Reply

end PrivaCloud.AskUser
