import Mathlib.Data.List.Infix
import PrivaCloud.AskUser.AnswerText
import PrivaCloud.Framework.Utf8

/-!
# The answered card on a replay

A session that is opened again has the tool result of a question, and `sessionTransform.js` makes the answered
card out of the answers in it: an option counts as chosen when its label is found in the answer.
-/

namespace PrivaCloud.AskUser

open Framework

/-- A block of a result's `content`: a string, or a record with `text` and `content`. -/
inductive ContentBlock
  | bare (text : Text)
  | record (text content : Text)

inductive ResultContent
  | text (text : Text)
  | blocks (blocks : List ContentBlock)
  | absent

/-- The result of `AskUserQuestion`, with what `tool_use_result` has. -/
structure ToolResult where
  questions : Option (List Question) := none
  answers : List (Text × Text) := []
  content : ResultContent := .absent

def ContentBlock.shown : ContentBlock → Text
  | .bare text => text
  | .record text content => if text = [] then content else text

def extractResultText : ResultContent → Text
  | .text text => text
  | .blocks blocks => [' '].intercalate (blocks.map ContentBlock.shown)
  | .absent => []

/-- `"([^"]+)"\s*=\s*"([^"]*)"` at the beginning of a text, with what comes after it. -/
def pairAt : Text → Option ((Text × Text) × Text)
  | '"' :: text =>
    let key := text.takeWhile (· ≠ '"')
    if key = [] then none
    else
      match text.dropWhile (· ≠ '"') with
      | '"' :: text =>
        match text.dropWhile jsSpace with
        | '=' :: text =>
          match text.dropWhile jsSpace with
          | '"' :: text =>
            match text.dropWhile (· ≠ '"') with
            | '"' :: rest => some ((key, text.takeWhile (· ≠ '"')), rest)
            | _ => none
          | _ => none
        | _ => none
      | _ => none
  | _ => none

/-- The matches of `re.exec`, one after another; every one of them takes some of the text. -/
def matchPairs : Nat → Text → List (Text × Text)
  | 0, _ => []
  | _ + 1, [] => []
  | fuel + 1, c :: text =>
    match pairAt (c :: text) with
    | some (pair, rest) => pair :: matchPairs fuel rest
    | none => matchPairs fuel text

/-- `opt?.label || ''` -/
def Opt.label : Opt → Text
  | .record label _ => label
  | .bare _ => []

def answerParts (value : Text) : List Text :=
  ((splitBy (fun c => c = ';' || c = ',') value).map (strip jsSpace)).filter (· ≠ [])

/-- Whether an option of the label counts as chosen. -/
def hits (label value : Text) : Bool :=
  label ≠ [] &&
    ((answerParts value).any (fun p => p = label || (label ++ [' ']).isPrefixOf p || decide (label <:+: p)) ||
      decide (label <:+: value))

/-- The options that count as chosen, by their indices. -/
def chosen (q : Question) (value : Text) : List Nat :=
  (q.options.zipIdx.filter fun option => hits option.1.label value).map (·.2)

/-- The answered card; an entry of a list is what its object has under that index. -/
structure AskUserBlock where
  questions : List Question
  answeredText : Text
  answeredSelections : List (Option (List Nat))
  answeredCustomInputs : List (Option CustomInput)

section Replay

variable (answers : List (Text × Text))

/-- The answer to a question, if there is one -/
def recorded (q : Question) : Option Text :=
  match getValue answers q.question with
  | none | some [] => none
  | some value => some value

def replayedSelection (q : Question) : Option (List Nat) :=
  (recorded answers q).bind fun value => if chosen q value ≠ [] then some (chosen q value) else none

def replayedCustomInput (q : Question) : Option CustomInput :=
  (recorded answers q).bind fun value =>
    if chosen q value ≠ [] then none else some { enabled := true, text := value }

end Replay

def buildAnsweredAskUserBlock (input : Option (List Question)) (result : ToolResult) : Option AskUserBlock :=
  let questions := (input.orElse fun _ => result.questions).getD []
  let answers :=
    if result.answers = [] then
      let text := extractResultText result.content
      assignAll [] (matchPairs text.length text)
    else result.answers
  if questions = [] ∨ answers = [] then none
  else
    let answeredSelections := questions.map (replayedSelection answers)
    let answeredCustomInputs := questions.map (replayedCustomInput answers)
    if (∀ s ∈ answeredSelections, s = none) ∧ ∀ c ∈ answeredCustomInputs, c = none then none
    else
      some
        { questions
          answeredText := joinLines (questions.filterMap fun q =>
            (recorded answers q).map (answerLine (headerOrQuestion q)))
          answeredSelections
          answeredCustomInputs }

namespace AskUserBlock

/-- The options that the card shows as chosen for a question. -/
def selectionOf (block : Option AskUserBlock) (qi : Nat) : List Nat :=
  (block.bind fun b => (b.answeredSelections[qi]?).join).getD []

def customInputOf (block : Option AskUserBlock) (qi : Nat) : Option CustomInput :=
  block.bind fun b => (b.answeredCustomInputs[qi]?).join

end AskUserBlock

namespace WebChoice

variable {q : Question} (choice : WebChoice q)

/-- The options that were selected, by their indices. -/
def selection : List Nat := ((List.finRange q.options.length).filter (· ∈ choice.selected)).map Fin.val

def freeText : Option CustomInput :=
  if choice.custom.enabled ∧ strip jsSpace choice.custom.text ≠ [] then
    some { enabled := true, text := strip jsSpace choice.custom.text }
  else none

/-- No free text, a label on every option that was selected, and none of the others to be found in the answer. -/
structure Clear (value : Text) : Prop where
  unwritten : choice.freeText = none
  labelled : ∀ i ∈ choice.selected, (q.options.get i).label ≠ []
  others : ∀ i, i ∉ choice.selected → (q.options.get i).label ≠ [] → ¬ (q.options.get i).label <:+: value

end WebChoice

def Replayed (card : List ((q : Question) × WebChoice q)) (block : Option AskUserBlock) : Prop :=
  ∀ qi choice, card[qi]? = some choice → AskUserBlock.selectionOf block qi = choice.2.selection ∧
      AskUserBlock.customInputOf block qi = choice.2.freeText

theorem isPrefix_of_splitBy {sep : Char → Bool} {text part : Text} {parts : List Text}
    (h : splitBy sep text = part :: parts) : part <+: text := by
  induction text generalizing part parts with
  | nil =>
    cases h
    exact List.nil_prefix
  | cons c text ih =>
    obtain ⟨first, rest, hfirst⟩ := exists_splitBy sep text
    cases hc : sep c with
    | true =>
      rw [splitBy_cons_sep hc] at h
      cases h
      exact List.nil_prefix
    | false =>
      rw [splitBy_cons hc hfirst] at h
      cases h
      exact List.cons_prefix_cons.mpr ⟨rfl, ih hfirst⟩

theorem isInfix_of_mem_splitBy {sep : Char → Bool} {text part : Text} (h : part ∈ splitBy sep text) :
    part <:+: text := by
  induction text generalizing part with
  | nil =>
    obtain rfl : part = [] := by simpa [splitBy] using h
    exact List.nil_infix
  | cons c text ih =>
    obtain ⟨first, rest, hfirst⟩ := exists_splitBy sep text
    have hlater (later : Text) (hmem : later ∈ splitBy sep text) : later <:+: c :: text :=
      (ih hmem).trans (List.suffix_cons c text).isInfix
    cases hc : sep c with
    | true =>
      rw [splitBy_cons_sep hc, List.mem_cons] at h
      rcases h with rfl | h
      · exact List.nil_infix
      · exact hlater part h
    | false =>
      have hsplit := splitBy_cons hc hfirst
      rw [hsplit, List.mem_cons] at h
      rcases h with rfl | h
      · exact (isPrefix_of_splitBy hsplit).isInfix
      · exact hlater part (hfirst ▸ List.mem_cons_of_mem first h)

theorem isInfix_of_mem_answerParts {value part : Text} (h : part ∈ answerParts value) : part <:+: value := by
  obtain ⟨piece, hpiece, rfl⟩ := List.mem_map.mp (List.mem_filter.mp h).1
  exact ((List.rdropWhile_prefix jsSpace _).isInfix.trans (List.dropWhile_suffix jsSpace).isInfix).trans
    (isInfix_of_mem_splitBy hpiece)

theorem hits_iff {label value : Text} : hits label value = true ↔ label ≠ [] ∧ label <:+: value := by
  have hpart : (answerParts value).any (fun p =>
    p = label || (label ++ [' ']).isPrefixOf p || decide (label <:+: p)) = true → label <:+: value := by
    intro h
    obtain ⟨p, hp, hfound⟩ := List.any_eq_true.mp h
    have hinfix := isInfix_of_mem_answerParts hp
    rw [Bool.or_eq_true, Bool.or_eq_true, decide_eq_true_eq, decide_eq_true_eq, List.isPrefixOf_iff_prefix] at hfound
    rcases hfound with (rfl | hprefix) | hfound
    · exact hinfix
    · exact ((List.prefix_append label [' ']).trans hprefix).isInfix.trans hinfix
    · exact hfound.trans hinfix
  unfold hits
  rw [Bool.and_eq_true, Bool.or_eq_true, decide_eq_true_eq, decide_eq_true_eq]
  constructor
  · rintro ⟨hne, h | h⟩
    · exact ⟨hne, hpart h⟩
    · exact ⟨hne, h⟩
  · rintro ⟨hne, h⟩
    exact ⟨hne, .inr h⟩

theorem zipIdx_eq_map_finRange {α : Type} (l : List α) :
    l.zipIdx = (List.finRange l.length).map fun i => (l.get i, i.val) := by
  apply List.ext_getElem
  · rw [List.length_zipIdx, List.length_map, List.length_finRange]
  · intro i hi hi'
    simp

theorem chosen_eq (q : Question) (value : Text) : chosen q value =
      ((List.finRange q.options.length).filter fun i => hits (q.options.get i).label value).map Fin.val := by
  rw [chosen, zipIdx_eq_map_finRange, List.filter_map, List.map_map]
  rfl

namespace WebChoice

variable {q : Question} {choice : WebChoice q} {value : Text}

theorem mem_selection {i : Fin q.options.length} : i.val ∈ choice.selection ↔ i ∈ choice.selected := by
  rw [selection, List.mem_map_of_injective Fin.val_injective, List.mem_filter, decide_eq_true_eq]
  exact and_iff_right (List.mem_finRange i)

theorem mem_chosen {i : Fin q.options.length} :
    i.val ∈ chosen q value ↔ (q.options.get i).label ≠ [] ∧ (q.options.get i).label <:+: value := by
  rw [chosen_eq, List.mem_map_of_injective Fin.val_injective, List.mem_filter, hits_iff]
  exact and_iff_right (List.mem_finRange i)

theorem chosen_eq_selection : chosen q value = choice.selection ↔
      ∀ i, ((q.options.get i).label ≠ [] ∧ (q.options.get i).label <:+: value) ↔ i ∈ choice.selected := by
  constructor
  · intro h i
    rw [← mem_chosen, h, mem_selection]
  · intro h
    rw [chosen_eq, selection]
    congr 1
    apply List.filter_congr
    intro i _
    rw [Bool.eq_iff_iff, hits_iff, decide_eq_true_eq]
    exact h i

theorem selection_eq_nil : choice.selection = [] ↔ choice.selected = [] := by
  rw [List.eq_nil_iff_forall_not_mem, List.eq_nil_iff_forall_not_mem]
  constructor
  · intro h i hi
    exact h i.val (mem_selection.mpr hi)
  · intro h i hi
    obtain ⟨j, -, rfl⟩ := List.mem_map.mp hi
    exact h j (mem_selection.mp hi)

end WebChoice

theorem isInfix_joinValues {values : List Text} {value : Text} (h : value ∈ values) : value <:+: joinValues values := by
  induction values with
  | nil => cases h
  | cons first values ih =>
    cases values with
    | nil =>
      rw [List.mem_singleton.mp h]
      exact List.infix_rfl
    | cons second values =>
      rcases List.mem_cons.mp h with rfl | h
      · exact (List.prefix_append _ _).isInfix
      · have hlater : joinValues (second :: values) <:+: joinValues (first :: second :: values) :=
          ⟨first ++ [';', ' '], [], by simp [joinValues]⟩
        exact (ih h).trans hlater

theorem label_isPrefix_webOption (opt : Opt) : opt.label <+: webOption opt := by
  cases opt with
  | bare text => exact List.nil_prefix
  | record label description =>
    change label <+: if description = [] then label else label ++ [' ', '-', ' '] ++ description
    split
    · exact List.prefix_rfl
    · exact (List.prefix_append label [' ', '-', ' ']).trans (List.prefix_append _ description)

section Web

variable (customPrefix : Text) {q : Question} {choice : WebChoice q}

theorem label_isInfix_value {i : Fin q.options.length} (hi : i ∈ choice.selected) :
    (q.options.get i).label <:+: (webRow customPrefix ⟨q, choice⟩).value := by
  have hmem : webOption (q.options.get i) ∈ (webRow customPrefix ⟨q, choice⟩).values :=
    List.mem_append_left _ (List.mem_map.mpr ⟨i, (List.mem_insertionSort _).mpr hi, rfl⟩)
  exact (label_isPrefix_webOption _).isInfix.trans (isInfix_joinValues hmem)

theorem length_freeText_lt {custom : CustomInput} (h : choice.freeText = some custom) :
    custom.text.length < (webRow customPrefix ⟨q, choice⟩).value.length := by
  unfold WebChoice.freeText at h
  split at h <;> cases h
  rename_i hgiven
  have hmem : customPrefix ++ ' ' :: strip jsSpace choice.custom.text ∈ (webRow customPrefix ⟨q, choice⟩).values := by
    refine List.mem_append_right _ ?_
    rw [if_pos hgiven]
    exact List.mem_singleton_self _
  have hlen := (isInfix_joinValues hmem).length_le
  rw [List.length_append, List.length_cons] at hlen
  change (strip jsSpace choice.custom.text).length < (joinValues (webRow customPrefix ⟨q, choice⟩).values).length
  omega

theorem value_eq_nil (hselected : choice.selected = []) (hwritten : choice.freeText = none) :
    (webRow customPrefix ⟨q, choice⟩).value = [] := by
  have hnot : ¬ (choice.custom.enabled ∧ strip jsSpace choice.custom.text ≠ []) := by
    intro hgiven
    rw [WebChoice.freeText, if_pos hgiven] at hwritten
    cases hwritten
  unfold Row.value webRow
  rw [hselected, if_neg hnot]
  rfl

theorem replayed_question_iff {answers : List (Text × Text)}
    (hstored : getValue answers q.question = some (webRow customPrefix ⟨q, choice⟩).value) :
    ((replayedSelection answers q).getD [] = choice.selection ∧ replayedCustomInput answers q = choice.freeText) ↔
      choice.Clear (webRow customPrefix ⟨q, choice⟩).value := by
  have hlength (custom : CustomInput) (h : choice.freeText = some custom) := length_freeText_lt customPrefix h
  have hnil (h : choice.selected = []) (h' : choice.freeText = none) := value_eq_nil customPrefix h h'
  have hlabel (i : Fin q.options.length) (hi : i ∈ choice.selected) := label_isInfix_value customPrefix hi
  generalize (webRow customPrefix ⟨q, choice⟩).value = value at hstored hlength hnil hlabel
  have hrecorded : recorded answers q = if value = [] then none else some value := by
    unfold recorded
    rw [hstored]
    cases value <;> rfl
  unfold replayedSelection replayedCustomInput
  rw [hrecorded]
  constructor
  · rintro ⟨hselection, hcustom⟩
    have hwritten : choice.freeText = none := by
      cases hfree : choice.freeText with
      | none => rfl
      | some custom =>
        have hlt := hlength custom hfree
        rw [hfree] at hcustom
        split at hcustom
        · cases hcustom
        · rw [Option.bind_some] at hcustom
          split at hcustom <;> cases hcustom
          exact absurd hlt (Nat.lt_irrefl _)
    by_cases hselected : choice.selected = []
    · refine ⟨hwritten, ?_, ?_⟩
      · rw [hselected]
        rintro i ⟨⟩
      · intro i _ hne hinfix
        rw [hnil hselected hwritten] at hinfix
        exact hne (List.infix_nil.mp hinfix)
    · have hsome : choice.selection ≠ [] := fun h => hselected (WebChoice.selection_eq_nil.mp h)
      have hchosen : chosen q value = choice.selection := by
        split at hselection
        · exact absurd hselection.symm hsome
        · rw [Option.bind_some] at hselection
          split at hselection
          · exact hselection
          · exact absurd hselection.symm hsome
      have hall := WebChoice.chosen_eq_selection.mp hchosen
      exact ⟨hwritten, fun i hi => ((hall i).mpr hi).1, fun i hi hne hinfix => hi ((hall i).mp ⟨hne, hinfix⟩)⟩
  · intro hclear
    have hchosen : chosen q value = choice.selection := by
      refine WebChoice.chosen_eq_selection.mpr fun i => ⟨fun h => ?_, fun hi => ⟨hclear.labelled i hi, hlabel i hi⟩⟩
      by_contra hi
      exact hclear.others i hi h.1 h.2
    rw [hclear.unwritten]
    by_cases hselected : choice.selected = []
    · have hempty := WebChoice.selection_eq_nil.mpr hselected
      rw [hempty, hnil hselected hclear.unwritten]
      exact ⟨rfl, rfl⟩
    · have hsome : choice.selection ≠ [] := fun h => hselected (WebChoice.selection_eq_nil.mp h)
      have hvalue : value ≠ [] := by
        rintro rfl
        obtain ⟨i, hi⟩ := List.exists_mem_of_ne_nil _ hselected
        exact hclear.labelled i hi (List.infix_nil.mp (hlabel i hi))
      rw [if_neg hvalue, Option.bind_some, Option.bind_some, hchosen, if_pos hsome, if_pos hsome]
      exact ⟨rfl, rfl⟩

end Web

section Card

variable (customPrefix : Text) {card : List ((q : Question) × WebChoice q)} {input : Option (List Question)}
  {result : ToolResult}

theorem shown_buildAnsweredAskUserBlock (hquestions : (input.orElse fun _ => result.questions) = some (card.map (·.1)))
    (hanswers : result.answers ≠ []) {qi : Nat} {choice : (q : Question) × WebChoice q}
    (hchoice : card[qi]? = some choice) :
    AskUserBlock.selectionOf (buildAnsweredAskUserBlock input result) qi =
        (replayedSelection result.answers choice.1).getD [] ∧
      AskUserBlock.customInputOf (buildAnsweredAskUserBlock input result) qi =
        replayedCustomInput result.answers choice.1 := by
  have hat {β : Type} (f : Question → Option β) : (((card.map (·.1)).map f)[qi]?).join = f choice.1 := by
    rw [List.getElem?_map, List.getElem?_map, hchoice]
    rfl
  have hmem : choice.1 ∈ card.map (·.1) := List.mem_map_of_mem (List.mem_of_getElem? hchoice)
  unfold buildAnsweredAskUserBlock
  rw [hquestions, Option.getD_some, if_neg hanswers, if_neg fun h => h.elim (List.ne_nil_of_mem hmem) hanswers]
  dsimp only
  split
  · rename_i hnone
    rw [hnone.1 _ (List.mem_map_of_mem hmem), hnone.2 _ (List.mem_map_of_mem hmem)]
    exact ⟨rfl, rfl⟩
  · exact ⟨congrArg (fun s : Option (List Nat) => s.getD []) (hat _), hat _⟩

/-- The answers of a card as they were given come back exactly if none is a free text, every option that was
selected has a label, and no label of another option is found in its answer. -/
theorem replayed_iff (hquestions : (input.orElse fun _ => result.questions) = some (card.map (·.1)))
    (hstored : ∀ choice ∈ card,
      getValue result.answers choice.1.question = some (webRow customPrefix choice).value) :
    Replayed card (buildAnsweredAskUserBlock input result) ↔
      ∀ choice ∈ card, choice.2.Clear (webRow customPrefix choice).value := by
  have hanswers {choice : (q : Question) × WebChoice q} (hmem : choice ∈ card) : result.answers ≠ [] := by
    intro hnil
    have hvalue := hstored choice hmem
    rw [hnil] at hvalue
    cases hvalue
  constructor
  · intro h choice hmem
    obtain ⟨qi, hqi⟩ := List.mem_iff_getElem?.mp hmem
    have hshown := h qi choice hqi
    obtain ⟨hselection, hcustom⟩ := shown_buildAnsweredAskUserBlock hquestions (hanswers hmem) hqi
    rw [hselection, hcustom] at hshown
    exact (replayed_question_iff customPrefix (hstored choice hmem)).mp hshown
  · intro h qi choice hqi
    have hmem := List.mem_of_getElem? hqi
    obtain ⟨hselection, hcustom⟩ := shown_buildAnsweredAskUserBlock hquestions (hanswers hmem) hqi
    rw [hselection, hcustom]
    exact (replayed_question_iff customPrefix (hstored choice hmem)).mpr (h choice hmem)

end Card

/-- `t('askUser.customPrefix')` of `en.json` -/
def customPrefixEn : Text := "Custom:".toList

def answeredResult (card : List ((q : Question) × WebChoice q)) : ToolResult where
  questions := some (card.map (·.1))
  answers := card.map fun choice => (choice.1.question, (webRow customPrefixEn choice).value)

def formatQuestion : Question where
  question := "Which formats?".toList
  header := "Format".toList
  multiSelect := true
  options := [.record "JSON".toList "one file".toList, .record "CSV".toList [], .record "XML".toList []]

def twoFormats : List ((q : Question) × WebChoice q) := [⟨formatQuestion, { selected := [⟨2, by decide⟩, ⟨0, by decide⟩] }⟩]

theorem replayed_twoFormats : Replayed twoFormats (buildAnsweredAskUserBlock none (answeredResult twoFormats)) := by
  refine (replayed_iff customPrefixEn rfl ?_).mpr ?_
  · decide +kernel
  · intro choice hmem
    rw [List.mem_singleton.mp hmem]
    exact ⟨by decide +kernel, by decide +kernel, by decide +kernel⟩

def confirmQuestion : Question where
  question := "Delete the branch?".toList
  options := [.record "Yes".toList [], .record "Yes, and its tag".toList []]

def longerLabel : List ((q : Question) × WebChoice q) := [⟨confirmQuestion, { selected := [⟨1, by decide⟩] }⟩]

def typedText : List ((q : Question) × WebChoice q) :=
  [⟨confirmQuestion, { custom := { enabled := true, text := "ask me later".toList } }⟩]

theorem not_replayed : ¬ Replayed longerLabel (buildAnsweredAskUserBlock none (answeredResult longerLabel)) ∧
      ¬ Replayed typedText (buildAnsweredAskUserBlock none (answeredResult typedText)) := by
  constructor
  · intro hreplayed
    exact absurd (hreplayed 0 _ rfl) (by decide +kernel)
  · intro hreplayed
    exact absurd (hreplayed 0 _ rfl) (by decide +kernel)

end PrivaCloud.AskUser
