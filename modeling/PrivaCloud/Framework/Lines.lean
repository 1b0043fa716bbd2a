import Mathlib.Data.List.DropRight
import Mathlib.Tactic.Common

/-!
# Texts of lines

Lists of characters cut at the line breaks, stripped of outer white space and read line by line by a
reader that ignores outer white space. Nothing here names a particular program.
-/

namespace PrivaCloud.Framework

abbrev Text := List Char

/-- The lines of a text; there is always one more than there are line breaks. -/
def splitLines : Text → List Text
  | [] => [[]]
  | c :: cs =>
    if c = '\n' then [] :: splitLines cs
    else
      match splitLines cs with
      | [] => [[c]]
      | line :: lines => (c :: line) :: lines

def joinLines : List Text → Text
  | [] => []
  | [line] => line
  | line :: line' :: lines => line ++ '\n' :: joinLines (line' :: lines)

theorem splitLines_ne_nil (text : Text) : splitLines text ≠ [] := by
  cases text with
  | nil => simp [splitLines]
  | cons c cs =>
    unfold splitLines
    split
    · simp
    · split <;> simp

theorem splitLines_append_break (text rest : Text) :
    splitLines (text ++ '\n' :: rest) = splitLines text ++ splitLines rest := by
  induction text with
  | nil => simp [splitLines]
  | cons c cs ih =>
    rw [List.cons_append, splitLines, splitLines, ih]
    split
    · rfl
    · cases hcs : splitLines cs with
      | nil => exact absurd hcs (splitLines_ne_nil cs)
      | cons line lines => rfl

variable {text : Text}

theorem splitLines_of_notMem (h : '\n' ∉ text) : splitLines text = [text] := by
  induction text with
  | nil => rfl
  | cons c text ih =>
    obtain ⟨hc, htext⟩ : '\n' ≠ c ∧ '\n' ∉ text := by simpa using h
    rw [splitLines, if_neg (Ne.symm hc), ih htext]

theorem notMem_of_mem_splitLines {line : Text} (h : line ∈ splitLines text) : '\n' ∉ line := by
  induction text generalizing line with
  | nil =>
    cases List.mem_singleton.mp h
    exact List.not_mem_nil
  | cons c text ih =>
    rw [splitLines] at h
    split at h
    · rcases List.mem_cons.mp h with rfl | h
      · exact List.not_mem_nil
      · exact ih h
    · rename_i hc
      cases hlines : splitLines text with
      | nil => exact absurd hlines (splitLines_ne_nil text)
      | cons first lines =>
        simp only [hlines] at h ih
        rcases List.mem_cons.mp h with rfl | h
        · simpa using And.intro (Ne.symm hc) (ih List.mem_cons_self)
        · exact ih (List.mem_cons_of_mem _ h)

variable {c : Char}

theorem splitLines_append_char (hc : c ≠ '\n') (text : Text) :
    ∃ lines line, splitLines text = lines ++ [line] ∧ splitLines (text ++ [c]) = lines ++ [line ++ [c]] := by
  induction text with
  | nil => exact ⟨[], [], rfl, by simp [splitLines, hc]⟩
  | cons d text ih =>
    obtain ⟨lines, line, htext, happend⟩ := ih
    rw [List.cons_append, splitLines, splitLines, htext, happend]
    split
    · exact ⟨[] :: lines, line, rfl, rfl⟩
    · cases lines with
      | nil => exact ⟨[], d :: line, rfl, rfl⟩
      | cons first lines => exact ⟨(d :: first) :: lines, line, rfl, rfl⟩

theorem splitLines_joinLines {texts : List Text} (hne : texts ≠ []) :
    splitLines (joinLines texts) = texts.flatMap splitLines := by
  induction texts with
  | nil => exact absurd rfl hne
  | cons text texts ih =>
    cases texts with
    | nil => simp [joinLines]
    | cons text' texts =>
      rw [joinLines, splitLines_append_break, ih (by simp)]
      rfl

section Strip

variable (space : Char → Bool)

def strip (text : Text) : Text := (text.dropWhile space).rdropWhile space

variable {space} {α : Type*} {read : Text → Option α}

theorem strip_cons_space (hc : space c = true) (text : Text) :
    strip space (c :: text) = strip space text := by
  rw [strip, List.dropWhile_cons_of_pos hc, strip]

theorem strip_append_space (hc : space c = true) (text : Text) :
    strip space (text ++ [c]) = strip space text := by
  unfold strip
  by_cases hall : ∀ d ∈ text, space d = true
  · have hnil : ∀ l : Text, (∀ d ∈ l, space d = true) → l.dropWhile space = [] := fun l hl =>
    List.dropWhile_eq_nil_iff.mpr hl
    rw [hnil text hall, hnil (text ++ [c])]
    intro d hd
    rcases List.mem_append.mp hd with hd | hd
    · exact hall d hd
    · rw [List.mem_singleton.mp hd]
      exact hc
  · have hsome : text.dropWhile space ≠ [] := fun hnil => hall (List.dropWhile_eq_nil_iff.mp hnil)
    rw [List.dropWhile_append, if_neg (by simpa using hsome), List.rdropWhile_concat_pos _ _ _ hc]

def readLines (read : Text → Option α) (text : Text) : List α := (splitLines text).filterMap read

theorem readLines_joinLines (read : Text → Option α) {texts : List Text} (hne : texts ≠ []) :
    readLines read (joinLines texts) = texts.flatMap (readLines read) := by
  unfold readLines
  rw [splitLines_joinLines hne, List.filterMap_flatMap]

theorem strip_append_spaces {spaces : Text} (hspaces : ∀ c ∈ spaces, space c = true) (text : Text) :
    strip space (text ++ spaces) = strip space text := by
  induction spaces using List.reverseRecOn with
  | nil => rw [List.append_nil]
  | append_singleton spaces c ih =>
    rw [← List.append_assoc, strip_append_space (hspaces c (by simp))]
    exact ih fun d hd => hspaces d (by simp [hd])

theorem length_strip_le (space : Char → Bool) (text : Text) : (strip space text).length ≤ text.length :=
  (List.IsPrefix.length_le (List.rdropWhile_prefix space _)).trans
    (List.IsSuffix.length_le (List.dropWhile_suffix space))

theorem strip_cons_of_not_space (hc : space c = false) (text : Text) :
    strip space (c :: text) = c :: text.rdropWhile space := by
  rw [strip, List.dropWhile_cons_of_neg (by simp [hc])]
  induction text using List.reverseRecOn with
  | nil => simp [hc]
  | append_singleton text d ih =>
    rw [← List.cons_append]
    by_cases hd : space d = true
    · rw [List.rdropWhile_concat_pos _ _ _ hd, List.rdropWhile_concat_pos _ _ _ hd, ih]
    · rw [List.rdropWhile_concat_neg _ _ _ hd, List.rdropWhile_concat_neg _ _ _ hd, List.cons_append]

theorem strip_eq_nil_iff : strip space text = [] ↔ ∀ c ∈ text, space c = true := by
  induction text with
  | nil => simp [strip]
  | cons c text ih =>
    cases hc : space c with
    | true => simp [strip_cons_space hc, ih, hc]
    | false => simp [strip_cons_of_not_space hc, hc]

@[simp] theorem strip_strip (text : Text) : strip space (strip space text) = strip space text := by
  induction text with
  | nil => rfl
  | cons c text ih =>
    cases hc : space c with
    | true => rw [strip_cons_space hc, ih]
    | false =>
      rw [strip_cons_of_not_space hc, strip_cons_of_not_space hc, List.rdropWhile_idempotent]

theorem rdropWhile_append_of_strip {rest : Text} (hrest : strip space rest ≠ []) (text : Text) :
    (text ++ rest).rdropWhile space = text ++ rest.rdropWhile space := by
  induction rest using List.reverseRecOn with
  | nil => exact absurd rfl hrest
  | append_singleton rest c ih =>
    rw [← List.append_assoc]
    by_cases hc : space c = true
    · rw [strip_append_space hc] at hrest
      rw [List.rdropWhile_concat_pos _ _ _ hc, List.rdropWhile_concat_pos _ _ _ hc, ih hrest]
    · rw [List.rdropWhile_concat_neg _ _ _ hc, List.rdropWhile_concat_neg _ _ _ hc, List.append_assoc]

theorem strip_sublist (space : Char → Bool) (text : Text) : (strip space text).Sublist text :=
  (List.IsPrefix.sublist (List.rdropWhile_prefix space _)).trans
    (List.IsSuffix.sublist (List.dropWhile_suffix space))

theorem strip_eq_self_of_length (h : text.length ≤ (strip space text).length) :
    strip space text = text := (strip_sublist space text).eq_of_length_le h

theorem not_space_of_strip_eq (h : strip space (c :: text) = c :: text) :
    space c = false := by
  cases hc : space c with
  | false => rfl
  | true =>
    have hlen := length_strip_le space text
    rw [← strip_cons_space hc, h, List.length_cons] at hlen
    omega

theorem strip_eq_rdropWhile (hc : space c = false) (text : Text) :
    strip space (c :: text) = (c :: text).rdropWhile space := by
  rw [strip, List.dropWhile_cons_of_neg (by simp [hc])]

theorem rdropWhile_cons_of_not_space (hc : space c = false) (text : Text) :
    (c :: text).rdropWhile space = c :: text.rdropWhile space := by
  rw [← strip_eq_rdropWhile hc, strip_cons_of_not_space hc]

theorem rdropWhile_eq_self_of_strip_eq (h : strip space text = text) :
    text.rdropWhile space = text := by
  cases text with
  | nil => rfl
  | cons c text => rw [← strip_eq_rdropWhile (not_space_of_strip_eq h), h]

theorem strip_append_cons (hne : text ≠ []) (htext : strip space text = text)
    (hc : space c = false) (rest : Text) :
    strip space (text ++ c :: rest) = text ++ c :: rest.rdropWhile space := by
  cases text with
  | nil => exact absurd rfl hne
  | cons d text =>
    have hrest : strip space (c :: rest) ≠ [] := by
      rw [strip_cons_of_not_space hc]
      exact List.cons_ne_nil _ _
    rw [List.cons_append, strip_cons_of_not_space (not_space_of_strip_eq htext),
      rdropWhile_append_of_strip hrest, rdropWhile_cons_of_not_space hc, List.cons_append]

/-- What comes before a stripped text loses only its front. -/
theorem strip_append_of_strip_eq {rest : Text} (hne : rest ≠ []) (hrest : strip space rest = rest)
    (text : Text) : strip space (text ++ rest) = text.dropWhile space ++ rest := by
  have hdrop : (text ++ rest).dropWhile space = text.dropWhile space ++ rest := by
    induction text with
    | nil =>
      cases rest with
      | nil => rfl
      | cons c rest => exact List.dropWhile_cons_of_neg (by simp [not_space_of_strip_eq hrest])
    | cons c text ih =>
      cases hc : space c with
      | true => rw [List.cons_append, List.dropWhile_cons_of_pos hc, List.dropWhile_cons_of_pos hc, ih]
      | false =>
        have hneg : ¬space c = true := by simp [hc]
        rw [List.cons_append, List.dropWhile_cons_of_neg hneg, List.dropWhile_cons_of_neg hneg,
          List.cons_append]
  have hstay : strip space rest ≠ [] := by rwa [hrest]
  rw [strip, hdrop, rdropWhile_append_of_strip hstay, rdropWhile_eq_self_of_strip_eq hrest]

theorem strip_dropWhile (text : Text) : strip space (text.dropWhile space) = strip space text := by
  rw [strip, List.dropWhile_idempotent, strip]

theorem strip_rdropWhile (text : Text) : strip space (text.rdropWhile space) = strip space text := by
  induction text using List.reverseRecOn with
  | nil => rfl
  | append_singleton text c ih =>
    by_cases hc : space c = true
    · rw [List.rdropWhile_concat_pos _ _ _ hc, ih, strip_append_space hc]
    · rw [List.rdropWhile_concat_neg _ _ _ hc]

/-- A text that is not blank keeps what stands before it from the end, and one that stands behind it from the front. -/
theorem strip_append_append {rest : Text} (htext : strip space text ≠ []) (hrest : strip space rest ≠ [])
    (mid : Text) :
    strip space (text ++ mid ++ rest) = text.dropWhile space ++ mid ++ rest.rdropWhile space := by
  have hdrop : text.dropWhile space ≠ [] := by
    intro hnil
    rw [← strip_dropWhile, hnil] at htext
    exact htext rfl
  have hempty : (text.dropWhile space).isEmpty = false := by simpa using hdrop
  rw [strip, List.append_assoc, List.dropWhile_append, hempty, if_neg Bool.false_ne_true, ← List.append_assoc,
    rdropWhile_append_of_strip hrest]

theorem strip_eq_self_of_not_space (h : ∀ c ∈ text, space c = false) :
    strip space text = text := by
  have hdrop : ∀ l : Text, (∀ c ∈ l, space c = false) → l.dropWhile space = l := by
    intro l hl
    cases l with
    | nil => rfl
    | cons c l => exact List.dropWhile_cons_of_neg (by simp [hl c List.mem_cons_self])
  rw [strip, hdrop text h, List.rdropWhile, hdrop _ fun c hc => h c (List.mem_reverse.mp hc),
    List.reverse_reverse]

theorem count_strip (hc : space c = false) (text : Text) :
    (strip space text).count c = text.count c := by
  have hdrop : ∀ l : Text, (l.dropWhile space).count c = l.count c := by
    intro l
    induction l with
    | nil => rfl
    | cons d l ih =>
      by_cases hd : space d = true
      · have hcd : d ≠ c := fun h => by rw [h, hc] at hd; cases hd
        rw [List.dropWhile_cons_of_pos hd, ih, List.count_cons_of_ne hcd]
      · rw [List.dropWhile_cons_of_neg hd]
  rw [strip, List.rdropWhile, List.count_reverse, hdrop, List.count_reverse, hdrop]

section Reader

variable (hstrip : ∀ line, read (strip space line) = read line) (hnil : read [] = none)

include hstrip

theorem read_cons_space (hc : space c = true) (line : Text) : read (c :: line) = read line := by
  rw [← hstrip, strip_cons_space hc, hstrip]

theorem read_append_space (hc : space c = true) (line : Text) : read (line ++ [c]) = read line := by
  rw [← hstrip, strip_append_space hc, hstrip]

include hnil

theorem readLines_cons_space (hc : space c = true) (text : Text) :
    readLines read (c :: text) = readLines read text := by
  unfold readLines
  rw [splitLines]
  split
  · rw [List.filterMap_cons_none hnil]
  · cases htext : splitLines text with
    | nil => exact absurd htext (splitLines_ne_nil text)
    | cons line lines => simp only [List.filterMap_cons, read_cons_space hstrip hc]

theorem readLines_append_space (hc : space c = true) (text : Text) :
    readLines read (text ++ [c]) = readLines read text := by
  by_cases hcb : c = '\n'
  · rw [hcb]
    unfold readLines
    rw [splitLines_append_break, List.filterMap_append]
    simp [splitLines, hnil]
  · obtain ⟨lines, line, htext, happend⟩ := splitLines_append_char hcb text
    unfold readLines
    rw [htext, happend, List.filterMap_append, List.filterMap_append]
    simp only [List.filterMap_cons, read_append_space hstrip hc]

theorem readLines_rdropWhile (text : Text) : readLines read (text.rdropWhile space) = readLines read text := by
  induction text using List.reverseRecOn with
  | nil => rfl
  | append_singleton text c ih =>
    by_cases hc : space c = true
    · rw [List.rdropWhile_concat_pos _ _ _ hc, ih, readLines_append_space hstrip hnil hc]
    · rw [List.rdropWhile_concat_neg _ _ _ hc]

theorem readLines_strip (text : Text) : readLines read (strip space text) = readLines read text := by
  have hdrop : ∀ l : Text, readLines read (l.dropWhile space) = readLines read l := by
    intro l
    induction l with
    | nil => rfl
    | cons c l ih =>
      by_cases hc : space c = true
      · rw [List.dropWhile_cons_of_pos hc, ih, readLines_cons_space hstrip hnil hc]
      · rw [List.dropWhile_cons_of_neg hc]
  rw [strip, readLines_rdropWhile hstrip hnil, hdrop]

end Reader

end Strip

end PrivaCloud.Framework
