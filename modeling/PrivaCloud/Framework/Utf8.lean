import Mathlib.Data.List.DropRight
import Mathlib.Tactic.Common
import Mathlib.Tactic.Ring

/-!
# Bytes and texts

UTF-8, decoded byte by byte into code points, and lists cut at separators and stripped at their ends. ASCII bytes
are never part of a longer sequence, so cutting and stripping at them commute with decoding. Nothing here names a
particular program.
-/

namespace PrivaCloud.Framework

section Lists

variable {α : Type} {sep : α → Bool}

/-- The parts of a list between the separators; there is always one more than there are separators. -/
def splitBy (sep : α → Bool) : List α → List (List α)
  | [] => [[]]
  | a :: as =>
    if sep a then [] :: splitBy sep as
    else
      match splitBy sep as with
      | [] => [[a]]
      | part :: parts => (a :: part) :: parts

def stripBy (space : α → Bool) (l : List α) : List α := (l.dropWhile space).rdropWhile space

theorem splitBy_ne_nil (sep : α → Bool) (l : List α) : splitBy sep l ≠ [] := by
  cases l with
  | nil => simp [splitBy]
  | cons a as =>
    unfold splitBy
    split
    · simp
    · split <;> simp

theorem exists_splitBy (sep : α → Bool) (l : List α) : ∃ part parts, splitBy sep l = part :: parts := by
  cases h : splitBy sep l with
  | nil => exact absurd h (splitBy_ne_nil sep l)
  | cons part parts => exact ⟨part, parts, rfl⟩

theorem splitBy_cons_sep {a : α} (ha : sep a = true) (l : List α) :
    splitBy sep (a :: l) = [] :: splitBy sep l := by
  rw [splitBy, if_pos ha]

variable {l part : List α}

theorem splitBy_cons {a : α} (ha : sep a = false) {parts : List (List α)}
    (hl : splitBy sep l = part :: parts) : splitBy sep (a :: l) = (a :: part) :: parts := by
  rw [splitBy, if_neg (by simp [ha]), hl]

theorem of_mem_splitBy (h : part ∈ splitBy sep l) : ∀ a ∈ part, a ∈ l ∧ sep a = false := by
  induction l generalizing part with
  | nil =>
    obtain rfl : part = [] := by simpa [splitBy] using h
    simp
  | cons b l ih =>
    obtain ⟨first, rest, hl⟩ := exists_splitBy sep l
    cases hb : sep b with
    | true =>
      rw [splitBy_cons_sep hb, List.mem_cons] at h
      rcases h with rfl | h
      · simp
      · exact fun a ha => ⟨List.mem_cons_of_mem _ (ih h a ha).1, (ih h a ha).2⟩
    | false =>
      rw [splitBy_cons hb hl, List.mem_cons] at h
      grind

theorem notMem_of_splitBy {parts : List (List α)}
    (hl : splitBy sep l = part :: parts) : ∀ a ∈ part, sep a = false :=
  fun a ha => (of_mem_splitBy (show part ∈ splitBy sep l by rw [hl]; exact List.mem_cons_self) a ha).2

theorem splitBy_of_notMem (h : ∀ a ∈ l, sep a = false) : splitBy sep l = [l] := by
  induction l with
  | nil => rfl
  | cons a l ih =>
    exact splitBy_cons (h a List.mem_cons_self) (ih fun b hb => h b (List.mem_cons_of_mem _ hb))

theorem splitBy_eq_singleton (h : splitBy sep l = [part]) : ∀ a ∈ l, sep a = false := by
  induction l generalizing part with
  | nil => simp
  | cons a l ih =>
    obtain ⟨first, rest, hl⟩ := exists_splitBy sep l
    cases ha : sep a with
    | true =>
      rw [splitBy_cons_sep ha, hl] at h
      cases h
    | false =>
      rw [splitBy_cons ha hl] at h
      obtain ⟨-, rfl⟩ := List.cons.inj h
      exact List.forall_mem_cons.mpr ⟨ha, ih hl⟩

theorem splitBy_append (front : List α) {parts : List (List α)}
    (hl : splitBy sep l = part :: parts) : splitBy sep (front ++ l) = splitBy sep (front ++ part) ++ parts := by
  induction front with
  | nil =>
    rw [List.nil_append, List.nil_append, hl, splitBy_of_notMem (notMem_of_splitBy hl)]
    rfl
  | cons a front ih =>
    rw [List.cons_append, List.cons_append]
    cases ha : sep a with
    | true => rw [splitBy_cons_sep ha, splitBy_cons_sep ha, ih, List.cons_append]
    | false =>
      obtain ⟨first, rest, hfront⟩ := exists_splitBy sep (front ++ part)
      rw [hfront, List.cons_append] at ih
      rw [splitBy_cons ha hfront, splitBy_cons ha ih, List.cons_append]

theorem exists_splitBy_concat (sep : α → Bool) (l : List α) :
    ∃ front last, splitBy sep l = front ++ [last] ∧ ∀ a ∈ last, sep a = false := by
  rcases List.eq_nil_or_concat (splitBy sep l) with h | ⟨front, last, h⟩
  · exact absurd h (splitBy_ne_nil sep l)
  · rw [List.concat_eq_append] at h
    exact ⟨front, last, h, fun a ha => (of_mem_splitBy (show last ∈ splitBy sep l by rw [h]; simp) a ha).2⟩

theorem splitBy_append_last {last : List α} {front : List (List α)}
    (hl : splitBy sep l = front ++ [last]) {m : List α} (hm : ∀ a ∈ m, sep a = false) :
    splitBy sep (l ++ m) = front ++ [last ++ m] := by
  induction l generalizing front last with
  | nil =>
    obtain ⟨rfl, rfl⟩ : front = [] ∧ last = [] := by
      cases front with
      | nil => exact ⟨rfl, (List.singleton_injective hl).symm⟩
      | cons part front => cases front <;> cases hl
    rw [List.nil_append, splitBy_of_notMem hm]
    rfl
  | cons a l ih =>
    cases ha : sep a with
    | true =>
      rw [splitBy_cons_sep ha] at hl
      cases front with
      | nil =>
        have hrest : splitBy sep l = [] := (List.cons.inj hl).2
        exact absurd hrest (splitBy_ne_nil sep l)
      | cons part front =>
        obtain ⟨rfl, hrest⟩ := List.cons.inj hl
        rw [List.cons_append, splitBy_cons_sep ha, ih hrest]
        rfl
    | false =>
      obtain ⟨first, rest, hfirst⟩ := exists_splitBy sep l
      rw [splitBy_cons ha hfirst] at hl
      cases front with
      | nil =>
        obtain ⟨rfl, rfl⟩ := List.cons.inj hl
        have hone : splitBy sep l = [] ++ [first] := hfirst
        rw [List.cons_append, splitBy_cons ha (ih hone)]
        rfl
      | cons part front =>
        obtain ⟨rfl, rfl⟩ := List.cons.inj hl
        have hmore : splitBy sep l = (first :: front) ++ [last] := hfirst
        rw [List.cons_append, splitBy_cons ha (ih hmore)]
        rfl

theorem splitBy_append_sep {a : α} (ha : sep a = true) (l : List α) :
    splitBy sep (l ++ [a]) = splitBy sep l ++ [[]] := by
  have hempty := splitBy_cons_sep ha ([] : List α)
  rw [splitBy_append l hempty, List.append_nil]
  rfl

theorem splitBy_flatMap {a : α} (ha : sep a = true) {lines : List (List α)}
    (hlines : ∀ line ∈ lines, ∀ b ∈ line, sep b = false) :
    splitBy sep (lines.flatMap (· ++ [a])) = lines ++ [[]] := by
  induction lines with
  | nil => rfl
  | cons line lines ih =>
    have ih := ih fun line' hline => hlines line' (List.mem_cons_of_mem _ hline)
    have hsep := splitBy_cons_sep ha (lines.flatMap (· ++ [a]))
    rw [List.flatMap_cons, List.append_assoc, List.singleton_append, splitBy_append line hsep, List.append_nil,
      splitBy_of_notMem (hlines line List.mem_cons_self), ih]
    rfl

theorem splitBy_or (sep sep' : α → Bool) (l : List α) :
    splitBy (fun a => sep a || sep' a) l = (splitBy sep l).flatMap (splitBy sep') := by
  induction l with
  | nil => rfl
  | cons a l ih =>
    obtain ⟨first, rest, hl⟩ := exists_splitBy sep l
    rw [hl, List.flatMap_cons] at ih
    cases ha : sep a with
    | true =>
      rw [splitBy_cons_sep (by simp [ha]), splitBy_cons_sep ha, ih, hl]
      rfl
    | false =>
      rw [splitBy_cons ha hl, List.flatMap_cons]
      cases ha' : sep' a with
      | true => rw [splitBy_cons_sep (by simp [ha']), splitBy_cons_sep ha', ih, List.cons_append]
      | false =>
        obtain ⟨part, parts, hfirst⟩ := exists_splitBy sep' first
        rw [hfirst, List.cons_append] at ih
        rw [splitBy_cons (by simp [ha, ha']) ih, splitBy_cons ha' hfirst, List.cons_append]

theorem stripBy_cons {space : α → Bool} {a : α} (ha : space a = true) (l : List α) :
    stripBy space (a :: l) = stripBy space l := by
  rw [stripBy, List.dropWhile_cons_of_pos ha, stripBy]

theorem stripBy_append {space : α → Bool} {a : α} (ha : space a = true) (l : List α) :
    stripBy space (l ++ [a]) = stripBy space l := by
  unfold stripBy
  rw [List.dropWhile_append]
  split
  · rename_i hempty
    rw [List.isEmpty_iff.mp hempty, List.dropWhile_cons_of_pos ha, List.dropWhile_nil]
  · rw [List.rdropWhile_concat_pos _ _ _ ha]

theorem stripBy_eq_nil {space : α → Bool} : stripBy space l = [] ↔ ∀ a ∈ l, space a = true := by
  rw [stripBy, List.rdropWhile_eq_nil_iff]
  constructor
  · intro h a ha
    rcases List.mem_append.mp (by rw [List.takeWhile_append_dropWhile]; exact ha :
      a ∈ l.takeWhile space ++ l.dropWhile space) with ha | ha
    · exact List.mem_takeWhile_imp ha
    · exact h a ha
  · exact fun h a ha => h a ((List.dropWhile_sublist _).subset ha)

theorem stripBy_append_solid {space : α → Bool} {a b : α} (ha : space a = false) (hb : space b = false)
    (front : List α) : stripBy space (front ++ a :: (l ++ [b])) = front.dropWhile space ++ a :: (l ++ [b]) := by
  have hsolid : ∀ front : List α, (front ++ a :: (l ++ [b])).rdropWhile space = front ++ a :: (l ++ [b]) := by
    simp_all
  rw [stripBy, List.dropWhile_append]
  split
  · rename_i hempty
    rw [List.isEmpty_iff.mp hempty, List.dropWhile_cons_of_neg (by simp [ha])]
    exact hsolid []
  · exact hsolid _

section Reader

variable {β : Type} {sep space : α → Bool} {read : List α → Option β} (hnil : read [] = none)
  (hfront : ∀ a l, space a = true → read (a :: l) = read l)
  (hback : ∀ a l, space a = true → read (l ++ [a]) = read l)

include hnil hfront in
theorem filterMap_splitBy_cons {a : α} (ha : space a = true) (l : List α) :
    (splitBy sep (a :: l)).filterMap read = (splitBy sep l).filterMap read := by
  obtain ⟨part, parts, hl⟩ := exists_splitBy sep l
  cases hsep : sep a with
  | true => rw [splitBy_cons_sep hsep, List.filterMap_cons_none hnil]
  | false =>
    rw [splitBy_cons hsep hl, hl]
    simp only [List.filterMap_cons, hfront a part ha]

include hnil hback in
theorem filterMap_splitBy_append {a : α} (ha : space a = true) (l : List α) :
    (splitBy sep (l ++ [a])).filterMap read = (splitBy sep l).filterMap read := by
  obtain ⟨front, last, hl, -⟩ := exists_splitBy_concat sep l
  cases hsep : sep a with
  | true =>
    rw [splitBy_append_sep hsep, List.filterMap_append]
    simp [hnil]
  | false =>
    rw [splitBy_append_last hl (m := [a]) (by simpa using hsep), hl, List.filterMap_append,
      List.filterMap_append]
    simp only [List.filterMap_cons, hback a last ha]

include hnil hfront hback in
/-- A reader that does not see outer white space finds in the parts of a list what it finds in the parts
of the stripped list. -/
theorem filterMap_splitBy_stripBy (l : List α) :
    (splitBy sep (stripBy space l)).filterMap read = (splitBy sep l).filterMap read := by
  have hdrop : ∀ l : List α, (splitBy sep (l.dropWhile space)).filterMap read =
      (splitBy sep l).filterMap read := by
    intro l
    induction l with
    | nil => rfl
    | cons a l ih =>
      by_cases ha : space a = true
      · rw [List.dropWhile_cons_of_pos ha, ih, filterMap_splitBy_cons hnil hfront ha]
      · rw [List.dropWhile_cons_of_neg ha]
  have hrdrop : ∀ l : List α, (splitBy sep (l.rdropWhile space)).filterMap read =
      (splitBy sep l).filterMap read := by
    intro l
    induction l using List.reverseRecOn with
    | nil => rfl
    | append_singleton l a ih =>
      by_cases ha : space a = true
      · rw [List.rdropWhile_concat_pos _ _ _ ha, ih, filterMap_splitBy_append hnil hback ha]
      · rw [List.rdropWhile_concat_neg _ _ _ ha]
  rw [stripBy, hrdrop, hdrop]

end Reader

end Lists

namespace Utf8

/-- Between characters, or inside one: the bytes that it still needs, the value so far and the range of
the next byte. -/
inductive State
  | start
  | tail (more : Nat) (value low high : Nat)
  deriving DecidableEq

/-- The first byte of a character; `surrogates` may be let pass. -/
def first (surrogates : Bool) (b : Nat) : Option State :=
  if 0xc2 ≤ b ∧ b ≤ 0xdf then some (.tail 0 (b - 0xc0) 0x80 0xbf)
  else if b = 0xe0 then some (.tail 1 0 0xa0 0xbf)
  else if b = 0xed ∧ surrogates = false then some (.tail 1 0xd 0x80 0x9f)
  else if 0xe1 ≤ b ∧ b ≤ 0xef then some (.tail 1 (b - 0xe0) 0x80 0xbf)
  else if b = 0xf0 then some (.tail 2 0 0x90 0xbf)
  else if 0xf1 ≤ b ∧ b ≤ 0xf3 then some (.tail 2 (b - 0xf0) 0x80 0xbf)
  else if b = 0xf4 then some (.tail 2 4 0x80 0x8f)
  else none

/-- The code point that a byte completes, if any, and the state after it. -/
def step (surrogates : Bool) (b : Nat) : State → Option (List Nat × State)
  | .start => if b < 0x80 then some ([b], .start) else (first surrogates b).map fun state => ([], state)
  | .tail more value low high =>
    if low ≤ b ∧ b ≤ high then
      match more with
      | 0 => some ([value * 64 + (b - 0x80)], .start)
      | more + 1 => some ([], .tail more (value * 64 + (b - 0x80)) 0x80 0xbf)
    else none

/-- The code points of a byte string up to its first error, and whether there is none. -/
def decodeFrom (surrogates : Bool) : State → List UInt8 → List Nat × Bool
  | state, [] => ([], state = .start)
  | state, b :: bs =>
    match step surrogates b.toNat state with
    | some (out, state) => (out ++ (decodeFrom surrogates state bs).1, (decodeFrom surrogates state bs).2)
    | none => ([], false)

def decode (surrogates : Bool) (bytes : List UInt8) : Option (List Nat) :=
  if (decodeFrom surrogates .start bytes).2 then some (decodeFrom surrogates .start bytes).1 else none

/-- The next byte is no ASCII byte, and neither is the character that it belongs to. -/
def State.Open : State → Prop
  | .start => True
  | .tail more value low _ => 0x80 ≤ low ∧ 0x80 ≤ (value * 64 + (low - 0x80)) * 64 ^ more

variable {b cp high low n value : Nat} {surrogates : Bool} {state : State}

theorem first_open (h : first surrogates b = some state) : state.Open := by
  unfold first at h
  split at h
  · cases h
    exact ⟨le_refl _, by omega⟩
  split at h
  · cases h
    exact ⟨by omega, by omega⟩
  split at h
  · cases h
    exact ⟨le_refl _, by omega⟩
  split at h
  · cases h
    exact ⟨le_refl _, by omega⟩
  split at h
  · cases h
    exact ⟨by omega, by omega⟩
  split at h
  · cases h
    exact ⟨le_refl _, by omega⟩
  split at h <;> cases h
  exact ⟨le_refl _, by omega⟩

variable {next : State} {out : List Nat} {bytes : List UInt8} {text : List Nat}

/-- A byte that is read in an open state leaves one; what it completes inside a character is not ASCII. -/
theorem step_open (hopen : state.Open) (h : step surrogates b state = some (out, next)) :
    next.Open ∧ ((state = .start ∧ b < 0x80 ∧ out = [b] ∧ next = .start) ∨
      (0x80 ≤ b ∧ ∀ c ∈ out, 0x80 ≤ c) ∧ (next = .start → out ≠ [])) := by
  cases state with
  | start =>
    simp only [step] at h
    split at h
    · cases h
      exact ⟨trivial, .inl ⟨rfl, ‹_›, rfl, rfl⟩⟩
    · obtain ⟨state, hfirst, hstate⟩ := Option.map_eq_some_iff.mp h
      cases hstate
      refine ⟨first_open hfirst, .inr ⟨⟨by omega, by simp⟩, ?_⟩⟩
      rintro rfl
      unfold first at hfirst
      repeat' split at hfirst
      all_goals cases hfirst
  | tail more value low high =>
    obtain ⟨hlow, hvalue⟩ := hopen
    simp only [step] at h
    split at h
    · rename_i hb
      have hnext : 0x80 ≤ (value * 64 + (b - 0x80)) * 64 ^ more :=
        hvalue.trans (Nat.mul_le_mul_right _ (by omega))
      split at h
      · cases h
        rw [Nat.pow_zero, Nat.mul_one] at hnext
        exact ⟨trivial, .inr ⟨⟨by omega, by simpa using hnext⟩, by simp⟩⟩
      · rename_i more
        cases h
        refine ⟨⟨le_refl _, ?_⟩, .inr ⟨⟨by omega, by simp⟩, by simp⟩⟩
        calc 0x80 ≤ (value * 64 + (b - 0x80)) * 64 ^ (more + 1) := hnext
          _ = ((value * 64 + (b - 0x80)) * 64 + (0x80 - 0x80)) * 64 ^ more := by rw [Nat.pow_succ]; ring
    · cases h

section Ascii

variable {surrogates : Bool} {state : State} {bytes rest : List UInt8} {text : List Nat} {c : UInt8}

theorem decodeFrom_append (hc : c.toNat < 0x80) (hopen : state.Open)
    (h : decodeFrom surrogates state (bytes ++ c :: rest) = (text, true)) :
    ∃ before after, decodeFrom surrogates state bytes = (before, true) ∧
      decodeFrom surrogates .start rest = (after, true) ∧ text = before ++ c.toNat :: after := by
  induction bytes generalizing state text with
  | nil =>
    rw [List.nil_append, decodeFrom] at h
    split at h
    · rename_i out next hstep
      obtain ⟨-, ⟨rfl, -, rfl, rfl⟩ | ⟨⟨hb, -⟩, -⟩⟩ := step_open hopen hstep
      · obtain ⟨rfl, hvalid⟩ := Prod.mk.inj h
        exact ⟨[], _, rfl, Prod.ext rfl hvalid, rfl⟩
      · omega
    · cases h
  | cons b bytes ih =>
    rw [List.cons_append, decodeFrom] at h
    split at h
    · rename_i out next hstep
      obtain ⟨htext, hvalid⟩ := Prod.mk.inj h
      obtain ⟨before, after, hbefore, hafter, hrest⟩ :=
        ih (step_open hopen hstep).1 (Prod.ext rfl hvalid)
      refine ⟨out ++ before, after, ?_, hafter, ?_⟩
      · rw [decodeFrom, hstep]
        simp only [hbefore]
      · rw [← htext]
        exact (congrArg (out ++ ·) hrest).trans (List.append_assoc _ _ _).symm
    · cases h

theorem decode_eq_some : decode surrogates bytes = some text ↔ decodeFrom surrogates .start bytes = (text, true) := by
  unfold decode
  grind

theorem open_start : State.start.Open := trivial

theorem decode_append (hc : c.toNat < 0x80) (h : decode surrogates (bytes ++ c :: rest) = some text) :
    ∃ before after, decode surrogates bytes = some before ∧ decode surrogates rest = some after ∧
      text = before ++ c.toNat :: after := by
  obtain ⟨before, after, hbefore, hafter, htext⟩ :=
    decodeFrom_append hc open_start (decode_eq_some.mp h)
  exact ⟨before, after, decode_eq_some.mpr hbefore, decode_eq_some.mpr hafter, htext⟩

@[simp] theorem decode_nil : decode surrogates [] = some [] := rfl

theorem decode_cons_ascii (hc : c.toNat < 0x80) (h : decode surrogates (c :: rest) = some text) :
    ∃ after, decode surrogates rest = some after ∧ text = c.toNat :: after := by
  have happend : decode surrogates ([] ++ c :: rest) = some text := h
  obtain ⟨before, after, hbefore, hafter, htext⟩ := decode_append hc happend
  cases hbefore
  exact ⟨after, hafter, htext⟩

/-- The other bytes make other characters: the text begins and ends as the bytes do. -/
theorem decodeFrom_head {b : UInt8} (hb : 0x80 ≤ b.toNat) (hopen : state.Open)
    (h : decodeFrom surrogates state (b :: rest) = (text, true)) : ∃ cp after, text = cp :: after ∧ 0x80 ≤ cp := by
  induction rest generalizing b state text with
  | nil =>
    rw [decodeFrom] at h
    split at h
    · rename_i out next hstep
      obtain ⟨htext, hvalid⟩ := Prod.mk.inj h
      obtain ⟨-, ⟨-, hlow, -, -⟩ | ⟨⟨-, hout⟩, hne⟩⟩ := step_open hopen hstep
      · omega
      · have hne := hne (of_decide_eq_true hvalid)
        cases out with
        | nil => exact absurd rfl hne
        | cons cp out => exact ⟨cp, _, htext.symm, hout cp List.mem_cons_self⟩
    · cases h
  | cons b' rest ih =>
    rw [decodeFrom] at h
    split at h
    · rename_i out next hstep
      obtain ⟨htext, hvalid⟩ := Prod.mk.inj h
      obtain ⟨hnext, ⟨-, hlow, -, -⟩ | ⟨⟨-, hout⟩, hne⟩⟩ := step_open hopen hstep
      · omega
      · cases out with
        | cons cp out => exact ⟨cp, _, htext.symm, hout cp List.mem_cons_self⟩
        | nil =>
          have hstate : next ≠ .start := fun hstart => hne hstart rfl
          have hb' : 0x80 ≤ b'.toNat := by
            by_contra hlow
            rw [decodeFrom] at hvalid
            split at hvalid
            · rename_i hstep'
              obtain ⟨-, ⟨hstart, -⟩ | ⟨⟨hhigh, -⟩, -⟩⟩ := step_open hnext hstep'
              · exact hstate hstart
              · exact hlow hhigh
            · cases hvalid
          grind
    · cases h

theorem decodeFrom_last {b : UInt8} (hb : 0x80 ≤ b.toNat) (hopen : state.Open)
    (h : decodeFrom surrogates state (bytes ++ [b]) = (text, true)) :
    ∃ before cp, text = before ++ [cp] ∧ 0x80 ≤ cp := by
  induction bytes generalizing state text with
  | nil =>
    rw [List.nil_append, decodeFrom] at h
    split at h
    · rename_i out next hstep
      obtain ⟨htext, hvalid⟩ := Prod.mk.inj h
      obtain ⟨-, ⟨-, hlow, -, -⟩ | ⟨⟨-, hout⟩, hne⟩⟩ := step_open hopen hstep
      · omega
      · rcases List.eq_nil_or_concat out with rfl | ⟨before, cp, rfl⟩
        · exact absurd rfl (hne (of_decide_eq_true hvalid))
        · refine ⟨before, cp, ?_, hout cp (by simp)⟩
          rw [← htext, List.concat_eq_append]
          exact List.append_nil _
    · cases h
  | cons b' bytes ih =>
    rw [List.cons_append, decodeFrom] at h
    split at h
    · rename_i out next hstep
      obtain ⟨htext, hvalid⟩ := Prod.mk.inj h
      obtain ⟨before, cp, hrest, hcp⟩ := ih (step_open hopen hstep).1 (Prod.ext rfl hvalid)
      grind
    · cases h

end Ascii

theorem step_surrogates
    (h : step false b state = some (out, next)) : ∃ next', step true b state = some (out, next') ∧
      (next' = next ∨ (next = .tail 1 0xd 0x80 0x9f ∧ next' = .tail 1 0xd 0x80 0xbf)) := by
  cases state with
  | start =>
    simp only [step] at h ⊢
    split at h
    · rename_i hb
      cases h
      exact ⟨.start, by rw [if_pos hb], .inl rfl⟩
    · rename_i hb
      rw [if_neg hb]
      obtain ⟨state, hfirst, hstate⟩ := Option.map_eq_some_iff.mp h
      cases hstate
      by_cases hed : b = 0xed
      · subst hed
        cases hfirst
        exact ⟨_, rfl, .inr ⟨rfl, rfl⟩⟩
      · refine ⟨next, ?_, .inl rfl⟩
        have hsame : first true b = first false b := by simp [first, hed]
        rw [hsame, hfirst]
        rfl
  | tail more value low high => exact ⟨next, h, .inl rfl⟩

theorem decodeFrom_surrogates {state state' : State}
    (hstate : state' = state ∨ (state = .tail 1 0xd 0x80 0x9f ∧ state' = .tail 1 0xd 0x80 0xbf))
    (h : decodeFrom false state bytes = (text, true)) : decodeFrom true state' bytes = (text, true) := by
  induction bytes generalizing state state' text with
  | nil =>
    rcases hstate with rfl | ⟨rfl, rfl⟩
    · exact h
    · cases h
  | cons b bytes ih =>
    rw [decodeFrom] at h
    split at h
    · rename_i out next hstep
      obtain ⟨htext, hvalid⟩ := Prod.mk.inj h
      have hstep' : ∃ next', step true b.toNat state' = some (out, next') ∧
          (next' = next ∨ (next = .tail 1 0xd 0x80 0x9f ∧ next' = .tail 1 0xd 0x80 0xbf)) := by
        rcases hstate with rfl | ⟨rfl, rfl⟩
        · exact step_surrogates hstep
        · simp only [step] at hstep ⊢
          grind
      obtain ⟨next', hstep', hnext⟩ := hstep'
      have hrest := ih hnext (Prod.ext rfl hvalid)
      rw [decodeFrom, hstep']
      simp only [hrest, htext]
    · cases h

theorem decode_surrogates (h : decode false bytes = some text) : decode true bytes = some text :=
  decode_eq_some.mpr (decodeFrom_surrogates (.inl rfl) (decode_eq_some.mp h))

theorem decodeFrom_tail {more : Nat}
    (h : decodeFrom surrogates (.tail more value low high) bytes = (text, true)) :
    ∃ b rest, bytes = b :: rest ∧ low ≤ b.toNat ∧ b.toNat ≤ high ∧
      ((more = 0 ∧ ∃ after, text = (value * 64 + (b.toNat - 0x80)) :: after) ∨ ∃ more', more = more' + 1 ∧
          decodeFrom surrogates (.tail more' (value * 64 + (b.toNat - 0x80)) 0x80 0xbf) rest = (text, true)) := by
  cases bytes with
  | nil => cases h
  | cons b rest =>
    rw [decodeFrom] at h
    simp only [step] at h
    split at h
    · grind
    · cases h

theorem decodeFrom_bounds {more : Nat} (hlow : 0x80 ≤ low) (hhigh : high ≤ 0xbf)
    (h : decodeFrom surrogates (.tail more value low high) bytes = (cp :: text, true)) :
    (value * 64 + (low - 0x80)) * 64 ^ more ≤ cp ∧ cp < (value + 1) * 64 ^ (more + 1) := by
  induction more generalizing value low high bytes with
  | zero =>
    obtain ⟨b, rest, rfl, hb, hb', ⟨-, after, hcp⟩ | ⟨more, hmore, -⟩⟩ := decodeFrom_tail h
    · have hcp := (List.cons.inj hcp).1
      constructor <;> omega
    · cases hmore
  | succ more ih =>
    obtain ⟨b, rest, rfl, hb, hb', ⟨hmore, -⟩ | ⟨more, hmore, hrest⟩⟩ := decodeFrom_tail h
    · cases hmore
    · cases hmore
      obtain ⟨hleast, hmost⟩ := ih (le_refl _) (le_refl _) hrest
      constructor
      · calc (value * 64 + (low - 0x80)) * 64 ^ (more + 1)
            ≤ (value * 64 + (b.toNat - 0x80)) * 64 ^ (more + 1) := Nat.mul_le_mul_right _ (by omega)
          _ = ((value * 64 + (b.toNat - 0x80)) * 64 + (0x80 - 0x80)) * 64 ^ more := by rw [Nat.pow_succ]; ring
          _ ≤ cp := hleast
      · calc cp < (value * 64 + (b.toNat - 0x80) + 1) * 64 ^ (more + 1) := hmost
          _ ≤ ((value + 1) * 64) * 64 ^ (more + 1) := Nat.mul_le_mul_right _ (by omega)
          _ = (value + 1) * 64 ^ (more + 1 + 1) := by rw [Nat.pow_succ 64 (more + 1)]; ring

theorem decode_bom
    (h : decode surrogates bytes = some (0xfeff :: text)) : ∃ rest, bytes = 0xef :: 0xbb :: 0xbf :: rest := by
  rw [decode_eq_some] at h
  cases bytes with
  | nil => cases h
  | cons b rest =>
    rw [decodeFrom] at h
    split at h
    · rename_i out next hstep
      obtain ⟨htext, hvalid⟩ := Prod.mk.inj h
      simp only [step] at hstep
      split at hstep
      · cases hstep
        rw [List.singleton_append, List.cons.injEq] at htext
        omega
      · obtain ⟨state, hfirst, hstate⟩ := Option.map_eq_some_iff.mp hstep
        cases hstate
        have hrest : decodeFrom surrogates next rest = (0xfeff :: text, true) := Prod.ext htext hvalid
        have hthree : b.toNat = 0xef ∧ next = .tail 1 0xf 0x80 0xbf := by
          unfold first at hfirst
          repeat' split at hfirst
          all_goals cases hfirst
          all_goals have hbounds := decodeFrom_bounds (by omega) (by omega) hrest
          all_goals first
            | omega
            | exact ⟨by omega, by rw [show b.toNat - 0xe0 = 0xf by omega]⟩
        obtain ⟨hb, rfl⟩ := hthree
        obtain ⟨b₁, rest, rfl, hb₁, hb₁', ⟨hmore, -⟩ | ⟨more, hmore, hrest⟩⟩ := decodeFrom_tail hrest
        · cases hmore
        cases hmore
        obtain ⟨b₂, rest, rfl, hb₂, hb₂', ⟨-, after, hcp⟩ | ⟨more, hmore, -⟩⟩ := decodeFrom_tail hrest
        · rw [List.cons.injEq] at hcp
          obtain rfl : b = 0xef := UInt8.toNat_inj.mp hb
          obtain rfl : b₁ = 0xbb := UInt8.toNat_inj.mp (by change b₁.toNat = 0xbb; omega)
          obtain rfl : b₂ = 0xbf := UInt8.toNat_inj.mp (by change b₂.toNat = 0xbf; omega)
          exact ⟨rest, rfl⟩
        · cases hmore
    · cases h

theorem decode_eq_some_nil : decode surrogates bytes = some [] ↔ bytes = [] := by
  constructor
  · intro h
    cases bytes with
    | nil => rfl
    | cons b rest =>
      by_cases hb : b.toNat < 0x80
      · obtain ⟨after, -, htext⟩ := decode_cons_ascii hb h
        cases htext
      · obtain ⟨cp, after, htext, -⟩ := decodeFrom_head (not_lt.mp hb) open_start (decode_eq_some.mp h)
        cases htext
  · rintro rfl
    rfl

def Scalar (cp : Nat) : Prop := cp < 0xd800 ∨ (0xe000 ≤ cp ∧ cp < 0x110000)

instance : DecidablePred Scalar := fun _ => inferInstanceAs (Decidable (_ ∨ _))

def encodeChar (cp : Nat) : List UInt8 :=
  if cp < 0x80 then [UInt8.ofNat cp]
  else if cp < 0x800 then [UInt8.ofNat (0xc0 + cp / 64), UInt8.ofNat (0x80 + cp % 64)]
  else if cp < 0x10000 then
    [UInt8.ofNat (0xe0 + cp / 4096), UInt8.ofNat (0x80 + cp / 64 % 64), UInt8.ofNat (0x80 + cp % 64)]
  else
    [UInt8.ofNat (0xf0 + cp / 262144), UInt8.ofNat (0x80 + cp / 4096 % 64), UInt8.ofNat (0x80 + cp / 64 % 64),
      UInt8.ofNat (0x80 + cp % 64)]

def encode (text : List Nat) : List UInt8 := text.flatMap encodeChar

theorem decodeFrom_append_text {bytes rest : List UInt8}
    (h : decodeFrom surrogates state bytes = (text, true)) :
    decodeFrom surrogates state (bytes ++ rest) =
      (text ++ (decodeFrom surrogates .start rest).1, (decodeFrom surrogates .start rest).2) := by
  induction bytes generalizing state text with
  | nil =>
    obtain ⟨rfl, hstate⟩ := Prod.mk.inj h
    obtain rfl := of_decide_eq_true hstate
    rfl
  | cons b bytes ih =>
    rw [decodeFrom] at h
    split at h
    · rename_i out next hstep
      obtain ⟨htext, hvalid⟩ := Prod.mk.inj h
      rw [List.cons_append, decodeFrom, hstep]
      simp only [ih (Prod.ext rfl hvalid), ← htext, List.append_assoc]
    · cases h

theorem decode_append_text {bytes rest : List UInt8} {text text' : List Nat}
    (h : decode surrogates bytes = some text) (h' : decode surrogates rest = some text') :
    decode surrogates (bytes ++ rest) = some (text ++ text') := by
  rw [decode_eq_some] at h h' ⊢
  rw [decodeFrom_append_text h, h']

theorem decodeFrom_step (hn : n < 256)
    (h : step surrogates n state = some (out, next)) (rest : List UInt8) :
    decodeFrom surrogates state (UInt8.ofNat n :: rest) =
      (out ++ (decodeFrom surrogates next rest).1, (decodeFrom surrogates next rest).2) := by
  rw [decodeFrom, UInt8.toNat_ofNat_of_lt' hn, h]

theorem step_tail {more : Nat} (hlow : low ≤ n) (hhigh : n ≤ high) :
    step surrogates n (.tail (more + 1) value low high) =
      some ([], .tail more (value * 64 + (n - 0x80)) 0x80 0xbf) := by
  rw [step, if_pos ⟨hlow, hhigh⟩]

theorem step_last (hlow : low ≤ n) (hhigh : n ≤ high) :
    step surrogates n (.tail 0 value low high) = some ([value * 64 + (n - 0x80)], .start) := by
  rw [step, if_pos ⟨hlow, hhigh⟩]

theorem first_two (h : 2 ≤ n) (h' : n < 32) : first false (0xc0 + n) = some (.tail 0 n 0x80 0xbf) := by
  rw [first, if_pos (by omega), Nat.add_sub_cancel_left]

theorem first_three (hcp : Scalar cp) (h : 0x800 ≤ cp) (h' : cp < 0x10000) :
    ∃ low high, first false (0xe0 + cp / 4096) = some (.tail 1 (cp / 4096) low high) ∧
      low ≤ 0x80 + cp / 64 % 64 ∧ 0x80 + cp / 64 % 64 ≤ high := by
  unfold Scalar at hcp
  rw [first, if_neg (by omega)]
  by_cases hzero : cp / 4096 = 0
  · exact ⟨0xa0, 0xbf, by rw [hzero, if_pos rfl], by omega, by omega⟩
  rw [if_neg (by omega)]
  by_cases hd : cp / 4096 = 13
  · exact ⟨0x80, 0x9f, by rw [hd, if_pos ⟨rfl, rfl⟩], by omega, by omega⟩
  rw [if_neg (by omega), if_pos (by omega), Nat.add_sub_cancel_left]
  exact ⟨0x80, 0xbf, rfl, by omega, by omega⟩

theorem first_four (h : 0x10000 ≤ cp) (h' : cp < 0x110000) :
    ∃ low high, first false (0xf0 + cp / 262144) = some (.tail 2 (cp / 262144) low high) ∧
      low ≤ 0x80 + cp / 4096 % 64 ∧ 0x80 + cp / 4096 % 64 ≤ high := by
  rw [first, if_neg (by omega), if_neg (by omega), if_neg (by omega), if_neg (by omega)]
  by_cases hzero : cp / 262144 = 0
  · exact ⟨0x90, 0xbf, by rw [hzero, if_pos rfl], by omega, by omega⟩
  rw [if_neg (by omega)]
  by_cases hfour : cp / 262144 = 4
  · exact ⟨0x80, 0x8f, by rw [hfour, if_neg (by omega), if_pos rfl], by omega, by omega⟩
  rw [if_pos (by omega), Nat.add_sub_cancel_left]
  exact ⟨0x80, 0xbf, rfl, by omega, by omega⟩

theorem step_first (hn : 0x80 ≤ n)
    (h : first surrogates n = some state) : step surrogates n .start = some ([], state) := by
  rw [step, if_neg (by omega), h]
  rfl

theorem decode_encodeChar (hcp : Scalar cp) : decode false (encodeChar cp) = some [cp] := by
  rw [decode_eq_some]
  unfold encodeChar
  split
  · rw [decodeFrom_step (by omega) (by rw [step, if_pos ‹_›])]
    rfl
  split
  · rw [decodeFrom_step (by omega) (step_first (by omega) (first_two (by omega) (by omega))),
      decodeFrom_step (by omega) (step_last (by omega) (by omega))]
    have hvalue : cp / 64 * 64 + (0x80 + cp % 64 - 0x80) = cp := by omega
    simp only [decodeFrom, List.nil_append, List.append_nil, decide_true, hvalue]
  split
  · obtain ⟨low, high, hfirst, hlow, hhigh⟩ := first_three hcp (by omega) (by omega)
    rw [decodeFrom_step (by omega) (step_first (by omega) hfirst),
      decodeFrom_step (by omega) (step_tail hlow hhigh),
      decodeFrom_step (by omega) (step_last (by omega) (by omega))]
    have hvalue : (cp / 4096 * 64 + (0x80 + cp / 64 % 64 - 0x80)) * 64 + (0x80 + cp % 64 - 0x80) = cp := by omega
    simp only [decodeFrom, List.nil_append, List.append_nil, decide_true, hvalue]
  · unfold Scalar at hcp
    obtain ⟨low, high, hfirst, hlow, hhigh⟩ := first_four (show 0x10000 ≤ cp by omega) (by omega)
    rw [decodeFrom_step (by omega) (step_first (by omega) hfirst),
      decodeFrom_step (by omega) (step_tail hlow hhigh),
      decodeFrom_step (by omega) (step_tail (by omega) (by omega)),
      decodeFrom_step (by omega) (step_last (by omega) (by omega))]
    have hvalue : ((cp / 262144 * 64 + (0x80 + cp / 4096 % 64 - 0x80)) * 64 + (0x80 + cp / 64 % 64 - 0x80)) * 64 +
        (0x80 + cp % 64 - 0x80) = cp := by omega
    simp only [decodeFrom, List.nil_append, List.append_nil, decide_true, hvalue]

/-- What a state that decodes no surrogate can still complete. -/
def State.Sound : State → Prop
  | .start => True
  | .tail more value low high =>
    ∀ cp, (value * 64 + (low - 0x80)) * 64 ^ more ≤ cp → cp < (value * 64 + (high - 0x80) + 1) * 64 ^ more →
      Scalar cp

theorem first_sound (h : first false b = some state) : state.Sound := by
  unfold first at h
  repeat' split at h
  all_goals cases h
  all_goals
    intro cp hleast hmost
    unfold Scalar
    simp only [Nat.pow_zero, Nat.mul_one, Nat.reducePow, and_true] at *
    omega

theorem step_sound (hsound : state.Sound)
    (h : step false b state = some (out, next)) : next.Sound ∧ ∀ cp ∈ out, Scalar cp := by
  cases state with
  | start =>
    simp only [step] at h
    split at h
    · rename_i hb
      cases h
      refine ⟨trivial, ?_⟩
      intro cp hcp
      obtain rfl := List.mem_singleton.mp hcp
      exact .inl (by omega)
    · obtain ⟨state, hfirst, hstate⟩ := Option.map_eq_some_iff.mp h
      cases hstate
      exact ⟨first_sound hfirst, by simp⟩
  | tail more value low high =>
    simp only [step] at h
    split at h
    · rename_i hb
      split at h
      · cases h
        refine ⟨trivial, ?_⟩
        intro cp hcp
        rw [List.mem_singleton.mp hcp]
        apply hsound
        · simp only [Nat.pow_zero, Nat.mul_one]
          omega
        · simp only [Nat.pow_zero, Nat.mul_one]
          omega
      · rename_i more
        cases h
        refine ⟨?_, by simp⟩
        intro cp hleast hmost
        apply hsound cp
        · calc (value * 64 + (low - 0x80)) * 64 ^ (more + 1)
              ≤ (value * 64 + (b - 0x80)) * 64 ^ (more + 1) := Nat.mul_le_mul_right _ (by omega)
            _ = ((value * 64 + (b - 0x80)) * 64 + (0x80 - 0x80)) * 64 ^ more := by rw [Nat.pow_succ]; ring
            _ ≤ cp := hleast
        · calc cp < ((value * 64 + (b - 0x80)) * 64 + (0xbf - 0x80) + 1) * 64 ^ more := hmost
            _ = (value * 64 + (b - 0x80) + 1) * 64 ^ (more + 1) := by rw [Nat.pow_succ]; ring
            _ ≤ (value * 64 + (high - 0x80) + 1) * 64 ^ (more + 1) := Nat.mul_le_mul_right _ (by omega)
    · cases h

theorem scalar_of_decode (h : decode false bytes = some text) : ∀ cp ∈ text, Scalar cp := by
  have hfrom : ∀ {bytes : List UInt8} {state : State} {text : List Nat}, state.Sound →
      decodeFrom false state bytes = (text, true) → ∀ cp ∈ text, Scalar cp := by
    intro bytes
    induction bytes with
    | nil =>
      intro state text _ h
      obtain ⟨rfl, -⟩ := Prod.mk.inj h
      simp
    | cons b bytes ih =>
      intro state text hsound h
      rw [decodeFrom] at h
      split at h
      · rename_i out next hstep
        obtain ⟨rfl, hvalid⟩ := Prod.mk.inj h
        obtain ⟨hnext, hout⟩ := step_sound hsound hstep
        grind
      · cases h
  have hstart : State.start.Sound := trivial
  exact hfrom hstart (decode_eq_some.mp h)

theorem decode_encode (htext : ∀ cp ∈ text, Scalar cp) : decode false (encode text) = some text := by
  induction text with
  | nil => rfl
  | cons cp text ih =>
    exact decode_append_text (decode_encodeChar (htext cp List.mem_cons_self))
      (ih fun cp' hcp => htext cp' (List.mem_cons_of_mem _ hcp))

/-- The last `more + 1` bytes of a character -/
def tailBytes : Nat → Nat → List UInt8
  | 0, cp => [UInt8.ofNat (0x80 + cp % 64)]
  | more + 1, cp => UInt8.ofNat (0x80 + cp / 64 ^ (more + 1) % 64) :: tailBytes more cp

/-- The bytes that have led to a state are those of every character that it can still complete. -/
def State.After (front : List UInt8) : State → Prop
  | .start => front = []
  | .tail more value low high => 0x80 ≤ low ∧ high ≤ 0xbf ∧
      ∀ cp, (value * 64 + (low - 0x80)) * 64 ^ more ≤ cp → cp < (value * 64 + (high - 0x80) + 1) * 64 ^ more →
        encodeChar cp = front ++ tailBytes more cp

theorem after_first {b : UInt8} (h : first false b.toNat = some state) : state.After [b] := by
  have hbyte : ∀ n, n = b.toNat → UInt8.ofNat n = b := by
    rintro _ rfl
    exact UInt8.ofNat_toNat
  unfold first at h
  repeat' split at h
  all_goals cases h
  all_goals
    refine ⟨by omega, by omega, fun cp hleast hmost => ?_⟩
    simp only [Nat.pow_zero, Nat.mul_one, Nat.reducePow, and_true] at *
    simp only [encodeChar, tailBytes, List.singleton_append, Nat.reducePow, Nat.reduceAdd, Nat.pow_one]
  · rw [if_neg (by omega), if_pos (by omega), hbyte _ (by omega)]
  · rw [if_neg (by omega), if_neg (by omega), if_pos (by omega), hbyte _ (by omega)]
  · rw [if_neg (by omega), if_neg (by omega), if_pos (by omega), hbyte _ (by omega)]
  · rw [if_neg (by omega), if_neg (by omega), if_pos (by omega), hbyte _ (by omega)]
  · rw [if_neg (by omega), if_neg (by omega), if_neg (by omega), hbyte _ (by omega)]
  · rw [if_neg (by omega), if_neg (by omega), if_neg (by omega), hbyte _ (by omega)]
  · rw [if_neg (by omega), if_neg (by omega), if_neg (by omega), hbyte _ (by omega)]

theorem after_step {b : UInt8} {front : List UInt8} (hafter : state.After front)
    (h : step false b.toNat state = some (out, next)) :
    ∃ front', next.After front' ∧ encode out ++ front' = front ++ [b] := by
  cases state with
  | start =>
    obtain rfl : front = [] := hafter
    simp only [step] at h
    split at h
    · rename_i hb
      cases h
      refine ⟨[], rfl, ?_⟩
      simp [encode, encodeChar, hb]
    · obtain ⟨state, hfirst, hstate⟩ := Option.map_eq_some_iff.mp h
      cases hstate
      exact ⟨[b], after_first hfirst, rfl⟩
  | tail more value low high =>
    obtain ⟨hlow, hhigh, hchar⟩ := hafter
    simp only [step] at h
    split at h
    · rename_i hb
      split at h
      · cases h
        refine ⟨[], rfl, ?_⟩
        have hcp := hchar (value * 64 + (b.toNat - 0x80)) (by omega) (by omega)
        have hlast : 0x80 + (value * 64 + (b.toNat - 0x80)) % 64 = b.toNat := by omega
        rw [encode, List.flatMap_singleton, hcp, tailBytes, hlast, UInt8.ofNat_toNat, List.append_nil]
      · rename_i more
        cases h
        refine ⟨front ++ [b], ⟨Nat.le_refl _, Nat.le_refl _, fun cp hleast hmost => ?_⟩, by simp [encode]⟩
        have hpow : 0 < 64 ^ (more + 1) := Nat.pow_pos (by decide)
        have hleast' : (value * 64 + (b.toNat - 0x80)) * 64 ^ (more + 1) ≤ cp := by
          calc (value * 64 + (b.toNat - 0x80)) * 64 ^ (more + 1)
              = ((value * 64 + (b.toNat - 0x80)) * 64 + (0x80 - 0x80)) * 64 ^ more := by rw [Nat.pow_succ]; ring
            _ ≤ cp := hleast
        have hmost' : cp < (value * 64 + (b.toNat - 0x80) + 1) * 64 ^ (more + 1) := by
          calc cp < ((value * 64 + (b.toNat - 0x80)) * 64 + (0xbf - 0x80) + 1) * 64 ^ more := hmost
            _ = (value * 64 + (b.toNat - 0x80) + 1) * 64 ^ (more + 1) := by rw [Nat.pow_succ]; ring
        have hdiv : cp / 64 ^ (more + 1) = value * 64 + (b.toNat - 0x80) :=
          Nat.div_eq_of_lt_le hleast' hmost'
        have hcp := hchar cp ((Nat.mul_le_mul_right _ (by omega)).trans hleast')
          (hmost'.trans_le (Nat.mul_le_mul_right _ (by omega)))
        have hbyte : 0x80 + (value * 64 + (b.toNat - 0x80)) % 64 = b.toNat := by omega
        rw [hcp, tailBytes, hdiv, hbyte, UInt8.ofNat_toNat, List.append_assoc, List.singleton_append]
    · cases h

theorem encode_of_decode (h : decode false bytes = some text) : encode text = bytes := by
  have hfrom : ∀ {bytes front : List UInt8} {state : State} {text : List Nat}, state.After front →
      decodeFrom false state bytes = (text, true) → encode text = front ++ bytes := by
    intro bytes
    induction bytes with
    | nil =>
      intro front state text hafter h
      obtain ⟨rfl, hstate⟩ := Prod.mk.inj h
      obtain rfl := of_decide_eq_true hstate
      obtain rfl : front = [] := hafter
      rfl
    | cons b bytes ih =>
      intro front state text hafter h
      rw [decodeFrom] at h
      split at h
      · rename_i out next hstep
        obtain ⟨rfl, hvalid⟩ := Prod.mk.inj h
        obtain ⟨front', hnext, hfront⟩ := after_step hafter hstep
        rw [encode, List.flatMap_append, ← encode, ← encode, ih hnext (Prod.ext rfl hvalid), ← List.append_assoc, hfront,
          List.append_assoc, List.singleton_append]
      · cases h
  exact hfrom (show State.start.After [] from rfl) (decode_eq_some.mp h)

theorem decode_ascii (htext : ∀ cp ∈ text, cp < 0x80) :
    decode false (text.map UInt8.ofNat) = some text := by
  have hencode : encode text = text.map UInt8.ofNat := by
    induction text with
    | nil => rfl
    | cons cp text ih =>
      have hrest := ih fun cp' hcp => htext cp' (List.mem_cons_of_mem _ hcp)
      rw [encode, List.flatMap_cons, encodeChar, if_pos (htext cp List.mem_cons_self), ← encode, hrest]
      rfl
  rw [← hencode]
  exact decode_encode fun cp hcp => Or.inl ((htext cp hcp).trans (by decide))

def encodeChars (text : List Char) : List UInt8 := encode (text.map Char.toNat)

def decodeChars (bytes : List UInt8) : Option (List Char) := (decode false bytes).map fun cps => cps.map Char.ofNat

theorem scalar_toNat (c : Char) : Scalar c.toNat := by
  rcases c.valid with hlow | ⟨hlow, hhigh⟩
  · exact Or.inl hlow
  · exact Or.inr ⟨Nat.succ_le_of_lt hlow, hhigh⟩

theorem decode_encodeChars (text : List Char) : decode false (encodeChars text) = some (text.map Char.toNat) := by
  apply decode_encode
  intro cp hcp
  obtain ⟨c, -, rfl⟩ := List.mem_map.mp hcp
  exact scalar_toNat c

theorem map_ofNat_toNat (text : List Char) : (text.map Char.toNat).map Char.ofNat = text := by
  have hid : Char.ofNat ∘ Char.toNat = id := funext Char.ofNat_toNat
  rw [List.map_map, hid, List.map_id]

theorem decodeChars_encodeChars (text : List Char) : decodeChars (encodeChars text) = some text := by
  rw [decodeChars, decode_encodeChars, Option.map_some, map_ofNat_toNat]

@[simp] theorem encodeChars_nil : encodeChars [] = [] := rfl

theorem encodeChars_append (text text' : List Char) :
    encodeChars (text ++ text') = encodeChars text ++ encodeChars text' := by
  rw [encodeChars, List.map_append, encode, List.flatMap_append]
  rfl

theorem toNat_ofNat (h : Scalar cp) : (Char.ofNat cp).toNat = cp := by
  have hvalid : cp.isValidChar := by
    rcases h with h | h
    · exact .inl h
    · exact .inr ⟨by omega, h.2⟩
  rw [Char.ofNat, dif_pos hvalid]
  rfl

theorem encodeChars_of_decodeChars {text : List Char} (h : decodeChars bytes = some text) :
    encodeChars text = bytes := by
  obtain ⟨cps, hcps, rfl⟩ := Option.map_eq_some_iff.mp h
  have hsame : (cps.map Char.ofNat).map Char.toNat = cps := by
    rw [List.map_map]
    exact (List.map_congr_left fun cp hcp => toNat_ofNat (scalar_of_decode hcps cp hcp)).trans (List.map_id _)
  rw [encodeChars, hsame, encode_of_decode hcps]

theorem prefix_of_encodeChars {front text : List Char} (h : encodeChars front <+: encodeChars text) :
    front <+: text := by
  obtain ⟨rest, hrest⟩ := h
  have hwhole := decode_eq_some.mp (decode_encodeChars text)
  rw [← hrest, decodeFrom_append_text (decode_eq_some.mp (decode_encodeChars front))] at hwhole
  have hmap : front.map Char.toNat <+: text.map Char.toNat := ⟨_, (Prod.mk.inj hwhole).1⟩
  have hfront := hmap.map Char.ofNat
  rwa [map_ofNat_toNat, map_ofNat_toNat] at hfront

/-- The code points of a byte string, with a replacement for each part that is malformed -/
def replaceFrom : State → List UInt8 → List Nat
  | state, [] => if state = .start then [] else [0xfffd]
  | state, b :: bytes =>
    match step false b.toNat state with
    | some (out, next) => out ++ replaceFrom next bytes
    | none =>
      -- a byte that ends a sequence too early is looked at again
      match step false b.toNat .start with
      | some (out, next) => 0xfffd :: (out ++ replaceFrom next bytes)
      | none => (if state = .start then [0xfffd] else [0xfffd, 0xfffd]) ++ replaceFrom .start bytes

def replaceChars (bytes : List UInt8) : List Char := (replaceFrom .start bytes).map Char.ofNat

theorem replaceFrom_eq
    (h : decodeFrom false state bytes = (text, true)) : replaceFrom state bytes = text := by
  induction bytes generalizing state text with
  | nil =>
    obtain ⟨rfl, hstate⟩ := Prod.mk.inj h
    rw [replaceFrom, if_pos (of_decide_eq_true hstate)]
  | cons b bytes ih =>
    rw [decodeFrom] at h
    split at h
    · rename_i out next hstep
      obtain ⟨rfl, hvalid⟩ := Prod.mk.inj h
      rw [replaceFrom, hstep]
      simp only [ih (Prod.ext rfl hvalid)]
    · cases h

theorem replaceChars_encodeChars (text : List Char) : replaceChars (encodeChars text) = text := by
  rw [replaceChars, replaceFrom_eq (decode_eq_some.mp (decode_encodeChars text)), map_ofNat_toNat]

theorem mem_encodeChars {text : List Char} {b : UInt8} (h : b ∈ encodeChars text) (hb : b.toNat < 0x80) :
    ∃ c ∈ text, c.toNat = b.toNat := by
  obtain ⟨cp, hcp, hmem⟩ := List.mem_flatMap.mp h
  obtain ⟨c, hc, rfl⟩ := List.mem_map.mp hcp
  refine ⟨c, hc, ?_⟩
  have hscalar := scalar_toNat c
  rw [encodeChar] at hmem
  split at hmem
  · rw [List.mem_singleton.mp hmem, UInt8.toNat_ofNat']
    omega
  · exfalso
    have hhigh : ∀ n, b = UInt8.ofNat n → n < 256 → 0x80 ≤ n → False := by
      intro n hn hlt hge
      rw [hn, UInt8.toNat_ofNat', Nat.mod_eq_of_lt hlt] at hb
      omega
    split at hmem
    · grind
    · split at hmem
      · grind
      · rcases hscalar with hlow | hlow
        · omega
        · grind

/-- A property of code points, of the bytes that stand for themselves. -/
def onBytes (p : Nat → Bool) (b : UInt8) : Bool := p b.toNat

section Separators

variable {surrogates : Bool} {bytes : List UInt8} {text : List Nat}

theorem splitBy_append_of_notMem {sep : Nat → Bool} {front : List Nat} (hfront : ∀ a ∈ front, sep a = false)
    {l part : List Nat} {parts : List (List Nat)} (hl : splitBy sep l = part :: parts) :
    splitBy sep (front ++ l) = (front ++ part) :: parts := by
  induction front with
  | nil => exact hl
  | cons a front ih =>
    exact splitBy_cons (hfront a List.mem_cons_self) (ih fun b hb => hfront b (List.mem_cons_of_mem _ hb))

theorem decodeFrom_splitBy {sep : Nat → Bool} (hsep : ∀ n, sep n = true → n < 0x80)
    (hopen : state.Open) (h : decodeFrom surrogates state bytes = (text, true)) :
    ∃ part parts first rest, splitBy (onBytes sep) bytes = part :: parts ∧
      splitBy sep text = first :: rest ∧ decodeFrom surrogates state part = (first, true) ∧
      List.Forall₂ (fun part text => decode surrogates part = some text) parts rest := by
  induction bytes generalizing state text with
  | nil =>
    obtain ⟨rfl, -⟩ := Prod.mk.inj h
    exact ⟨[], [], [], [], rfl, rfl, h, .nil⟩
  | cons b bytes ih =>
    rw [decodeFrom] at h
    split at h
    · rename_i out next hstep
      obtain ⟨htext, hvalid⟩ := Prod.mk.inj h
      obtain ⟨hnext, hcases⟩ := step_open hopen hstep
      obtain ⟨part, parts, first, rest, hparts, hfirst, hpart, hall⟩ := ih hnext (Prod.ext rfl hvalid)
      rcases hcases with ⟨rfl, hb, rfl, rfl⟩ | ⟨⟨hb, hout⟩, -⟩
      · rw [← htext]
        cases hs : sep b.toNat with
        | true =>
          have hs' : onBytes sep b = true := hs
          exact ⟨[], part :: parts, [], first :: rest, by rw [splitBy_cons_sep hs', hparts],
            by rw [List.singleton_append, splitBy_cons_sep hs, hfirst], rfl,
            .cons (decode_eq_some.mpr hpart) hall⟩
        | false =>
          have hs' : onBytes sep b = false := hs
          refine ⟨b :: part, parts, b.toNat :: first, rest, splitBy_cons hs' hparts,
            splitBy_cons hs hfirst, ?_, hall⟩
          rw [decodeFrom, hstep]
          simp only [hpart, List.singleton_append]
      · have hnot : ∀ n, 0x80 ≤ n → sep n = false := by
          grind
        have hs' : onBytes sep b = false := hnot _ hb
        rw [← htext]
        refine ⟨b :: part, parts, out ++ first, rest, splitBy_cons hs' hparts,
          splitBy_append_of_notMem (fun a ha => hnot a (hout a ha)) hfirst, ?_, hall⟩
        rw [decodeFrom, hstep]
        simp only [hpart]
    · cases h

theorem decode_splitBy {sep : Nat → Bool} (hsep : ∀ n, sep n = true → n < 0x80)
    (h : decode surrogates bytes = some text) :
    List.Forall₂ (fun part text => decode surrogates part = some text)
      (splitBy (onBytes sep) bytes) (splitBy sep text) := by
  obtain ⟨part, parts, first, rest, hparts, hfirst, hpart, hall⟩ :=
    decodeFrom_splitBy hsep open_start (decode_eq_some.mp h)
  rw [hparts, hfirst]
  exact .cons (decode_eq_some.mpr hpart) hall

theorem decode_stripBy {space : Nat → Bool} (hspace : ∀ n, space n = true → n < 0x80)
    (h : decode surrogates bytes = some text) :
    decode surrogates (stripBy (onBytes space) bytes) = some (stripBy space text) := by
  have hnot : ∀ n, 0x80 ≤ n → space n = false := by
    intro n hn
    cases hs : space n with
    | false => rfl
    | true => exact absurd (hspace n hs) (by omega)
  have hdrop : ∀ {bytes : List UInt8} {text : List Nat}, decode surrogates bytes = some text →
      decode surrogates (bytes.dropWhile (onBytes space)) = some (text.dropWhile space) := by
    intro bytes
    induction bytes with
    | nil =>
      intro text h
      cases h
      rfl
    | cons b bytes ih =>
      intro text h
      by_cases hb : b.toNat < 0x80
      · obtain ⟨after, hafter, rfl⟩ := decode_cons_ascii hb h
        cases hs : space b.toNat with
        | true =>
          have hs' : onBytes space b = true := hs
          rw [List.dropWhile_cons_of_pos hs', List.dropWhile_cons_of_pos hs]
          exact ih hafter
        | false =>
          have hs' : ¬ onBytes space b = true := by simp [onBytes, hs]
          rw [List.dropWhile_cons_of_neg hs', List.dropWhile_cons_of_neg (by simp [hs])]
          exact h
      · obtain ⟨cp, after, rfl, hcp⟩ := decodeFrom_head (not_lt.mp hb) open_start (decode_eq_some.mp h)
        have hs' : ¬ onBytes space b = true := by simp [onBytes, hnot _ (not_lt.mp hb)]
        rw [List.dropWhile_cons_of_neg hs', List.dropWhile_cons_of_neg (by simp [hnot _ hcp])]
        exact h
  have hrdrop : ∀ {bytes : List UInt8} {text : List Nat}, decode surrogates bytes = some text →
      decode surrogates (bytes.rdropWhile (onBytes space)) = some (text.rdropWhile space) := by
    intro bytes
    induction bytes using List.reverseRecOn with
    | nil =>
      intro text h
      cases h
      rfl
    | append_singleton bytes b ih =>
      intro text h
      by_cases hb : b.toNat < 0x80
      · obtain ⟨before, after, hbefore, hafter, rfl⟩ := decode_append hb h
        obtain rfl : [] = after := Option.some.inj hafter
        cases hs : space b.toNat with
        | true =>
          have hs' : onBytes space b = true := hs
          rw [List.rdropWhile_concat_pos _ _ _ hs', List.rdropWhile_concat_pos _ _ _ hs]
          exact ih hbefore
        | false =>
          have hs' : ¬ onBytes space b = true := by simp [onBytes, hs]
          rw [List.rdropWhile_concat_neg _ _ _ hs', List.rdropWhile_concat_neg _ _ _ (by simp [hs])]
          exact h
      · obtain ⟨before, cp, rfl, hcp⟩ := decodeFrom_last (not_lt.mp hb) open_start (decode_eq_some.mp h)
        have hs' : ¬ onBytes space b = true := by simp [onBytes, hnot _ (not_lt.mp hb)]
        simp_all
  exact hrdrop (hdrop h)

end Separators

end Utf8

end PrivaCloud.Framework
