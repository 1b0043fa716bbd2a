import PrivaCloud.Framework.Utf8

/-!
# The two readers of a transcript

`_iter_jsonl_dicts` and `_iter_jsonl_dicts_reverse` of `routers/agent.py`. A text is the list of its code
points. The JSON decoder and the UTF-16 and UTF-32 codecs are parameters.
-/

namespace PrivaCloud.AgentRunner.TranscriptReaders

open Framework

/-- What `JSONDecoder.decode` returns or raises; `ρ` are the dictionaries. -/
inductive JsonReply (ρ : Type)
  | object (record : ρ)
  | value
  | decodeError
  | error
  deriving DecidableEq

/-- `isinstance(item, dict)` -/
def JsonReply.record? {ρ : Type} : JsonReply ρ → Option ρ
  | .object record => some record
  | _ => none

inductive Encoding
  | utf8
  | utf8Sig
  | utf16
  | utf16BE
  | utf16LE
  | utf32
  | utf32BE
  | utf32LE
  deriving DecidableEq

def detectEncoding : List UInt8 → Encoding
  | 0x00 :: 0x00 :: 0xfe :: 0xff :: _ => .utf32
  | 0xff :: 0xfe :: 0x00 :: 0x00 :: _ => .utf32
  | 0xfe :: 0xff :: _ => .utf16
  | 0xff :: 0xfe :: _ => .utf16
  | 0xef :: 0xbb :: 0xbf :: _ => .utf8Sig
  | b₀ :: b₁ :: b₂ :: b₃ :: _ =>
    if b₀ = 0 then if b₁ ≠ 0 then .utf16BE else .utf32BE
    else if b₁ = 0 then if b₂ ≠ 0 ∨ b₃ ≠ 0 then .utf16LE else .utf32LE
    else .utf8
  | [b₀, b₁] => if b₀ = 0 then .utf16BE else if b₁ = 0 then .utf16LE else .utf8
  | _ => .utf8

/-- The records that a generator yields, and whether it ends with an exception. -/
structure Reading (ρ : Type) where
  records : List ρ
  raised : Bool

/-- What comes after the yielded records; nothing does when there was an exception. -/
def Reading.andThen {ρ : Type} (r r' : Reading ρ) : Reading ρ :=
  if r.raised then r else { records := r.records ++ r'.records, raised := r'.raised }

/-- `str.isspace` -/
def pySpace (c : Nat) : Bool :=
  (0x09 ≤ c && c ≤ 0x0d) || (0x1c ≤ c && c ≤ 0x20) || c = 0x85 || c = 0xa0 || c = 0x1680 ||
    (0x2000 ≤ c && c ≤ 0x200a) || c = 0x2028 || c = 0x2029 || c = 0x202f || c = 0x205f || c = 0x3000

/-- `bytes.isspace` -/
def asciiSpace (c : Nat) : Bool := (0x09 ≤ c && c ≤ 0x0d) || c = 0x20

def isLF (c : Nat) : Bool := c = 0x0a

def isCR (c : Nat) : Bool := c = 0x0d

/-- The text mode of `open`: all line endings become `"\n"`. -/
def universalNewlines : List Nat → List Nat
  | 0x0d :: 0x0a :: rest => 0x0a :: universalNewlines rest
  | 0x0d :: rest => 0x0a :: universalNewlines rest
  | c :: rest => c :: universalNewlines rest
  | [] => []

/-- `line.strip()`, and nothing for a blank line. -/
def strippedLine {α : Type} [DecidableEq α] (space : α → Bool) (line : List α) : Option (List α) :=
  if stripBy space line = [] then none else some (stripBy space line)

section Readers

variable {ρ : Type} (loads : List Nat → JsonReply ρ) (codec : Encoding → List UInt8 → Option (List Nat))

/-- `json.loads` of a `str` -/
def loadsText (text : List Nat) : JsonReply ρ := if text.head? = some 0xfeff then .decodeError else loads text

/-- `s.decode(detect_encoding(s), "surrogatepass")` -/
def decodeDetected (bytes : List UInt8) : Option (List Nat) :=
  match detectEncoding bytes with
  | .utf8 => Utf8.decode true bytes
  | .utf8Sig => Utf8.decode true (bytes.drop 3)
  | encoding => codec encoding bytes

/-- `json.loads` of `bytes`; a `UnicodeDecodeError` is caught as the error of the decoder is. -/
def loadsBytes (bytes : List UInt8) : JsonReply ρ :=
  match decodeDetected codec bytes with
  | some text => loads text
  | none => .decodeError

def readLines {α : Type} (loads : List α → JsonReply ρ) : List (List α) → Reading ρ
  | [] => { records := [], raised := false }
  | raw :: rest =>
    match loads raw with
    | .object record => { readLines loads rest with records := record :: (readLines loads rest).records }
    | .value => readLines loads rest
    | .decodeError => readLines loads rest
    | .error => { records := [], raised := true }

/-- `_iter_jsonl_dicts`. When the file can not be decoded, the lines before the buffer with the error are
read: how many these are is not fixed by the content. -/
def iterJsonlDicts (ahead : List UInt8 → List (List Nat)) : Option (List UInt8) → Reading ρ
  | none => { records := [], raised := false }
  | some content =>
    match Utf8.decode false content with
    | some text =>
      readLines (loadsText loads) ((splitBy isLF (universalNewlines text)).filterMap (strippedLine pySpace))
    | none =>
      (readLines (loadsText loads) ((ahead content).filterMap (strippedLine pySpace))).andThen
        { records := [], raised := true }

/-- The loop of `_iter_jsonl_dicts_reverse`: the part of the file before the position is still to be read. -/
def readBackwards (chunkSize : Nat) (hchunk : 0 < chunkSize) (content : List UInt8) (position : Nat)
    (remainder : List UInt8) : Reading ρ :=
  if _h : position = 0 then
    readLines (loadsBytes loads codec) ([remainder].filterMap (strippedLine (Utf8.onBytes asciiSpace)))
  else
    let readSize := min chunkSize position
    let lines :=
      splitBy (Utf8.onBytes isLF) ((content.drop (position - readSize)).take readSize ++ remainder)
    (readLines (loadsBytes loads codec)
        (lines.tail.reverse.filterMap (strippedLine (Utf8.onBytes asciiSpace)))).andThen
      (readBackwards chunkSize hchunk content (position - readSize) (lines.headD []))
termination_by position
decreasing_by omega

def iterJsonlDictsReverse (chunkSize : Nat) (hchunk : 0 < chunkSize) : Option (List UInt8) → Reading ρ
  | none => { records := [], raised := false }
  | some content => readBackwards loads codec chunkSize hchunk content content.length []

section Lines

variable {α : Type} {loads : List α → JsonReply ρ}

theorem readLines_append (lines lines' : List (List α)) :
    readLines loads (lines ++ lines') = (readLines loads lines).andThen (readLines loads lines') := by
  induction lines with
  | nil => rfl
  | cons raw lines ih =>
    rw [List.cons_append, readLines, readLines]
    cases loads raw with
    | object record =>
      simp only [ih, Reading.andThen]
      split
      · rfl
      · rfl
    | value => exact ih
    | decodeError => exact ih
    | error => rfl

theorem readLines_eq {lines : List (List α)} (h : ∀ raw ∈ lines, loads raw ≠ .error) :
    readLines loads lines = { records := lines.filterMap fun raw => (loads raw).record?, raised := false } := by
  induction lines with
  | nil => rfl
  | cons raw lines ih =>
    have ih := ih fun raw' hraw => h raw' (List.mem_cons_of_mem _ hraw)
    rw [readLines, List.filterMap_cons]
    cases hloads : loads raw with
    | object record => simp only [ih, JsonReply.record?]
    | value => exact ih
    | decodeError => exact ih
    | error => exact absurd hloads (h raw List.mem_cons_self)

end Lines

/-- The reader from the end reads the lines of the file in reverse order, whatever the size of a chunk. -/
theorem readBackwards_eq (chunkSize : Nat) (hchunk : 0 < chunkSize) (content : List UInt8) (position : Nat)
    (remainder : List UInt8) (hposition : position ≤ content.length)
    (hremainder : ∀ b ∈ remainder, Utf8.onBytes isLF b = false) :
    readBackwards loads codec chunkSize hchunk content position remainder =
      readLines (loadsBytes loads codec) ((splitBy (Utf8.onBytes isLF)
        (content.take position ++ remainder)).reverse.filterMap (strippedLine (Utf8.onBytes asciiSpace))) := by
  induction position using Nat.strong_induction_on generalizing remainder with
  | _ position ih =>
    rw [readBackwards]
    split
    · rename_i hzero
      rw [hzero, List.take_zero, List.nil_append, splitBy_of_notMem hremainder, List.reverse_singleton]
    · rename_i hpositive
      have hback : position - min chunkSize position < position := by omega
      have hchunkEnd : position - min chunkSize position + min chunkSize position = position := by omega
      have htake : content.take position = content.take (position - min chunkSize position) ++
          (content.drop (position - min chunkSize position)).take (min chunkSize position) := by
        rw [← List.take_add, hchunkEnd]
      obtain ⟨part, parts, hparts⟩ := exists_splitBy (Utf8.onBytes isLF)
        ((content.drop (position - min chunkSize position)).take (min chunkSize position) ++ remainder)
      have hpart : ∀ b ∈ part, Utf8.onBytes isLF b = false := notMem_of_splitBy hparts
      have hlines := splitBy_append (content.take (position - min chunkSize position)) hparts
      rw [htake, List.append_assoc, hlines, List.reverse_append, List.filterMap_append, readLines_append,
        ← ih _ hback part (by omega) hpart]
      simp only [hparts, List.tail_cons, List.headD_cons]

theorem iterJsonlDictsReverse_eq (chunkSize : Nat) (hchunk : 0 < chunkSize) (content : List UInt8) :
    iterJsonlDictsReverse loads codec chunkSize hchunk (some content) =
      readLines (loadsBytes loads codec) ((splitBy (Utf8.onBytes isLF) content).reverse.filterMap
        (strippedLine (Utf8.onBytes asciiSpace))) := by
  rw [iterJsonlDictsReverse, readBackwards_eq loads codec chunkSize hchunk content _ _ (le_refl _) (by simp),
    List.take_length, List.append_nil]

end Readers

theorem strippedLine_nil {α : Type} [DecidableEq α] (space : α → Bool) : strippedLine space [] = none := by
  simp [strippedLine, stripBy]

theorem strippedLine_cons {α : Type} [DecidableEq α] {space : α → Bool} {a : α} (ha : space a = true)
    (line : List α) : strippedLine space (a :: line) = strippedLine space line := by
  rw [strippedLine, stripBy_cons ha, strippedLine]

theorem strippedLine_append {α : Type} [DecidableEq α] {space : α → Bool} {a : α} (ha : space a = true)
    (line : List α) : strippedLine space (line ++ [a]) = strippedLine space line := by
  rw [strippedLine, stripBy_append ha, strippedLine]

theorem pySpace_of_asciiSpace {c : Nat} (h : asciiSpace c = true) : pySpace c = true := by
  simp only [asciiSpace, Bool.or_eq_true, Bool.and_eq_true, decide_eq_true_eq] at h
  simp only [pySpace, Bool.or_eq_true, Bool.and_eq_true, decide_eq_true_eq]
  omega

/-- The first part is the same and the others are, but for blank ones. -/
theorem exists_splitBy_universalNewlines (text : List Nat) :
    ∃ part parts parts', splitBy isLF (universalNewlines text) = part :: parts ∧
      splitBy (fun c => isLF c || isCR c) text = part :: parts' ∧
      parts.filterMap (strippedLine pySpace) = parts'.filterMap (strippedLine pySpace) := by
  induction text using universalNewlines.induct with
  | case1 rest ih =>
    obtain ⟨part, parts, parts', hparts, hparts', hsame⟩ := ih
    refine ⟨[], part :: parts, [] :: part :: parts', ?_, ?_, ?_⟩
    · rw [universalNewlines, splitBy_cons_sep rfl, hparts]
    · rw [splitBy_cons_sep rfl, splitBy_cons_sep rfl, hparts']
    · rw [List.filterMap_cons_none (strippedLine_nil pySpace), List.filterMap_cons, List.filterMap_cons, hsame]
  | case2 rest hrest ih =>
    obtain ⟨part, parts, parts', hparts, hparts', hsame⟩ := ih
    refine ⟨[], part :: parts, part :: parts', ?_, ?_, ?_⟩
    · rw [universalNewlines, splitBy_cons_sep rfl, hparts]
      exact hrest
    · rw [splitBy_cons_sep rfl, hparts']
    · rw [List.filterMap_cons, List.filterMap_cons, hsame]
  | case3 c rest hc hc' ih =>
    obtain ⟨part, parts, parts', hparts, hparts', hsame⟩ := ih
    have hnotCR : isCR c = false := decide_eq_false hc'
    rw [universalNewlines]
    · cases hLF : isLF c with
      | true =>
        refine ⟨[], part :: parts, part :: parts', ?_, ?_, ?_⟩
        · rw [splitBy_cons_sep hLF, hparts]
        · rw [splitBy_cons_sep (by simp [hLF]), hparts']
        · rw [List.filterMap_cons, List.filterMap_cons, hsame]
      | false =>
        exact ⟨c :: part, parts, parts', splitBy_cons hLF hparts, splitBy_cons (by simp [hLF, hnotCR]) hparts',
          hsame⟩
    · exact hc
    · exact hc'
  | case4 => exact ⟨[], [], [], rfl, rfl, rfl⟩

theorem splitBy_universalNewlines (text : List Nat) :
    (splitBy isLF (universalNewlines text)).filterMap (strippedLine pySpace) =
      (splitBy (fun c => isLF c || isCR c) text).filterMap (strippedLine pySpace) := by
  obtain ⟨part, parts, parts', hparts, hparts', hsame⟩ := exists_splitBy_universalNewlines text
  rw [hparts, hparts', List.filterMap_cons, List.filterMap_cons, hsame]

section Agreement

variable {ρ : Type} (loads : List Nat → JsonReply ρ) (codec : Encoding → List UInt8 → Option (List Nat))

/-- A line with its outer white space off is UTF-8 without a byte order mark, has no carriage return and no
other white space at its ends, and the decoder either accepts it or says that it is malformed. -/
structure PlainLine (raw : List UInt8) (text : List Nat) : Prop where
  detected : detectEncoding raw = .utf8
  noCR : ∀ c ∈ text, isCR c = false
  stripped : stripBy pySpace text = text
  caught : loads text ≠ .error

/-- The file is UTF-8, and so are its lines, which are plain. -/
def Plain (content : List UInt8) : Prop :=
  Utf8.decode false content ≠ none ∧
    ∀ raw ∈ (splitBy (Utf8.onBytes isLF) content).filterMap (strippedLine (Utf8.onBytes asciiSpace)),
      ∀ text, Utf8.decode false raw = some text → PlainLine loads raw text

theorem head_ne_bom {raw : List UInt8} {text : List Nat} (hdetected : detectEncoding raw = .utf8)
    (h : Utf8.decode false raw = some text) : text.head? ≠ some 0xfeff := by
  intro hbom
  obtain ⟨rest, rfl⟩ := List.head?_eq_some_iff.mp hbom
  obtain ⟨bytes, rfl⟩ := Utf8.decode_bom h
  cases hdetected

theorem PlainLine.loads_eq {raw : List UInt8} {text : List Nat} (hplain : PlainLine loads raw text)
    (h : Utf8.decode false raw = some text) :
    loadsBytes loads codec raw = loads text ∧ loadsText loads text = loads text := by
  have hdecoded : decodeDetected codec raw = some text := by
    rw [decodeDetected, hplain.detected]
    exact Utf8.decode_surrogates h
  rw [loadsBytes, hdecoded, loadsText, if_neg (head_ne_bom hplain.detected h)]
  exact ⟨rfl, rfl⟩

/-- The lines that the forward reader makes of a line of bytes: it also ends them at carriage returns. -/
theorem filterMap_splitBy_isCR {line : List Nat} (h : ∀ text, strippedLine asciiSpace line = some text →
      (∀ c ∈ text, isCR c = false) ∧ stripBy pySpace text = text) :
    (splitBy isCR line).filterMap (strippedLine pySpace) = (strippedLine asciiSpace line).toList := by
  have hfront : ∀ a l, asciiSpace a = true → strippedLine pySpace (a :: l) = strippedLine pySpace l :=
    fun a l ha => strippedLine_cons (pySpace_of_asciiSpace ha) l
  have hback : ∀ a l, asciiSpace a = true → strippedLine pySpace (l ++ [a]) = strippedLine pySpace l :=
    fun a l ha => strippedLine_append (pySpace_of_asciiSpace ha) l
  rw [← filterMap_splitBy_stripBy (strippedLine_nil pySpace) hfront hback]
  by_cases hblank : stripBy asciiSpace line = []
  · rw [hblank, strippedLine, if_pos hblank]
    rfl
  · have hline : strippedLine asciiSpace line = some (stripBy asciiSpace line) := by
      rw [strippedLine, if_neg hblank]
    obtain ⟨hnoCR, hstripped⟩ := h _ hline
    rw [splitBy_of_notMem hnoCR, hline, List.filterMap_cons, strippedLine, hstripped, if_neg hblank]
    rfl

theorem forall₂_strippedLine {lines : List (List UInt8)} {texts : List (List Nat)}
    (h : List.Forall₂ (fun line text => Utf8.decode false line = some text) lines texts)
    (hplain : ∀ raw ∈ lines.filterMap (strippedLine (Utf8.onBytes asciiSpace)),
      ∀ text, Utf8.decode false raw = some text → PlainLine loads raw text) :
    List.Forall₂ (fun raw text => Utf8.decode false raw = some text ∧ PlainLine loads raw text)
      (lines.filterMap (strippedLine (Utf8.onBytes asciiSpace)))
      ((texts.flatMap (splitBy isCR)).filterMap (strippedLine pySpace)) := by
  induction h with
  | nil => exact .nil
  | @cons line text lines texts hline hlines ih =>
    have hascii : ∀ n, asciiSpace n = true → n < 0x80 := by
      intro n hn
      simp only [asciiSpace, Bool.or_eq_true, Bool.and_eq_true, decide_eq_true_eq] at hn
      omega
    have hstrip := Utf8.decode_stripBy hascii hline
    rw [List.flatMap_cons, List.filterMap_append]
    by_cases hblank : stripBy (Utf8.onBytes asciiSpace) line = []
    · have htext : stripBy asciiSpace text = [] := by
        rw [hblank] at hstrip
        exact (Option.some.inj hstrip).symm
      have hnone : strippedLine (Utf8.onBytes asciiSpace) line = none := by rw [strippedLine, if_pos hblank]
      have hnone' : strippedLine asciiSpace text = none := by rw [strippedLine, if_pos htext]
      rw [List.filterMap_cons_none hnone] at hplain ⊢
      rw [filterMap_splitBy_isCR (fun u hu => by rw [hnone'] at hu; cases hu), hnone']
      exact ih hplain
    · have htext : stripBy asciiSpace text ≠ [] := by
        intro htext
        rw [htext] at hstrip
        exact hblank (Utf8.decode_eq_some_nil.mp hstrip)
      have hsome : strippedLine (Utf8.onBytes asciiSpace) line =
          some (stripBy (Utf8.onBytes asciiSpace) line) := by rw [strippedLine, if_neg hblank]
      have hsome' : strippedLine asciiSpace text = some (stripBy asciiSpace text) := by
        rw [strippedLine, if_neg htext]
      rw [List.filterMap_cons_some hsome] at hplain ⊢
      have hfirst := hplain _ List.mem_cons_self _ hstrip
      rw [filterMap_splitBy_isCR (fun u hu => by
        rw [hsome'] at hu
        cases hu
        exact ⟨hfirst.noCR, hfirst.stripped⟩), hsome']
      exact .cons ⟨hstrip, hfirst⟩ (ih fun raw hraw => hplain raw (List.mem_cons_of_mem _ hraw))

theorem exists_lines {content : List UInt8} (hplain : Plain loads content) :
    ∃ text, Utf8.decode false content = some text ∧
      List.Forall₂ (fun raw text => Utf8.decode false raw = some text ∧ PlainLine loads raw text)
        ((splitBy (Utf8.onBytes isLF) content).filterMap (strippedLine (Utf8.onBytes asciiSpace)))
        ((splitBy isLF (universalNewlines text)).filterMap (strippedLine pySpace)) := by
  obtain ⟨text, htext⟩ := Option.ne_none_iff_exists'.mp hplain.1
  have hLF : ∀ n, isLF n = true → n < 0x80 := by
    intro n hn
    simp only [isLF, decide_eq_true_eq] at hn
    omega
  refine ⟨text, htext, ?_⟩
  rw [splitBy_universalNewlines, splitBy_or]
  exact forall₂_strippedLine loads (Utf8.decode_splitBy hLF htext) hplain.2

theorem records_eq {raws : List (List UInt8)} {texts : List (List Nat)}
    (h : List.Forall₂ (fun raw text => Utf8.decode false raw = some text ∧ PlainLine loads raw text) raws texts) :
    readLines (loadsBytes loads codec) raws = readLines (loadsText loads) texts ∧
      (∀ raw ∈ raws, loadsBytes loads codec raw ≠ .error) := by
  induction h with
  | nil => exact ⟨rfl, by simp⟩
  | cons hline _ ih =>
    obtain ⟨hdecoded, hplain⟩ := hline
    obtain ⟨hbytes, htext⟩ := hplain.loads_eq loads codec hdecoded
    refine ⟨by rw [readLines, readLines, hbytes, htext, ih.1], ?_⟩
    intro raw hraw
    rcases List.mem_cons.mp hraw with rfl | hraw
    · rw [hbytes]
      exact hplain.caught
    · exact ih.2 raw hraw

/-- The reader from the end yields what the forward reader yields, in reverse order; neither raises. -/
theorem readers_agree (ahead : List UInt8 → List (List Nat)) (chunkSize : Nat) (hchunk : 0 < chunkSize)
    (content : List UInt8) (hplain : Plain loads content) :
    iterJsonlDictsReverse loads codec chunkSize hchunk (some content) =
        { records := (iterJsonlDicts loads ahead (some content)).records.reverse, raised := false } ∧
      (iterJsonlDicts loads ahead (some content)).raised = false := by
  obtain ⟨text, htext, hlines⟩ := exists_lines loads hplain
  obtain ⟨hsame, hcaught⟩ := records_eq loads codec hlines
  rw [iterJsonlDictsReverse_eq, iterJsonlDicts, htext]
  simp only
  rw [← hsame, readLines_eq hcaught, List.filterMap_reverse, readLines_eq]
  · exact ⟨by rw [List.filterMap_reverse], rfl⟩
  · intro raw hraw
    exact hcaught raw (List.mem_reverse.mp hraw)

end Agreement

/-- `{"a":1}` and `{"b":2}` are dictionaries; other texts of the example are malformed. -/
def twoDicts (text : List Nat) : JsonReply Nat :=
  if text = [0x7b, 0x22, 0x61, 0x22, 0x3a, 0x31, 0x7d] then .object 1
  else if text = [0x7b, 0x22, 0x62, 0x22, 0x3a, 0x32, 0x7d] then .object 2
  else .decodeError

/-- The two dictionaries with a blank and a malformed line, CRLF endings and no final newline. -/
def mixedLines : List UInt8 :=
  [0x7b, 0x22, 0x61, 0x22, 0x3a, 0x31, 0x7d, 0x0d, 0x0a, 0x0a, 0xc3, 0xa9, 0x0a, 0x7b, 0x22, 0x62, 0x22, 0x3a, 0x32, 0x7d]

theorem readers_agree_mixedLines :
    iterJsonlDictsReverse twoDicts (fun _ _ => none) 3 (by decide) (some mixedLines) =
        { records := (iterJsonlDicts twoDicts (fun _ => []) (some mixedLines)).records.reverse, raised := false } ∧
      (iterJsonlDicts twoDicts (fun _ => []) (some mixedLines)).raised = false := by
  refine readers_agree twoDicts (fun _ _ => none) (fun _ => []) 3 (by decide) mixedLines ⟨by decide, ?_⟩
  have hraws : (splitBy (Utf8.onBytes isLF) mixedLines).filterMap (strippedLine (Utf8.onBytes asciiSpace)) =
      [[0x7b, 0x22, 0x61, 0x22, 0x3a, 0x31, 0x7d], [0xc3, 0xa9], [0x7b, 0x22, 0x62, 0x22, 0x3a, 0x32, 0x7d]] := by
    decide
  have hplain : ∀ {raw : List UInt8} {text : List Nat} (text' : List Nat), Utf8.decode false raw = some text' →
      PlainLine twoDicts raw text' → Utf8.decode false raw = some text → PlainLine twoDicts raw text := by
    intro raw text text' htext' hline htext
    rw [htext'] at htext
    cases htext
    exact hline
  rw [hraws]
  intro raw hraw text
  rcases List.mem_cons.mp hraw with rfl | hraw
  · exact hplain [0x7b, 0x22, 0x61, 0x22, 0x3a, 0x31, 0x7d] (by decide)
      ⟨by decide, by decide, by decide, by decide⟩
  rcases List.mem_cons.mp hraw with rfl | hraw
  · exact hplain [0xe9] (by decide) ⟨by decide, by decide, by decide, by decide⟩
  obtain rfl := List.mem_singleton.mp hraw
  exact hplain [0x7b, 0x22, 0x62, 0x22, 0x3a, 0x32, 0x7d] (by decide)
    ⟨by decide, by decide, by decide, by decide⟩

/-- A carriage return between the two dictionaries. -/
def bareCR : List UInt8 :=
  [0x7b, 0x22, 0x61, 0x22, 0x3a, 0x31, 0x7d, 0x0d, 0x7b, 0x22, 0x62, 0x22, 0x3a, 0x32, 0x7d]

/-- The forward reader ends a line at the carriage return, the other one does not. -/
theorem readers_disagree_bareCR :
    (iterJsonlDictsReverse twoDicts (fun _ _ => none) 65536 (by decide) (some bareCR)).records ≠
      (iterJsonlDicts twoDicts (fun _ => []) (some bareCR)).records.reverse := by
  rw [iterJsonlDictsReverse_eq]
  decide

end PrivaCloud.AgentRunner.TranscriptReaders
