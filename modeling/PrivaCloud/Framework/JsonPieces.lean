import PrivaCloud.Framework.JsonText
import PrivaCloud.Framework.Utf8

/-!
# Pieces of a JSON text

A text cut at characters which stand in its strings only. A piece between two cuts is read as a value whose texts are
what stood between strings, if it is read at all. Nothing here names a particular program.
-/

namespace PrivaCloud.Framework.JsonText

inductive Place
  | outside
  | inside
  | escaped
  deriving DecidableEq

/-- A character of a text outside its strings -/
def isStructural (c : Char) : Bool := c ∈ "\x7b\x7d[]:,+-.0123456789eEnultrfas".toList

def isEscape (c : Char) : Bool := c ∈ "\"\\/bfnrtu".toList

/-- The place behind a text, if its characters may stand where they do -/
def scan : Place → List Char → Option Place
  | place, [] => some place
  | .outside, c :: rest => if c = '"' then scan .inside rest else if isStructural c then scan .outside rest else none
  | .inside, c :: rest =>
    if c = '"' then scan .outside rest else if c = '\\' then scan .escaped rest else scan .inside rest
  | .escaped, c :: rest => if isEscape c then scan .inside rest else none

theorem scan_append (place : Place) (text rest : List Char) :
    scan place (text ++ rest) = (scan place text).bind fun next => scan next rest := by
  induction text generalizing place with
  | nil => cases place <;> rfl
  | cons c text ih =>
    cases place <;> simp only [List.cons_append, scan, ih] <;> split <;> try rfl
    all_goals split <;> rfl

theorem scan_structural {text : List Char} (htext : text.all isStructural = true) (rest : List Char) :
    scan .outside (text ++ rest) = scan .outside rest := by
  induction text with
  | nil => rfl
  | cons c text ih =>
    rw [List.all_cons, Bool.and_eq_true] at htext
    have hquote : c ≠ '"' := by
      rintro rfl
      exact absurd htext.1 (by decide)
    rw [List.cons_append, scan, if_neg hquote, if_pos htext.1, ih htext.2]

theorem scan_escape (c : Char) (rest : List Char) : scan .inside (escape c ++ rest) = scan .inside rest := by
  have hescaped : ∀ code, scan .inside code = some .inside → scan .inside (code ++ rest) = scan .inside rest := by
    intro code hcode
    rw [scan_append, hcode, Option.bind_some]
  have hcontrol : ∀ n < 32, scan .inside (Json.escape (Char.ofNat n)) = some .inside := by decide
  by_cases hc : 32 ≤ c.toNat ∧ c ≠ '"' ∧ c ≠ '\\'
  · rw [escape, if_pos hc, List.singleton_append, scan, if_neg hc.2.1, if_neg hc.2.2]
  · apply hescaped
    rw [escape, if_neg hc]
    by_cases hlow : c.toNat < 32
    · have h := hcontrol c.toNat hlow
      rwa [Char.ofNat_toNat] at h
    · by_cases hquote : c = '"'
      · rw [hquote]
        decide
      · have hslash : c = '\\' := by
          by_contra hslash
          exact hc ⟨by omega, hquote, hslash⟩
        rw [hslash]
        decide

theorem scan_body (text rest : List Char) : scan .inside (body text ++ rest) = scan .outside rest := by
  induction text with
  | nil => rfl
  | cons c text ih => rw [body_cons, List.append_assoc, scan_escape, ih]

variable {c : Char}

theorem structural_of_numeric (hc : isNumeric c = true) : isStructural c = true := by
  simp only [isNumeric, isDigit, Bool.or_eq_true, Bool.and_eq_true, decide_eq_true_iff] at hc
  rcases hc with ((((hc | rfl) | rfl) | rfl) | rfl) | rfl
  · have hdigit : ∀ n, 48 ≤ n → n ≤ 57 → isStructural (Char.ofNat n) = true := by
      intro n hlow hhigh
      interval_cases n <;> decide
    have h := hdigit c.toNat hc.1 hc.2
    rwa [Char.ofNat_toNat] at h
  all_goals decide

theorem scan_token {token : List Char} (htoken : isNumber token = true) (rest : List Char) :
    scan .outside (token ++ rest) = scan .outside rest := by
  refine scan_structural (List.all_eq_true.mpr fun c hc => ?_) rest
  exact structural_of_numeric (List.all_eq_true.mp (isNumber_numeric htoken) c hc)

theorem scan_cons (hc : isStructural c = true) (rest : List Char) :
    scan .outside (c :: rest) = scan .outside rest := by
  have htext : [c].all isStructural = true := by
    rw [List.all_cons, hc]
    rfl
  exact scan_structural htext rest

theorem scan_key (key rest : List Char) : scan .outside ('"' :: (body key ++ ':' :: rest)) = scan .outside rest := by
  rw [scan, if_pos rfl, scan_body, scan_cons (by decide)]

mutual

theorem scan_render (v : Value) (rest : List Char) (hv : Written v) :
    scan .outside (render v ++ rest) = scan .outside rest := by
  match v with
  | .null => exact scan_structural (by decide) rest
  | .bool true => exact scan_structural (by decide) rest
  | .bool false => exact scan_structural (by decide) rest
  | .num token => exact scan_token hv rest
  | .str text => rw [render, List.cons_append, scan, if_pos rfl, scan_body]
  | .arr [] => exact scan_structural (by decide) rest
  | .arr (item :: others) =>
    rw [render, List.cons_append, List.append_assoc, scan_cons (by decide), scan_render item _ hv.1,
      scan_items others rest hv.2]
  | .obj [] => exact scan_structural (by decide) rest
  | .obj ((key, w) :: others) =>
    simp only [render, List.cons_append, List.append_assoc]
    rw [scan_cons (by decide), scan_key, scan_render w _ hv.2.1, scan_members others rest hv.2.2]

theorem scan_items (vs : List Value) (rest : List Char)
    (hvs : EachItem (fun _ => True) (fun token => isNumber token = true) vs) :
    scan .outside (renderItems vs ++ rest) = scan .outside rest := by
  match vs with
  | [] => exact scan_cons (by decide) rest
  | v :: vs =>
    rw [renderItems, List.cons_append, List.append_assoc, scan_cons (by decide), scan_render v _ hvs.1,
      scan_items vs rest hvs.2]

theorem scan_members (vs : List (List Char × Value)) (rest : List Char)
    (hvs : EachMember (fun _ => True) (fun token => isNumber token = true) vs) :
    scan .outside (renderMembers vs ++ rest) = scan .outside rest := by
  match vs with
  | [] => exact scan_cons (by decide) rest
  | (key, v) :: vs =>
    simp only [renderMembers, List.cons_append, List.append_assoc]
    rw [scan_cons (by decide), scan_key, scan_render v _ hvs.2.1, scan_members vs rest hvs.2.2]

end

/-! The reader goes on behind a string as `scan` does, whether both take the quote for the same. -/

variable {text rest : List Char}

section Follow

variable {Φ onText : List Char → Prop} (hchar : ∀ c rest, c ≠ '"' → c ≠ '\\' → Φ (c :: rest) → Φ rest)
  (hstring : ∀ rest read rest', Φ ('"' :: rest) → readString rest = some (read, rest') → Φ rest' ∧ onText read)

include hchar

theorem follow_append {used : List Char} (hused : ∀ c ∈ used, c ≠ '"' ∧ c ≠ '\\') {rest : List Char}
    (h : Φ (used ++ rest)) : Φ rest := by
  induction used with
  | nil => exact h
  | cons c used ih =>
    obtain ⟨hquote, hslash⟩ := hused c List.mem_cons_self
    exact ih (fun d hd => hused d (List.mem_cons_of_mem _ hd)) (hchar c _ hquote hslash h)

theorem follow_dropWhile {p : Char → Bool} (hp : ∀ c, p c = true → c ≠ '"' ∧ c ≠ '\\') {text : List Char} (h : Φ text) :
    Φ (text.dropWhile p) := by
  rw [← List.takeWhile_append_dropWhile (p := p) (l := text)] at h
  exact follow_append hchar (fun c hc => hp c (List.all_eq_true.mp List.all_takeWhile c hc)) h

theorem follow_skip {text : List Char} (h : Φ text) : Φ (skip text) := by
  refine follow_dropWhile hchar (fun c hc => ?_) h
  constructor <;> (rintro rfl; exact absurd hc (by decide))

theorem follow_scalar {v : Value} (h : Φ text) (hscalar : scalar text = some (v, rest)) :
    Φ rest ∧ v.Each onText (fun _ => True) := by
  rw [scalar] at hscalar
  split at hscalar
  · cases hscalar
    refine ⟨follow_dropWhile hchar (fun c hc => ?_) h, trivial⟩
    constructor <;> (rintro rfl; exact absurd hc (by decide))
  · obtain ⟨word, hword, heq⟩ := Option.map_eq_some_iff.mp hscalar
    cases heq
    have hplain : ∀ word ∈ words, ∀ c ∈ word.1, c ≠ '"' ∧ c ≠ '\\' := by
      simp [words]
    have heach : ∀ word ∈ words, word.2.Each onText (fun _ => True) := by
      simp [words, Value.Each]
    have hmem := List.mem_of_find?_eq_some hword
    have hfound := List.find?_some (p := fun word : List Char × Value => word.1.isPrefixOf text) hword
    rw [← List.prefix_iff_eq_append.mp (List.isPrefixOf_iff_prefix.mp hfound)] at h
    exact ⟨follow_append hchar (hplain word hmem) h, heach word hmem⟩

/-- What holds of a text that is read, with the four readers at once -/
structure Followed (Φ onText : List Char → Prop) (fuel : Nat) : Prop where
  value : ∀ {text v rest}, value fuel text = some (v, rest) → Φ text → Φ rest ∧ v.Each onText (fun _ => True)
  items : ∀ {text vs rest}, items fuel text = some (vs, rest) → Φ text → Φ rest ∧ EachItem onText (fun _ => True) vs
  member : ∀ {text m rest}, member fuel text = some (m, rest) → Φ text →
    Φ rest ∧ onText m.1 ∧ m.2.Each onText (fun _ => True)
  members : ∀ {text ms rest}, members fuel text = some (ms, rest) → Φ text →
    Φ rest ∧ EachMember onText (fun _ => True) ms

include hstring

section Step

variable {fuel : Nat} (ih : Followed Φ onText fuel)

include ih

theorem Followed.value_succ {v : Value} (h : JsonText.value (fuel + 1) text = some (v, rest))
    (htext : Φ text) : Φ rest ∧ v.Each onText (fun _ => True) := by
  rw [JsonText.value.eq_def] at h
  simp only at h
  split at h
  · obtain ⟨⟨read, mid⟩, hread, heq⟩ := Option.map_eq_some_iff.mp h
    cases heq
    exact hstring _ _ _ htext hread
  · have htail := follow_skip hchar (hchar _ _ (by decide) (by decide) htext)
    split at h
    · rename_i hclose
      cases h
      rw [hclose] at htail
      exact ⟨hchar _ _ (by decide) (by decide) htail, trivial⟩
    · split at h
      · cases h
      · rename_i item mid hitem
        obtain ⟨⟨others, last⟩, hothers, heq⟩ := Option.map_eq_some_iff.mp h
        cases heq
        obtain ⟨hmid, heach⟩ := ih.value hitem htail
        obtain ⟨hlast, heachs⟩ := ih.items hothers hmid
        exact ⟨hlast, heach, heachs⟩
  · have htail := follow_skip hchar (hchar _ _ (by decide) (by decide) htext)
    split at h
    · rename_i hclose
      cases h
      rw [hclose] at htail
      exact ⟨hchar _ _ (by decide) (by decide) htail, trivial⟩
    · split at h
      · cases h
      · rename_i first mid hfirst
        obtain ⟨⟨others, last⟩, hothers, heq⟩ := Option.map_eq_some_iff.mp h
        cases heq
        obtain ⟨hmid, hkey, heach⟩ := ih.member hfirst htail
        obtain ⟨hlast, heachs⟩ := ih.members hothers hmid
        exact ⟨hlast, hkey, heach, heachs⟩
  · exact follow_scalar hchar htext h

omit hstring in
theorem Followed.items_succ {vs : List Value}
    (h : JsonText.items (fuel + 1) text = some (vs, rest)) (htext : Φ text) :
    Φ rest ∧ EachItem onText (fun _ => True) vs := by
  have hskip := follow_skip hchar htext
  rw [JsonText.items] at h
  split at h
  · rename_i hclose
    cases h
    rw [hclose] at hskip
    exact ⟨hchar _ _ (by decide) (by decide) hskip, trivial⟩
  · rename_i tail hcomma
    rw [hcomma] at hskip
    have htail := follow_skip hchar (hchar _ _ (by decide) (by decide) hskip)
    split at h
    · cases h
    · rename_i item mid hitem
      obtain ⟨⟨others, last⟩, hothers, heq⟩ := Option.map_eq_some_iff.mp h
      cases heq
      obtain ⟨hmid, heach⟩ := ih.value hitem htail
      obtain ⟨hlast, heachs⟩ := ih.items hothers hmid
      exact ⟨hlast, heach, heachs⟩
  · cases h

theorem Followed.member_succ {m : List Char × Value}
    (h : JsonText.member (fuel + 1) text = some (m, rest)) (htext : Φ text) :
    Φ rest ∧ onText m.1 ∧ m.2.Each onText (fun _ => True) := by
  rw [JsonText.member.eq_def] at h
  simp only at h
  split at h
  · split at h
    · cases h
    · rename_i key mid hkey
      obtain ⟨hmid, honText⟩ := hstring _ _ _ htext hkey
      have hskip := follow_skip hchar hmid
      split at h
      · rename_i tail hcolon
        obtain ⟨⟨w, last⟩, hvalue, heq⟩ := Option.map_eq_some_iff.mp h
        cases heq
        rw [hcolon] at hskip
        obtain ⟨hlast, heach⟩ := ih.value hvalue (follow_skip hchar (hchar _ _ (by decide) (by decide) hskip))
        exact ⟨hlast, honText, heach⟩
      · cases h
  · cases h

omit hstring in
theorem Followed.members_succ {ms : List (List Char × Value)}
    (h : JsonText.members (fuel + 1) text = some (ms, rest)) (htext : Φ text) :
    Φ rest ∧ EachMember onText (fun _ => True) ms := by
  have hskip := follow_skip hchar htext
  rw [JsonText.members] at h
  split at h
  · rename_i hclose
    cases h
    rw [hclose] at hskip
    exact ⟨hchar _ _ (by decide) (by decide) hskip, trivial⟩
  · rename_i tail hcomma
    rw [hcomma] at hskip
    have htail := follow_skip hchar (hchar _ _ (by decide) (by decide) hskip)
    split at h
    · cases h
    · rename_i first mid hfirst
      obtain ⟨⟨others, last⟩, hothers, heq⟩ := Option.map_eq_some_iff.mp h
      cases heq
      obtain ⟨hmid, hkey, heach⟩ := ih.member hfirst htail
      obtain ⟨hlast, heachs⟩ := ih.members hothers hmid
      exact ⟨hlast, hkey, heach, heachs⟩
  · cases h

end Step

theorem followed (fuel : Nat) : Followed Φ onText fuel := by
  induction fuel with
  | zero => constructor <;> (intro _ _ _ h; cases h)
  | succ fuel ih =>
    exact ⟨ih.value_succ hchar hstring, ih.items_succ hchar, ih.member_succ hchar hstring, ih.members_succ hchar⟩

theorem follow_loads {text : List Char} {v : Value} (h : loads text = some v) (htext : Φ text) :
    Φ [] ∧ v.Each onText (fun _ => True) := by
  rw [loads] at h
  split at h
  · cases h
  · rename_i w rest hvalue
    split at h <;> cases h
    rename_i hend
    obtain ⟨hrest, heach⟩ := (followed hchar hstring _).value hvalue (follow_skip hchar htext)
    have hskip := follow_skip hchar hrest
    rw [hend] at hskip
    exact ⟨hskip, heach⟩

end Follow

theorem hexDigit_plain {n : Nat} (h : hexDigit c = some n) : c ≠ '"' ∧ c ≠ '\\' := by
  constructor <;> (rintro rfl; exact absurd h (by simp [hexDigit]))

section Strings

variable {place : Place}

theorem scan_plain (hc : c ≠ '"' ∧ c ≠ '\\') (rest : List Char) :
    scan .inside (c :: rest) = scan .inside rest := by
  rw [scan, if_neg hc.1, if_neg hc.2]

theorem scan_escaped (hc : isEscape c = true) (rest : List Char) :
    scan .escaped (c :: rest) = scan .inside rest := by
  rw [scan, if_pos hc]

theorem scan_hex4 {n : Nat} (h : hex4 text = some (n, rest)) :
    scan .inside text = scan .inside rest := by
  unfold hex4 at h
  split at h
  · split at h <;> cases h
    rename_i ha hb hc hd
    rw [scan_plain (hexDigit_plain ha), scan_plain (hexDigit_plain hb), scan_plain (hexDigit_plain hc),
      scan_plain (hexDigit_plain hd)]
  · cases h

theorem scan_unescape (h : unescape text = some (c, rest)) :
    scan .escaped text = scan .inside rest := by
  unfold unescape at h
  split at h
  on_goal 9 =>
    rw [scan_escaped (by decide)]
    split at h
    · cases h
    · rename_i hhigh
      rw [scan_hex4 hhigh]
      split at h
      · split at h
        · split at h
          · rename_i hlow
            split at h
            · obtain ⟨-, rfl⟩ := Prod.mk.inj (Option.some.inj h)
              rw [scan, if_neg (by decide), if_pos rfl, scan_escaped (by decide)]
              exact scan_hex4 hlow
            · cases h
          · cases h
        · cases h
      · split at h <;> cases h
        rfl
  all_goals cases h
  all_goals exact scan_escaped (by decide) _

/-- The reader of a string and `scan` both come to its end. -/
theorem scan_string {fuel : Nat} {text read rest : List Char} (h : string fuel text = some (read, rest)) :
    scan .inside text = scan .outside rest := by
  induction fuel generalizing text read with
  | zero => cases h
  | succ fuel ih =>
    rw [string.eq_def] at h
    simp only at h
    split at h
    · cases h
    · cases h
      rfl
    · split at h
      · cases h
      · rename_i hunescape
        obtain ⟨⟨tail, last⟩, htail, heq⟩ := Option.map_eq_some_iff.mp h
        cases heq
        exact (scan_unescape hunescape).trans (ih htail)
    · rename_i c tail hquote hslash
      split at h
      · cases h
      · obtain ⟨⟨more, last⟩, hmore, heq⟩ := Option.map_eq_some_iff.mp h
        cases heq
        rw [scan_plain ⟨hquote, hslash⟩]
        exact ih hmore

/-- Where `scan` is outside, the reader takes for a string what stands between two strings. -/
theorem scan_string_outside {fuel : Nat} {text read rest : List Char} (h : string fuel text = some (read, rest))
    (hscan : scan .outside text = some place) :
    scan .inside rest = some place ∧ ∀ c ∈ read, isStructural c = true := by
  induction fuel generalizing text read with
  | zero => cases h
  | succ fuel ih =>
    rw [string.eq_def] at h
    simp only at h
    split at h
    · cases h
    · cases h
      exact ⟨hscan, fun c hc => by cases hc⟩
    · exact absurd hscan (by simp [scan, isStructural])
    · rename_i c tail hquote hslash
      split at h
      · cases h
      · obtain ⟨⟨more, last⟩, hmore, heq⟩ := Option.map_eq_some_iff.mp h
        cases heq
        rw [scan, if_neg hquote] at hscan
        split at hscan
        · rename_i hc
          obtain ⟨hrest, hread⟩ := ih hmore hscan
          exact ⟨hrest, List.forall_mem_cons.mpr ⟨hc, hread⟩⟩
        · cases hscan

end Strings

section Cut

variable {text : List Char} {v : Value} {place : Place}

theorem scan_of_loads (h : loads text = some v) (hscan : scan .outside text = some place) : place = .outside := by
  have hchar : ∀ c rest, c ≠ '"' → c ≠ '\\' → scan .outside (c :: rest) = some place →
      scan .outside rest = some place := by
    intro c rest hquote _ hc
    rw [scan, if_neg hquote] at hc
    split at hc
    · exact hc
    · cases hc
  have hend := @follow_loads (fun text => scan .outside text = some place) (fun _ => True) hchar
    (fun rest read rest' hquote hread => ⟨by rw [← scan_string hread]; exact hquote, trivial⟩) _ _ h hscan
  exact (Option.some.inj hend.1).symm

/-- A text that begins inside a string: the reader takes for its strings what stands between strings. -/
theorem loads_inside (h : loads text = some v) (hscan : scan .inside text = some place) :
    place = .inside ∧ v.Each (fun text => ∀ c ∈ text, isStructural c = true) (fun _ => True) := by
  have hchar : ∀ c rest, c ≠ '"' → c ≠ '\\' → scan .inside (c :: rest) = some place →
      scan .inside rest = some place := by
    intro c rest hquote hslash hc
    rwa [scan_plain ⟨hquote, hslash⟩] at hc
  have hend := @follow_loads (fun text => scan .inside text = some place)
    (fun text => ∀ c ∈ text, isStructural c = true) hchar
    (fun rest read rest' hquote hread => scan_string_outside hread hquote) _ _ h hscan
  exact ⟨(Option.some.inj hend.1).symm, hend.2⟩

end Cut

/-- A character that stands in strings only, as it is -/
def Loose (c : Char) : Prop := c ≠ '"' ∧ c ≠ '\\' ∧ isStructural c = false ∧ isEscape c = false

theorem scan_loose (hc : Loose c) {place next : Place} {rest : List Char}
    (h : scan place (c :: rest) = some next) : place = .inside ∧ scan .inside rest = some next := by
  obtain ⟨hquote, hslash, hstructural, hescape⟩ := hc
  cases place with
  | outside =>
    rw [scan, if_neg hquote, if_neg (by simp [hstructural])] at h
    cases h
  | inside => exact ⟨rfl, by rwa [scan_plain ⟨hquote, hslash⟩] at h⟩
  | escaped =>
    rw [scan, if_neg (by simp [hescape])] at h
    cases h

/-- Where the pieces of a text begin and end, if it is cut inside its strings -/
def Pieces : Place → Place → List (List Char) → Prop
  | _, _, [] => False
  | place, next, [piece] => scan place piece = some next
  | place, next, piece :: pieces => scan place piece = some .inside ∧ Pieces .inside next pieces

theorem scan_step {place next : Place} {rest : List Char} (h : scan place (c :: rest) = some next) :
    ∃ place', scan place' rest = some next ∧ ∀ rest', scan place (c :: rest') = scan place' rest' := by
  cases place with
  | outside =>
    simp only [scan] at h ⊢
    split at h
    · exact ⟨_, h, fun _ => if_pos ‹_›⟩
    · split at h
      · exact ⟨_, h, fun _ => by rw [if_neg ‹_›, if_pos ‹_›]⟩
      · cases h
  | inside =>
    simp only [scan] at h ⊢
    split at h
    · exact ⟨_, h, fun _ => if_pos ‹_›⟩
    · split at h
      · exact ⟨_, h, fun _ => by rw [if_neg ‹_›, if_pos ‹_›]⟩
      · exact ⟨_, h, fun _ => by rw [if_neg ‹_›, if_neg ‹_›]⟩
  | escaped =>
    simp only [scan] at h ⊢
    split at h
    · exact ⟨_, h, fun _ => if_pos ‹_›⟩
    · cases h

theorem pieces_splitBy {sep : Char → Bool} (hsep : ∀ c, sep c = true → Loose c) {text : List Char}
    {place next : Place} (h : scan place text = some next) : Pieces place next (splitBy sep text) := by
  induction text generalizing place with
  | nil => exact h
  | cons c text ih =>
    obtain ⟨part, parts, hparts⟩ := exists_splitBy sep text
    by_cases hc : sep c = true
    · obtain ⟨rfl, hrest⟩ := scan_loose (hsep c hc) h
      have hpieces := ih hrest
      rw [splitBy_cons_sep hc]
      rw [hparts] at hpieces ⊢
      exact ⟨rfl, hpieces⟩
    · obtain ⟨place', hrest, hstep⟩ := scan_step h
      have hpieces := ih hrest
      rw [splitBy_cons (by simpa using hc) hparts]
      rw [hparts] at hpieces
      cases parts with
      | nil => exact (hstep part).trans hpieces
      | cons _ _ => exact ⟨(hstep part).trans hpieces.1, hpieces.2⟩

theorem scan_stripBy {space : Char → Bool} (hspace : ∀ c, space c = true → Loose c) {text : List Char}
    {place next : Place} (h : scan place text = some next) : scan place (stripBy space text) = some next := by
  have hleft : ∀ text, scan place text = some next → scan place (text.dropWhile space) = some next := by
    intro text
    induction text with
    | nil => exact id
    | cons c text ih =>
      intro h
      rw [List.dropWhile_cons]
      split
      · rename_i hc
        obtain ⟨rfl, hrest⟩ := scan_loose (hspace c hc) h
        exact ih hrest
      · exact h
  have hright : ∀ text, scan place text = some next → scan place (text.rdropWhile space) = some next := by
    intro text
    induction text using List.reverseRecOn with
    | nil => exact id
    | append_singleton text c ih =>
      intro h
      by_cases hc : space c = true
      · rw [List.rdropWhile_concat_pos _ _ _ hc]
        rw [scan_append, Option.bind_eq_some_iff] at h
        obtain ⟨mid, hmid, hlast⟩ := h
        obtain ⟨rfl, hnext⟩ := scan_loose (hspace c hc) hlast
        cases hnext
        exact ih hmid
      · rwa [List.rdropWhile_concat_neg _ _ _ hc]
  exact hright _ (hleft text h)

/-- A piece of a value's text that is cut inside its strings is read as a value whose texts are what stands
between strings, if it is read at all. -/
theorem loads_piece {space : Char → Bool} (hspace : ∀ c, space c = true → Loose c) {first : List Char}
    {pieces : List (List Char)} (hne : pieces ≠ []) (h : Pieces .outside .outside (first :: pieces)) :
    ∀ piece ∈ first :: pieces, ∀ v, loads (stripBy space piece) = some v →
      v.Each (fun text => ∀ c ∈ text, isStructural c = true) (fun _ => True) := by
  have hrest : ∀ pieces : List (List Char), Pieces .inside .outside pieces → ∀ piece ∈ pieces, ∀ v,
      loads (stripBy space piece) = some v →
      v.Each (fun text => ∀ c ∈ text, isStructural c = true) (fun _ => True) := by
    intro pieces
    induction pieces with
    | nil => exact fun _ piece hpiece => by cases hpiece
    | cons piece pieces ih =>
      intro h other hother v hv
      cases pieces with
      | nil =>
        rw [List.mem_singleton.mp hother] at hv
        cases (loads_inside hv (scan_stripBy hspace h)).1
      | cons next pieces =>
        rcases List.mem_cons.mp hother with rfl | hother
        · exact (loads_inside hv (scan_stripBy hspace h.1)).2
        · exact ih h.2 other hother v hv
  obtain ⟨next, pieces, rfl⟩ := List.exists_cons_of_ne_nil hne
  intro piece hpiece v hv
  rcases List.mem_cons.mp hpiece with rfl | hpiece
  · cases scan_of_loads hv (scan_stripBy hspace h.1)
  · exact hrest _ h.2 piece hpiece v hv

def isPrintable (c : Char) : Bool := 32 ≤ c.toNat && c.toNat < 127

theorem loose_of_not_printable (hc : isPrintable c = false) : Loose c := by
  have hlist : ∀ l : List Char, l.all isPrintable = true → c ∉ l := by
    intro l hl hmem
    rw [List.all_eq_true.mp hl c hmem] at hc
    cases hc
  refine ⟨?_, ?_, decide_eq_false (hlist _ (by decide)), decide_eq_false (hlist _ (by decide))⟩
  · rintro rfl
    cases hc
  · rintro rfl
    cases hc

theorem printable_of_numeric (hc : isNumeric c = true) : isPrintable c = true := by
  have hlist : "\x7b\x7d[]:,+-.0123456789eEnultrfas".toList.all isPrintable = true := by decide
  exact List.all_eq_true.mp hlist c (of_decide_eq_true (structural_of_numeric hc))

section Marks

variable {mark : Char → Bool} (hmark : ∀ c, isPrintable c = true → mark c = false)

include hmark

theorem unmarked_printable {text : List Char} (htext : text.all isPrintable = true) : ∀ c ∈ text, mark c = false :=
  fun c hc => hmark c (List.all_eq_true.mp htext c hc)

theorem unmarked_escape (c : Char) : (∀ d ∈ escape c, mark d = false) ↔ (32 ≤ c.toNat → mark c = false) := by
  have hcontrol : ∀ n < 32, (Json.escape (Char.ofNat n)).all isPrintable = true := by decide
  by_cases hc : 32 ≤ c.toNat ∧ c ≠ '"' ∧ c ≠ '\\'
  · rw [escape, if_pos hc]
    constructor
    · exact fun h _ => h c List.mem_cons_self
    · intro h d hd
      rw [List.mem_singleton.mp hd]
      exact h hc.1
  · rw [escape, if_neg hc]
    by_cases hlow : c.toNat < 32
    · have h := hcontrol c.toNat hlow
      rw [Char.ofNat_toNat] at h
      exact ⟨fun _ hge => absurd hge (by omega), fun _ => unmarked_printable hmark h⟩
    · by_cases hquote : c = '"'
      · rw [hquote]
        exact ⟨fun _ _ => hmark _ (by decide), fun _ => unmarked_printable hmark (by decide)⟩
      · have hslash : c = '\\' := by
          by_contra hslash
          exact hc ⟨by omega, hquote, hslash⟩
        rw [hslash]
        exact ⟨fun _ _ => hmark _ (by decide), fun _ => unmarked_printable hmark (by decide)⟩

/-- A text without marks of its own -/
abbrev Unmarked (mark : Char → Bool) (text : List Char) : Prop := ∀ c ∈ text, 32 ≤ c.toNat → mark c = false

theorem unmarked_body (text : List Char) : (∀ c ∈ body text, mark c = false) ↔ Unmarked mark text := by
  induction text with
  | nil => exact iff_of_true (unmarked_printable hmark (by decide)) fun c hc => by cases hc
  | cons c text ih =>
    rw [body_cons, List.forall_mem_append, unmarked_escape hmark, ih]
    exact (List.forall_mem_cons (p := fun c => 32 ≤ c.toNat → mark c = false)).symm

theorem unmarked_cons (hc : isPrintable c = true) (rest : List Char) :
    (∀ d ∈ c :: rest, mark d = false) ↔ ∀ d ∈ rest, mark d = false := by
  rw [List.forall_mem_cons]
  exact and_iff_right (hmark c hc)

mutual

theorem unmarked_render (v : Value) (hv : Written v) :
    (∀ c ∈ render v, mark c = false) ↔ v.Each (Unmarked mark) (fun _ => True) := by
  match v with
  | .null => exact iff_of_true (unmarked_printable hmark (by decide)) trivial
  | .bool true => exact iff_of_true (unmarked_printable hmark (by decide)) trivial
  | .bool false => exact iff_of_true (unmarked_printable hmark (by decide)) trivial
  | .num token =>
    refine iff_of_true (fun c hc => ?_) trivial
    exact hmark c (printable_of_numeric (List.all_eq_true.mp (isNumber_numeric hv) c hc))
  | .str text =>
    rw [render, unmarked_cons hmark (by decide), unmarked_body hmark]
    rfl
  | .arr [] => exact iff_of_true (unmarked_printable hmark (by decide)) trivial
  | .arr (item :: others) =>
    rw [render, unmarked_cons hmark (by decide), List.forall_mem_append, unmarked_render item hv.1,
      unmarked_items others hv.2]
    rfl
  | .obj [] => exact iff_of_true (unmarked_printable hmark (by decide)) trivial
  | .obj ((key, w) :: others) =>
    rw [render, unmarked_cons hmark (by decide), List.cons_append, unmarked_cons hmark (by decide),
      List.forall_mem_append, unmarked_body hmark, unmarked_cons hmark (by decide), List.forall_mem_append,
      unmarked_render w hv.2.1, unmarked_members others hv.2.2]
    rfl

theorem unmarked_items (vs : List Value) (hvs : EachItem (fun _ => True) (fun token => isNumber token = true) vs) :
    (∀ c ∈ renderItems vs, mark c = false) ↔ EachItem (Unmarked mark) (fun _ => True) vs := by
  match vs with
  | [] => exact iff_of_true (unmarked_printable hmark (by decide)) trivial
  | v :: vs =>
    rw [renderItems, unmarked_cons hmark (by decide), List.forall_mem_append, unmarked_render v hvs.1,
      unmarked_items vs hvs.2]
    rfl

theorem unmarked_members (vs : List (List Char × Value))
    (hvs : EachMember (fun _ => True) (fun token => isNumber token = true) vs) :
    (∀ c ∈ renderMembers vs, mark c = false) ↔ EachMember (Unmarked mark) (fun _ => True) vs := by
  match vs with
  | [] => exact iff_of_true (unmarked_printable hmark (by decide)) trivial
  | (key, v) :: vs =>
    rw [renderMembers, unmarked_cons hmark (by decide), List.cons_append, unmarked_cons hmark (by decide),
      List.forall_mem_append, unmarked_body hmark, unmarked_cons hmark (by decide), List.forall_mem_append,
      unmarked_render v hvs.2.1, unmarked_members vs hvs.2.2]
    rfl

end

end Marks

end PrivaCloud.Framework.JsonText
