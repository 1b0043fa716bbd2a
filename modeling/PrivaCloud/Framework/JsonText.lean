import Mathlib.Data.List.Infix
import Mathlib.Tactic.IntervalCases
import PrivaCloud.Framework.Json

/-!
# JSON texts and their reader

The values that a JSON text stands for, the compact text of a value, which leaves what is not ASCII as it
is, and the reader of a text. A number is kept as its text and an object as its pairs. Nothing here names a
particular program.
-/

namespace PrivaCloud.Framework.JsonText

inductive Value
  | null
  | bool (b : Bool)
  | num (token : List Char)
  | str (text : List Char)
  | arr (items : List Value)
  | obj (members : List (List Char × Value))

mutual

/-- What holds of each text of a value, keys included, and of each of its numbers -/
def Value.Each (onText onToken : List Char → Prop) : Value → Prop
  | .null | .bool _ => True
  | .num token => onToken token
  | .str text => onText text
  | .arr items => EachItem onText onToken items
  | .obj members => EachMember onText onToken members

def EachItem (onText onToken : List Char → Prop) : List Value → Prop
  | [] => True
  | item :: items => item.Each onText onToken ∧ EachItem onText onToken items

def EachMember (onText onToken : List Char → Prop) : List (List Char × Value) → Prop
  | [] => True
  | member :: members => onText member.1 ∧ member.2.Each onText onToken ∧ EachMember onText onToken members

end

section Each

variable {onText onText' onToken onToken' : List Char → Prop}

mutual

theorem Value.Each.imp (htext : ∀ text, onText text → onText' text) (htoken : ∀ token, onToken token → onToken' token)
    (v : Value) (h : v.Each onText onToken) : v.Each onText' onToken' := by
  match v with
  | .null => trivial
  | .bool _ => trivial
  | .num token => exact htoken token h
  | .str text => exact htext text h
  | .arr items => exact EachItem.imp htext htoken items h
  | .obj members => exact EachMember.imp htext htoken members h

theorem EachItem.imp (htext : ∀ text, onText text → onText' text) (htoken : ∀ token, onToken token → onToken' token)
    (vs : List Value) (h : EachItem onText onToken vs) : EachItem onText' onToken' vs := by
  match vs with
  | [] => trivial
  | v :: vs => exact ⟨Value.Each.imp htext htoken v h.1, EachItem.imp htext htoken vs h.2⟩

theorem EachMember.imp (htext : ∀ text, onText text → onText' text)
    (htoken : ∀ token, onToken token → onToken' token) (vs : List (List Char × Value))
    (h : EachMember onText onToken vs) : EachMember onText' onToken' vs := by
  match vs with
  | [] => trivial
  | (key, v) :: vs =>
    exact ⟨htext key h.1, Value.Each.imp htext htoken v h.2.1, EachMember.imp htext htoken vs h.2.2⟩

end

end Each

/-- A character of a string; control characters, the quote and the backslash are escaped. -/
def escape (c : Char) : List Char := if 32 ≤ c.toNat ∧ c ≠ '"' ∧ c ≠ '\\' then [c] else Json.escape c

/-- The inside of a string and its closing quote -/
def body (text : List Char) : List Char := text.flatMap escape ++ ['"']

mutual

def render : Value → List Char
  | .null => ['n', 'u', 'l', 'l']
  | .bool true => ['t', 'r', 'u', 'e']
  | .bool false => ['f', 'a', 'l', 's', 'e']
  | .num token => token
  | .str text => '"' :: body text
  | .arr [] => ['[', ']']
  | .arr (item :: items) => '[' :: (render item ++ renderItems items)
  | .obj [] => ['\x7b', '\x7d']
  | .obj ((key, value) :: members) => '\x7b' :: ('"' :: body key ++ ':' :: (render value ++ renderMembers members))

/-- The items that come behind one, and the end of the array -/
def renderItems : List Value → List Char
  | [] => [']']
  | item :: items => ',' :: (render item ++ renderItems items)

def renderMembers : List (List Char × Value) → List Char
  | [] => ['\x7d']
  | (key, value) :: members => ',' :: ('"' :: body key ++ ':' :: (render value ++ renderMembers members))

end

def isDigit (c : Char) : Bool := '0' ≤ c && c ≤ '9'

def isNumeric (c : Char) : Bool := isDigit c || c = '-' || c = '+' || c = '.' || c = 'e' || c = 'E'

def isExponent : List Char → Bool
  | [] => true
  | c :: rest =>
    (c = 'e' || c = 'E') &&
      match rest with
      | sign :: digits =>
        if sign = '-' ∨ sign = '+' then digits ≠ [] && digits.all isDigit else (sign :: digits).all isDigit
      | [] => false

def isFraction : List Char → Bool
  | '.' :: rest => rest.takeWhile isDigit ≠ [] && isExponent (rest.dropWhile isDigit)
  | rest => isExponent rest

/-- The whole part has no leading zero; an integer of more than 4300 digits is refused. -/
def isUnsigned (token : List Char) : Bool :=
  match token.takeWhile isDigit with
  | [] => false
  | first :: digits =>
    (first ≠ '0' || digits = []) && isFraction (token.dropWhile isDigit) &&
      (token.dropWhile isDigit ≠ [] || digits.length < 4300)

def isNumber (token : List Char) : Bool :=
  token.all isNumeric &&
    match token with
    | '-' :: rest => isUnsigned rest
    | rest => isUnsigned rest

def isSpace (c : Char) : Bool := c = ' ' || c = '\t' || c = '\n' || c = '\r'

def skip (text : List Char) : List Char := text.dropWhile isSpace

def hexDigit (c : Char) : Option Nat :=
  if '0' ≤ c ∧ c ≤ '9' then some (c.toNat - '0'.toNat)
  else if 'a' ≤ c ∧ c ≤ 'f' then some (c.toNat - 'a'.toNat + 10)
  else if 'A' ≤ c ∧ c ≤ 'F' then some (c.toNat - 'A'.toNat + 10)
  else none

/-- The four digits of `\u` -/
def hex4 : List Char → Option (Nat × List Char)
  | a :: b :: c :: d :: rest =>
    match hexDigit a, hexDigit b, hexDigit c, hexDigit d with
    | some a, some b, some c, some d => some (((a * 16 + b) * 16 + c) * 16 + d, rest)
    | _, _, _, _ => none
  | _ => none

/-- The character behind a backslash; a pair of surrogates is one, a lone surrogate is none. -/
def unescape : List Char → Option (Char × List Char)
  | '"' :: rest => some ('"', rest)
  | '\\' :: rest => some ('\\', rest)
  | '/' :: rest => some ('/', rest)
  | 'b' :: rest => some (Char.ofNat 8, rest)
  | 'f' :: rest => some (Char.ofNat 12, rest)
  | 'n' :: rest => some ('\n', rest)
  | 'r' :: rest => some ('\r', rest)
  | 't' :: rest => some ('\t', rest)
  | 'u' :: rest =>
    match hex4 rest with
    | none => none
    | some (high, rest) =>
      if 0xd800 ≤ high ∧ high < 0xdc00 then
        match rest with
        | '\\' :: 'u' :: rest =>
          match hex4 rest with
          | some (low, rest) =>
            if 0xdc00 ≤ low ∧ low < 0xe000 then
              some (Char.ofNat (0x10000 + (high - 0xd800) * 0x400 + (low - 0xdc00)), rest)
            else none
          | none => none
        | _ => none
      else if 0xdc00 ≤ high ∧ high < 0xe000 then none
      else some (Char.ofNat high, rest)
  | _ => none

/-- The inside of a string, up to its closing quote; control characters are refused. -/
def string : Nat → List Char → Option (List Char × List Char)
  | 0, _ => none
  | fuel + 1, text =>
    match text with
    | [] => none
    | '"' :: rest => some ([], rest)
    | '\\' :: rest =>
      match unescape rest with
      | none => none
      | some (c, rest) => (string fuel rest).map fun read => (c :: read.1, read.2)
    | c :: rest => if c.toNat < 32 then none else (string fuel rest).map fun read => (c :: read.1, read.2)

def readString (text : List Char) : Option (List Char × List Char) := string text.length text

def words : List (List Char × Value) :=
  [(['n', 'u', 'l', 'l'], .null), (['t', 'r', 'u', 'e'], .bool true), (['f', 'a', 'l', 's', 'e'], .bool false),
    (['N', 'a', 'N'], .num ['N', 'a', 'N']),
    (['I', 'n', 'f', 'i', 'n', 'i', 't', 'y'], .num ['I', 'n', 'f', 'i', 'n', 'i', 't', 'y']),
    (['-', 'I', 'n', 'f', 'i', 'n', 'i', 't', 'y'], .num ['-', 'I', 'n', 'f', 'i', 'n', 'i', 't', 'y'])]

def literal (text : List Char) : Option (Value × List Char) :=
  (words.find? fun word => word.1.isPrefixOf text).map fun word => (word.2, text.drop word.1.length)

def scalar (text : List Char) : Option (Value × List Char) :=
  if isNumber (text.takeWhile isNumeric) then some (.num (text.takeWhile isNumeric), text.dropWhile isNumeric)
  else literal text

mutual

/-- The value that a text begins with, and what follows it. Every call is on a shorter text. -/
def value : Nat → List Char → Option (Value × List Char)
  | 0, _ => none
  | fuel + 1, text =>
    match text with
    | '"' :: rest => (readString rest).map fun read => (.str read.1, read.2)
    | '[' :: rest =>
      match skip rest with
      | ']' :: rest => some (.arr [], rest)
      | rest =>
        match value fuel rest with
        | none => none
        | some (item, rest) => (items fuel rest).map fun read => (.arr (item :: read.1), read.2)
    | '\x7b' :: rest =>
      match skip rest with
      | '\x7d' :: rest => some (.obj [], rest)
      | rest =>
        match member fuel rest with
        | none => none
        | some (first, rest) => (members fuel rest).map fun read => (.obj (first :: read.1), read.2)
    | text => scalar text

/-- The items that come behind one, up to the end of the array -/
def items : Nat → List Char → Option (List Value × List Char)
  | 0, _ => none
  | fuel + 1, text =>
    match skip text with
    | ']' :: rest => some ([], rest)
    | ',' :: rest =>
      match value fuel (skip rest) with
      | none => none
      | some (item, rest) => (items fuel rest).map fun read => (item :: read.1, read.2)
    | _ => none

def member : Nat → List Char → Option ((List Char × Value) × List Char)
  | 0, _ => none
  | fuel + 1, text =>
    match text with
    | '"' :: rest =>
      match readString rest with
      | none => none
      | some (key, rest) =>
        match skip rest with
        | ':' :: rest => (value fuel (skip rest)).map fun read => ((key, read.1), read.2)
        | _ => none
    | _ => none

/-- The members that come behind one, up to the end of the object -/
def members : Nat → List Char → Option (List (List Char × Value) × List Char)
  | 0, _ => none
  | fuel + 1, text =>
    match skip text with
    | '\x7d' :: rest => some ([], rest)
    | ',' :: rest =>
      match member fuel (skip rest) with
      | none => none
      | some (next, rest) => (members fuel rest).map fun read => (next :: read.1, read.2)
    | _ => none

end

/-- `json.loads`; nothing where it raises. -/
def loads (text : List Char) : Option Value :=
  match value (text.length + 1) (skip text) with
  | none => none
  | some (v, rest) => if skip rest = [] then some v else none

variable {c : Char}

theorem unescape_escape (hc : ¬ (32 ≤ c.toNat ∧ c ≠ '"' ∧ c ≠ '\\')) :
    ∃ code, escape c = '\\' :: code ∧ code ≠ [] ∧ ∀ rest, unescape (code ++ rest) = some (c, rest) := by
  have hcontrol : ∀ n < 32, ∃ code, Json.escape (Char.ofNat n) = '\\' :: code ∧ code ≠ [] ∧
      ∀ rest, unescape (code ++ rest) = some (Char.ofNat n, rest) := by
    intro n hn
    interval_cases n <;> exact ⟨_, rfl, by simp, fun rest => rfl⟩
  rw [escape, if_neg hc]
  by_cases hlow : c.toNat < 32
  · have h := hcontrol c.toNat hlow
    rwa [Char.ofNat_toNat] at h
  · by_cases hquote : c = '"'
    · rw [hquote]
      exact ⟨['"'], rfl, by simp, fun rest => rfl⟩
    · have hslash : c = '\\' := by
        by_contra hslash
        exact hc ⟨by omega, hquote, hslash⟩
      rw [hslash]
      exact ⟨['\\'], rfl, by simp, fun rest => rfl⟩

theorem string_plain (hc : 32 ≤ c.toNat ∧ c ≠ '"' ∧ c ≠ '\\') (fuel : Nat) (rest : List Char) :
    string (fuel + 1) (c :: rest) = (string fuel rest).map fun read => (c :: read.1, read.2) := by
  obtain ⟨hlow, hquote, hslash⟩ := hc
  rw [string]
  · rw [if_neg (by omega)]
  · exact fun h => hquote h
  · exact fun h => hslash h

theorem escape_ne_nil (c : Char) : escape c ≠ [] := by
  by_cases hc : 32 ≤ c.toNat ∧ c ≠ '"' ∧ c ≠ '\\'
  · rw [escape, if_pos hc]
    exact List.cons_ne_nil _ _
  · obtain ⟨code, hcode, -⟩ := unescape_escape hc
    rw [hcode]
    exact List.cons_ne_nil _ _

theorem string_escape (c : Char) (fuel : Nat) (rest : List Char) :
    string (fuel + 1) (escape c ++ rest) = (string fuel rest).map fun read => (c :: read.1, read.2) := by
  by_cases hc : 32 ≤ c.toNat ∧ c ≠ '"' ∧ c ≠ '\\'
  · rw [escape, if_pos hc]
    exact string_plain hc fuel rest
  · obtain ⟨code, hcode, -, hunescape⟩ := unescape_escape hc
    rw [hcode, List.cons_append, string, hunescape]

theorem body_cons (c : Char) (text : List Char) : body (c :: text) = escape c ++ body text := by
  rw [body, body, List.flatMap_cons, List.append_assoc]

theorem string_body (text rest : List Char) {fuel : Nat} (hfuel : (body text).length ≤ fuel) :
    string fuel (body text ++ rest) = some (text, rest) := by
  induction text generalizing fuel with
  | nil =>
    have hpos : (body []).length = 1 := rfl
    obtain ⟨fuel, rfl⟩ := Nat.exists_eq_add_of_le' (hpos ▸ hfuel)
    rfl
  | cons c text ih =>
    have hescape := List.length_pos_of_ne_nil (escape_ne_nil c)
    rw [body_cons, List.length_append] at hfuel
    obtain ⟨fuel, rfl⟩ := Nat.exists_eq_add_of_le' (show 1 ≤ fuel by omega)
    rw [body_cons, List.append_assoc, string_escape, ih (by omega), Option.map_some]

theorem readString_body (text rest : List Char) : readString (body text ++ rest) = some (text, rest) :=
  string_body text rest (by rw [List.length_append]; omega)

/-! A value is read up to what follows it, unless that goes on as a number does. -/

def Ends (rest : List Char) : Prop := ∀ c ∈ rest.head?, isNumeric c = false ∧ isSpace c = false

def Written (v : Value) : Prop := v.Each (fun _ => True) (fun token => isNumber token = true)

theorem written_empty : Written (.obj []) := by
  rw [Written, Value.Each, EachMember]
  trivial

variable {mid token : List Char}

theorem takeWhile_token {rest : List Char} (htoken : token.all isNumeric = true) (hrest : Ends rest) :
    (token ++ rest).takeWhile isNumeric = token ∧ (token ++ rest).dropWhile isNumeric = rest := by
  have hall : ∀ c ∈ token, isNumeric c = true := List.all_eq_true.mp htoken
  have hhead : rest.takeWhile isNumeric = [] ∧ rest.dropWhile isNumeric = rest := by
    cases rest with
    | nil => exact ⟨rfl, rfl⟩
    | cons c rest =>
      have hc := (hrest c rfl).1
      exact ⟨List.takeWhile_cons_of_neg (by simp [hc]), List.dropWhile_cons_of_neg (by simp [hc])⟩
  rw [List.takeWhile_append_of_pos hall, List.dropWhile_append_of_pos hall, hhead.1, hhead.2, List.append_nil]
  exact ⟨rfl, rfl⟩

theorem isNumber_numeric (htoken : isNumber token = true) : token.all isNumeric = true :=
  (Bool.and_eq_true_iff.mp htoken).1

theorem scalar_token {rest : List Char} (htoken : isNumber token = true) (hrest : Ends rest) :
    scalar (token ++ rest) = some (.num token, rest) := by
  obtain ⟨htake, hdrop⟩ := takeWhile_token (isNumber_numeric htoken) hrest
  rw [scalar, htake, if_pos htoken, hdrop]

theorem exists_token (htoken : isNumber token = true) :
    ∃ c rest, token = c :: rest ∧ isNumeric c = true := by
  cases token with
  | nil => cases htoken
  | cons c rest =>
    exact ⟨c, rest, rfl, List.all_eq_true.mp (isNumber_numeric htoken) c List.mem_cons_self⟩

theorem value_scalar (hc : c ≠ '"' ∧ c ≠ '[' ∧ c ≠ '\x7b') (fuel : Nat) (rest : List Char) :
    value (fuel + 1) (c :: rest) = scalar (c :: rest) := by
  rw [value]
  · exact fun _ h => hc.1 (List.cons.inj h).1
  · exact fun _ h => hc.2.1 (List.cons.inj h).1
  · exact fun _ h => hc.2.2 (List.cons.inj h).1

theorem skip_cons (hc : isSpace c = false) (rest : List Char) : skip (c :: rest) = c :: rest :=
  List.dropWhile_cons_of_neg (by simp [hc])

theorem ends_cons (hc : isNumeric c = false ∧ isSpace c = false) (rest : List Char) : Ends (c :: rest) := by
  intro d hd
  cases hd
  exact hc

theorem ends_renderItems (items : List Value) (rest : List Char) : Ends (renderItems items ++ rest) := by
  cases items <;> rw [renderItems] <;> exact ends_cons (by decide) _

theorem ends_renderMembers (members : List (List Char × Value)) (rest : List Char) :
    Ends (renderMembers members ++ rest) := by
  rcases members with _ | ⟨⟨key, v⟩, members⟩ <;> rw [renderMembers] <;> exact ends_cons (by decide) _

variable {v : Value}

theorem exists_render (hv : Written v) :
    ∃ c rest, render v = c :: rest ∧ isSpace c = false ∧ c ≠ ']' := by
  cases v with
  | null => exact ⟨_, _, rfl, by decide, by decide⟩
  | bool b => cases b <;> exact ⟨_, _, rfl, by decide, by decide⟩
  | num token =>
    obtain ⟨c, rest, hc, hnumeric⟩ := exists_token hv
    refine ⟨c, rest, hc, ?_, ?_⟩
    · by_contra hspace
      simp only [isSpace, Bool.not_eq_false, Bool.or_eq_true, decide_eq_true_iff] at hspace
      rcases hspace with ((rfl | rfl) | rfl) | rfl <;> cases hnumeric
    · rintro rfl
      cases hnumeric
  | str text => exact ⟨_, _, rfl, by decide, by decide⟩
  | arr items => cases items <;> exact ⟨_, _, rfl, by decide, by decide⟩
  | obj members => rcases members with _ | ⟨⟨key, v⟩, members⟩ <;> exact ⟨_, _, rfl, by decide, by decide⟩

section Read

variable (fuel : Nat) {text rest : List Char}

theorem value_array {item : Value} {read : List Value} (hne : ∀ rest, skip text ≠ ']' :: rest)
    (hitem : value fuel (skip text) = some (item, mid)) (hitems : items fuel mid = some (read, rest)) :
    value (fuel + 1) ('[' :: text) = some (.arr (item :: read), rest) := by
  rw [value]
  split
  · rename_i heq
    exact absurd heq (hne _)
  · rw [hitem]
    simp only [hitems, Option.map_some]

theorem value_object {first : List Char × Value} {read : List (List Char × Value)}
    (hne : ∀ rest, skip text ≠ '\x7d' :: rest) (hfirst : member fuel (skip text) = some (first, mid))
    (hmembers : members fuel mid = some (read, rest)) :
    value (fuel + 1) ('\x7b' :: text) = some (.obj (first :: read), rest) := by
  rw [value]
  split
  · rename_i heq
    exact absurd heq (hne _)
  · rw [hfirst]
    simp only [hmembers, Option.map_some]

theorem items_comma {item : Value} {read : List Value}
    (hitem : value fuel (skip text) = some (item, mid)) (hitems : items fuel mid = some (read, rest)) :
    items (fuel + 1) (',' :: text) = some (item :: read, rest) := by
  rw [items, skip_cons (by decide)]
  simp only [hitem, hitems, Option.map_some]

theorem member_colon {key : List Char} (hkey : readString text = some (key, ':' :: mid))
    (hvalue : value fuel (skip mid) = some (v, rest)) : member (fuel + 1) ('"' :: text) = some ((key, v), rest) := by
  rw [member]
  simp only [hkey, skip_cons (show isSpace ':' = false by decide), hvalue, Option.map_some]

theorem members_comma {first : List Char × Value} {read : List (List Char × Value)}
    (hfirst : member fuel (skip text) = some (first, mid)) (hmembers : members fuel mid = some (read, rest)) :
    members (fuel + 1) (',' :: text) = some (first :: read, rest) := by
  rw [members, skip_cons (by decide)]
  simp only [hfirst, hmembers, Option.map_some]

end Read

theorem skip_render (hv : Written v) (rest : List Char) : skip (render v ++ rest) = render v ++ rest := by
  obtain ⟨c, tail, hc, hspace, -⟩ := exists_render hv
  rw [hc, List.cons_append, skip_cons hspace]

theorem member_render (key : List Char) {rest : List Char} {fuel : Nat} (hv : Written v)
    (hread : value fuel (render v ++ rest) = some (v, rest)) :
    member (fuel + 1) ('"' :: body key ++ ':' :: render v ++ rest) = some ((key, v), rest) := by
  rw [← skip_render hv] at hread
  rw [List.append_assoc, List.cons_append, List.cons_append]
  exact member_colon fuel (readString_body key _) hread

mutual

theorem value_render (v : Value) (rest : List Char) (fuel : Nat) (hv : Written v) (hrest : Ends rest)
    (hfuel : (render v).length ≤ fuel) : value fuel (render v ++ rest) = some (v, rest) := by
  obtain ⟨c, tail, hc, -⟩ := exists_render hv
  obtain ⟨fuel, rfl⟩ := Nat.exists_eq_add_of_le' (show 1 ≤ fuel by rw [hc, List.length_cons] at hfuel; omega)
  match v with
  | .null => rfl
  | .bool true => rfl
  | .bool false => rfl
  | .num token =>
    obtain ⟨d, more, htoken, hnumeric⟩ := exists_token hv
    have hd : d ≠ '"' ∧ d ≠ '[' ∧ d ≠ '\x7b' := by
      refine ⟨?_, ?_, ?_⟩ <;> (rintro rfl; cases hnumeric)
    have hscalar := scalar_token hv hrest
    rw [htoken, List.cons_append] at hscalar
    rw [render, htoken, List.cons_append, value_scalar hd, hscalar]
  | .str text =>
    rw [render, List.cons_append, value, readString_body, Option.map_some]
  | .arr [] => rfl
  | .arr (item :: others) =>
    obtain ⟨hitem, hothers⟩ := hv
    rw [render, List.length_cons, List.length_append] at hfuel
    have hskip := skip_render hitem (renderItems others ++ rest)
    have hread := value_render item (renderItems others ++ rest) fuel hitem (ends_renderItems others rest) (by omega)
    rw [← hskip] at hread
    rw [render, List.cons_append, List.append_assoc]
    refine value_array fuel ?_ hread (items_render others rest fuel hothers (by omega))
    intro after heq
    obtain ⟨d, more, hd, -, hclose⟩ := exists_render hitem
    rw [hskip, hd] at heq
    exact hclose (List.cons.inj heq).1
  | .obj [] => rfl
  | .obj ((key, w) :: others) =>
    obtain ⟨-, hw, hothers⟩ := hv
    rw [render, List.length_cons, List.length_append, List.length_cons, List.length_cons, List.length_append] at hfuel
    obtain ⟨fuel, rfl⟩ := Nat.exists_eq_add_of_le' (show 1 ≤ fuel by omega)
    have hread := member_render key hw
      (value_render w (renderMembers others ++ rest) fuel hw (ends_renderMembers others rest) (by omega))
    rw [render, List.cons_append, ← List.cons_append (a := ':'), ← List.append_assoc, List.append_assoc]
    rw [List.cons_append] at hread ⊢
    exact value_object (fuel + 1) (fun _ heq => by cases heq) hread (members_render others rest (fuel + 1) hothers (by omega))

theorem items_render (vs : List Value) (rest : List Char) (fuel : Nat)
    (hvs : EachItem (fun _ => True) (fun token => isNumber token = true) vs)
    (hfuel : (renderItems vs).length ≤ fuel) : items fuel (renderItems vs ++ rest) = some (vs, rest) := by
  match vs with
  | [] =>
    obtain ⟨fuel, rfl⟩ := Nat.exists_eq_add_of_le' (show 1 ≤ fuel from hfuel)
    rfl
  | v :: vs =>
    obtain ⟨hv, hvs⟩ := hvs
    rw [renderItems, List.length_cons, List.length_append] at hfuel
    obtain ⟨fuel, rfl⟩ := Nat.exists_eq_add_of_le' (show 1 ≤ fuel by omega)
    have hread := value_render v (renderItems vs ++ rest) fuel hv (ends_renderItems vs rest) (by omega)
    rw [← skip_render hv] at hread
    rw [renderItems, List.cons_append, List.append_assoc]
    exact items_comma fuel hread (items_render vs rest fuel hvs (by omega))

theorem members_render (vs : List (List Char × Value)) (rest : List Char) (fuel : Nat)
    (hvs : EachMember (fun _ => True) (fun token => isNumber token = true) vs)
    (hfuel : (renderMembers vs).length ≤ fuel) : members fuel (renderMembers vs ++ rest) = some (vs, rest) := by
  match vs with
  | [] =>
    obtain ⟨fuel, rfl⟩ := Nat.exists_eq_add_of_le' (show 1 ≤ fuel from hfuel)
    rfl
  | (key, v) :: vs =>
    obtain ⟨-, hv, hvs⟩ := hvs
    rw [renderMembers, List.length_cons, List.length_append, List.length_cons, List.length_cons,
      List.length_append] at hfuel
    obtain ⟨fuel, rfl⟩ := Nat.exists_eq_add_of_le' (show 2 ≤ fuel by omega)
    have hread := member_render key hv
      (value_render v (renderMembers vs ++ rest) fuel hv (ends_renderMembers vs rest) (by omega))
    rw [renderMembers, List.cons_append, ← List.cons_append (a := ':'), ← List.append_assoc, List.append_assoc]
    rw [List.cons_append] at hread ⊢
    exact members_comma (fuel + 1) hread (members_render vs rest (fuel + 1) hvs (by omega))

end

theorem loads_render (hv : Written v) : loads (render v) = some v := by
  have hread := value_render v [] ((render v).length + 1) hv (fun _ h => by cases h) (Nat.le_succ _)
  have hskip := skip_render hv []
  rw [List.append_nil] at hread hskip
  rw [loads, hskip, hread]
  rfl

end PrivaCloud.Framework.JsonText
