import Mathlib.Data.List.Sort
import PrivaCloud.Framework.Sha256

/-!
# JSON texts

The texts that `json.dumps` writes. A value is the text that it becomes in a layout, at a depth.
-/

namespace PrivaCloud.Framework

/-- The separators of `json.dumps`, and the indentation where there is one. -/
structure JsonLayout where
  item : List Char
  key : List Char
  indent : Option Nat := none

namespace JsonLayout

/-- `separators=(",", ":")` -/
def compact : JsonLayout where
  item := [',']
  key := [':']

def plain : JsonLayout where
  item := [',', ' ']
  key := [':', ' ']

/-- `indent=n` -/
def indented (n : Nat) : JsonLayout where
  item := [',']
  key := [':', ' ']
  indent := some n

/-- The text of an array or of an object from the texts of its parts. -/
def enclose (layout : JsonLayout) (depth : Nat) (left right : Char) (parts : List (List Char)) : List Char :=
  if parts.isEmpty then [left, right]
  else
    match layout.indent with
    | none => left :: layout.item.intercalate parts ++ [right]
    | some n =>
      let line (k : Nat) := '\n' :: List.replicate (n * k) ' '
      left :: line (depth + 1) ++ (layout.item ++ line (depth + 1)).intercalate parts ++ line depth ++ [right]

end JsonLayout

def Json : Type := JsonLayout → Nat → List Char

namespace Json

/-- A character of a string, as `ensure_ascii` writes it. -/
def escape (c : Char) : List Char :=
  if c = '"' then ['\\', '"']
  else if c = '\\' then ['\\', '\\']
  else if c = '\n' then ['\\', 'n']
  else if c = '\r' then ['\\', 'r']
  else if c = '\t' then ['\\', 't']
  else if c.toNat = 8 then ['\\', 'b']
  else if c.toNat = 12 then ['\\', 'f']
  else if 32 ≤ c.toNat ∧ c.toNat ≤ 126 then [c]
  else if c.toNat < 0x10000 then '\\' :: 'u' :: Sha256.hex 4 c.toNat
  else
    '\\' :: 'u' :: Sha256.hex 4 (0xd800 + (c.toNat - 0x10000) / 0x400) ++
      '\\' :: 'u' :: Sha256.hex 4 (0xdc00 + (c.toNat - 0x10000) % 0x400)

def quote (text : List Char) : List Char := '"' :: text.flatMap escape ++ ['"']

def int (n : Int) : Json := fun _ _ => (toString n).toList

def text (chars : List Char) : Json := fun _ _ => quote chars

def str (s : String) : Json := text s.toList

def arr (items : List Json) : Json := fun layout depth =>
  layout.enclose depth '[' ']' (items.map fun item => item layout (depth + 1))

/-- An object, with `sort_keys`. -/
def obj (members : List (String × Json)) : Json := fun layout depth =>
  layout.enclose depth '\x7b' '\x7d' ((members.insertionSort fun a b => a.1 ≤ b.1).map fun member =>
    quote member.1.toList ++ layout.key ++ member.2 layout (depth + 1))

def dumps (value : Json) (layout : JsonLayout) : List Char := value layout 0

example : String.ofList ((obj [("b", arr [int 1, str "\""]), ("a", arr [])]).dumps .compact) =
    "\x7b\"a\":[],\"b\":[1,\"\\\"\"]\x7d" := by decide

end Json

end PrivaCloud.Framework
