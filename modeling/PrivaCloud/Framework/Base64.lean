import Mathlib.Data.List.DropRight
import Mathlib.Tactic.Common

/-!
# Base64

The URL-safe alphabet, with padding. The decoder takes one character after another, skips those that are
not in the alphabet and stops at a padding that ends a group. Nothing here names a particular program.
-/

namespace PrivaCloud.Framework.Base64

def digit (n : Nat) : Char :=
  if n < 26 then Char.ofNat (0x41 + n)
  else if n < 52 then Char.ofNat (0x61 + (n - 26))
  else if n < 62 then Char.ofNat (0x30 + (n - 52))
  else if n = 62 then '-' else '_'

/-- The plain alphabet is understood as well. -/
def value (c : Char) : Option Nat :=
  if 0x41 ≤ c.toNat ∧ c.toNat ≤ 0x5A then some (c.toNat - 0x41)
  else if 0x61 ≤ c.toNat ∧ c.toNat ≤ 0x7A then some (c.toNat - 0x61 + 26)
  else if 0x30 ≤ c.toNat ∧ c.toNat ≤ 0x39 then some (c.toNat - 0x30 + 52)
  else if c = '-' ∨ c = '+' then some 62
  else if c = '_' ∨ c = '/' then some 63
  else none

theorem value_digit : ∀ n < 64, value (digit n) = some n := by decide

theorem digit_ne_pad : ∀ n < 64, digit n ≠ '=' := by decide

theorem ascii_digit : ∀ n < 64, (digit n).toNat < 0x80 := by decide

def body : List UInt8 → List Char
  | [] => []
  | [a] => [digit (a.toNat / 4), digit (a.toNat % 4 * 16)]
  | [a, b] => [digit (a.toNat / 4), digit (a.toNat % 4 * 16 + b.toNat / 16), digit (b.toNat % 16 * 4)]
  | a :: b :: c :: rest =>
    digit (a.toNat / 4) :: digit (a.toNat % 4 * 16 + b.toNat / 16) ::
      digit (b.toNat % 16 * 4 + c.toNat / 64) :: digit (c.toNat % 64) :: body rest

/-- As many paddings as there are characters missing in the last group -/
def pad (text : List Char) : List Char := text ++ List.replicate ((4 - text.length % 4) % 4) '='

/-- `urlsafe_b64encode` -/
def encode (bytes : List UInt8) : List Char := pad (body bytes)

/-- `rstrip("=")` -/
def strip (text : List Char) : List Char := text.rdropWhile (· = '=')

theorem mem_body {bytes : List UInt8} {c : Char} (h : c ∈ body bytes) : ∃ n < 64, c = digit n := by
  induction bytes using body.induct with
  | case1 => cases h
  | case2 a =>
    have ha := a.toNat_lt
    simp only [body, List.mem_cons, List.not_mem_nil, or_false] at h
    rcases h with rfl | rfl <;> exact ⟨_, by omega, rfl⟩
  | case3 a b =>
    have ha := a.toNat_lt
    have hb := b.toNat_lt
    simp only [body, List.mem_cons, List.not_mem_nil, or_false] at h
    rcases h with rfl | rfl | rfl <;> exact ⟨_, by omega, rfl⟩
  | case4 a b c rest ih =>
    have ha := a.toNat_lt
    have hb := b.toNat_lt
    have hc := c.toNat_lt
    simp only [body, List.mem_cons] at h
    rcases h with rfl | rfl | rfl | rfl | hrest
    · exact ⟨_, by omega, rfl⟩
    · exact ⟨_, by omega, rfl⟩
    · exact ⟨_, by omega, rfl⟩
    · exact ⟨_, by omega, rfl⟩
    · exact ih hrest

theorem pad_notMem_body (bytes : List UInt8) : '=' ∉ body bytes := by
  intro h
  obtain ⟨n, hn, heq⟩ := mem_body h
  exact digit_ne_pad n hn heq.symm

theorem ascii_body {bytes : List UInt8} {c : Char} (h : c ∈ body bytes) : c.toNat < 0x80 := by
  obtain ⟨n, hn, rfl⟩ := mem_body h
  exact ascii_digit n hn

theorem strip_encode (bytes : List UInt8) : strip (encode bytes) = body bytes := by
  have hbody : (body bytes).rdropWhile (· = '=') = body bytes := by
    rw [List.rdropWhile_eq_self_iff]
    intro hne hpad
    exact pad_notMem_body bytes (of_decide_eq_true hpad ▸ List.getLast_mem hne)
  have hpads : ∀ n, (body bytes ++ List.replicate n '=').rdropWhile (· = '=') = body bytes := by
    intro n
    induction n with
    | zero => rw [List.replicate_zero, List.append_nil, hbody]
    | succ n ih => rw [List.replicate_succ', ← List.append_assoc, List.rdropWhile_concat_pos _ _ _ (by simp), ih]
  exact hpads _

/-- The place in a group, with the bits that are left of the last character -/
inductive Place
  | start
  | one (left : Nat)
  | two (left : Nat)
  | three (left : Nat)

/-- Paddings that may end a group: two after two characters, one after three. -/
def Place.closes : Place → Nat → Bool
  | .start, _ | .one _, _ => false
  | .two _, pads => 2 ≤ pads
  | .three _, pads => 1 ≤ pads

/-- `a2b_base64`, by the paddings that have been counted -/
def decodeFrom : Place → Nat → List Char → Option (List UInt8)
  | .start, _, [] => some []
  | .one _, _, [] | .two _, _, [] | .three _, _, [] => none
  | place, pads, c :: rest =>
    if c = '=' then
      match place with
      | .start | .one _ => decodeFrom place pads rest
      | .two _ | .three _ => if place.closes (pads + 1) then some [] else decodeFrom place (pads + 1) rest
    else
      match value c with
      | none => decodeFrom place pads rest
      | some v =>
        match place with
        | .start => decodeFrom (.one v) 0 rest
        | .one left => (decodeFrom (.two (v % 16)) 0 rest).map (UInt8.ofNat (left * 4 + v / 16) :: ·)
        | .two left => (decodeFrom (.three (v % 4)) 0 rest).map (UInt8.ofNat (left * 16 + v / 4) :: ·)
        | .three left => (decodeFrom .start 0 rest).map (UInt8.ofNat (left * 64 + v) :: ·)

/-- `urlsafe_b64decode` of an ASCII text -/
def decode (text : List Char) : Option (List UInt8) := decodeFrom .start 0 text

section Steps

variable {v : Nat} (hv : v < 64) (left pads : Nat) (rest : List Char)

include hv

theorem decodeFrom_start : decodeFrom .start pads (digit v :: rest) = decodeFrom (.one v) 0 rest := by
  rw [decodeFrom, if_neg (digit_ne_pad v hv), value_digit v hv]

theorem decodeFrom_one : decodeFrom (.one left) pads (digit v :: rest) =
    (decodeFrom (.two (v % 16)) 0 rest).map (UInt8.ofNat (left * 4 + v / 16) :: ·) := by
  rw [decodeFrom, if_neg (digit_ne_pad v hv), value_digit v hv]

theorem decodeFrom_two : decodeFrom (.two left) pads (digit v :: rest) =
    (decodeFrom (.three (v % 4)) 0 rest).map (UInt8.ofNat (left * 16 + v / 4) :: ·) := by
  rw [decodeFrom, if_neg (digit_ne_pad v hv), value_digit v hv]

theorem decodeFrom_three : decodeFrom (.three left) pads (digit v :: rest) =
    (decodeFrom .start 0 rest).map (UInt8.ofNat (left * 64 + v) :: ·) := by
  rw [decodeFrom, if_neg (digit_ne_pad v hv), value_digit v hv]

end Steps

theorem ofNat_eq {n : Nat} {b : UInt8} (h : n = b.toNat) : UInt8.ofNat n = b := by
  rw [h]
  exact UInt8.ofNat_toNat

theorem decode_body_pad (bytes : List UInt8) :
    decode (body bytes ++ List.replicate ((4 - (body bytes).length % 4) % 4) '=') = some bytes := by
  induction bytes using body.induct with
  | case1 => rfl
  | case2 a =>
    have ha := a.toNat_lt
    change decodeFrom .start 0 (digit (a.toNat / 4) :: digit (a.toNat % 4 * 16) :: ['=', '=']) = some [a]
    rw [decodeFrom_start (by omega), decodeFrom_one (by omega)]
    change some [UInt8.ofNat (a.toNat / 4 * 4 + a.toNat % 4 * 16 / 16)] = some [a]
    rw [ofNat_eq (b := a) (by omega)]
  | case3 a b =>
    have ha := a.toNat_lt
    have hb := b.toNat_lt
    change decodeFrom .start 0 (digit (a.toNat / 4) :: digit (a.toNat % 4 * 16 + b.toNat / 16) ::
      digit (b.toNat % 16 * 4) :: ['=']) = some [a, b]
    rw [decodeFrom_start (by omega), decodeFrom_one (by omega), decodeFrom_two (by omega)]
    change some [UInt8.ofNat (a.toNat / 4 * 4 + (a.toNat % 4 * 16 + b.toNat / 16) / 16),
      UInt8.ofNat ((a.toNat % 4 * 16 + b.toNat / 16) % 16 * 16 + b.toNat % 16 * 4 / 4)] = some [a, b]
    rw [ofNat_eq (b := a) (by omega), ofNat_eq (b := b) (by omega)]
  | case4 a b c rest ih =>
    have ha := a.toNat_lt
    have hb := b.toNat_lt
    have hc := c.toNat_lt
    have hlength : (body (a :: b :: c :: rest)).length % 4 = (body rest).length % 4 := by
      simp only [body, List.length_cons]
      omega
    rw [hlength, body, decode]
    simp only [List.cons_append]
    rw [decodeFrom_start (by omega), decodeFrom_one (by omega), decodeFrom_two (by omega),
      decodeFrom_three (by omega)]
    rw [decode] at ih
    rw [ih]
    simp only [Option.map_some]
    rw [ofNat_eq (b := a) (by omega), ofNat_eq (b := b) (by omega), ofNat_eq (b := c) (by omega)]

theorem decode_pad_strip (bytes : List UInt8) : decode (pad (strip (encode bytes))) = some bytes := by
  rw [strip_encode]
  exact decode_body_pad bytes

end PrivaCloud.Framework.Base64
