import Mathlib.Algebra.Group.Nat.Defs
import Mathlib.Tactic.Common

/-!
# SHA-256

The hash of a text and its hexadecimal digest. The words are naturals below `2 ^ 32`, so that the
kernel can evaluate a digest.
-/

namespace PrivaCloud.Framework.Sha256

/-- The low 32 bits. -/
def word (n : Nat) : Nat := n % 2 ^ 32

def rotateRight (x n : Nat) : Nat := word (x >>> n ||| x <<< (32 - n))

def roundConstants : List Nat := [
  0x428a2f98, 0x71374491, 0xb5c0fbcf, 0xe9b5dba5, 0x3956c25b, 0x59f111f1, 0x923f82a4, 0xab1c5ed5,
  0xd807aa98, 0x12835b01, 0x243185be, 0x550c7dc3, 0x72be5d74, 0x80deb1fe, 0x9bdc06a7, 0xc19bf174,
  0xe49b69c1, 0xefbe4786, 0x0fc19dc6, 0x240ca1cc, 0x2de92c6f, 0x4a7484aa, 0x5cb0a9dc, 0x76f988da,
  0x983e5152, 0xa831c66d, 0xb00327c8, 0xbf597fc7, 0xc6e00bf3, 0xd5a79147, 0x06ca6351, 0x14292967,
  0x27b70a85, 0x2e1b2138, 0x4d2c6dfc, 0x53380d13, 0x650a7354, 0x766a0abb, 0x81c2c92e, 0x92722c85,
  0xa2bfe8a1, 0xa81a664b, 0xc24b8b70, 0xc76c51a3, 0xd192e819, 0xd6990624, 0xf40e3585, 0x106aa070,
  0x19a4c116, 0x1e376c08, 0x2748774c, 0x34b0bcb5, 0x391c0cb3, 0x4ed8aa4a, 0x5b9cca4f, 0x682e6ff3,
  0x748f82ee, 0x78a5636f, 0x84c87814, 0x8cc70208, 0x90befffa, 0xa4506ceb, 0xbef9a3f7, 0xc67178f2]

/-- The eight words of the state. -/
structure Digest where
  a : Nat
  b : Nat
  c : Nat
  d : Nat
  e : Nat
  f : Nat
  g : Nat
  h : Nat

def initial : Digest where
  a := 0x6a09e667
  b := 0xbb67ae85
  c := 0x3c6ef372
  d := 0xa54ff53a
  e := 0x510e527f
  f := 0x9b05688c
  g := 0x1f83d9ab
  h := 0x5be0cd19

def round (s : Digest) (k w : Nat) : Digest :=
  let t1 := s.h + (rotateRight s.e 6 ^^^ rotateRight s.e 11 ^^^ rotateRight s.e 25) +
    ((s.e &&& s.f) ^^^ ((2 ^ 32 - 1 - s.e) &&& s.g)) + k + w
  let t2 := (rotateRight s.a 2 ^^^ rotateRight s.a 13 ^^^ rotateRight s.a 22) +
    ((s.a &&& s.b) ^^^ (s.a &&& s.c) ^^^ (s.b &&& s.c))
  ⟨word (t1 + t2), s.a, s.b, s.c, word (s.d + t1), s.e, s.f, s.g⟩

def schedule : Nat → List Nat → List Nat
  | 0, words => words
  | n + 1, words =>
    let x := words.getD 14 0
    let y := words.getD 1 0
    schedule n (word ((rotateRight y 17 ^^^ rotateRight y 19 ^^^ y >>> 10) + words.getD 6 0 +
      (rotateRight x 7 ^^^ rotateRight x 18 ^^^ x >>> 3) + words.getD 15 0) :: words)

def compress (s : Digest) (block : List Nat) : Digest :=
  let words := (schedule 48 block.reverse).reverse
  let t := (roundConstants.zip words).foldl (fun s kw => round s kw.1 kw.2) s
  ⟨word (s.a + t.a), word (s.b + t.b), word (s.c + t.c), word (s.d + t.d), word (s.e + t.e),
    word (s.f + t.f), word (s.g + t.g), word (s.h + t.h)⟩

def bigEndian (bytes : List Nat) : Nat := bytes.foldl (fun n b => n * 256 + b) 0

/-- The first `k` pieces of `n` elements. -/
def pieces (n : Nat) : Nat → List Nat → List (List Nat)
  | 0, _ => []
  | k + 1, l => l.take n :: pieces n k (l.drop n)

/-- A one bit, zeros up to eight bytes before the end of a block, and the length in bits. -/
def pad (bytes : List Nat) : List Nat :=
  bytes ++ [0x80] ++ List.replicate ((119 - bytes.length % 64) % 64) 0 ++
    (List.range 8).map fun i => (bytes.length * 8) >>> (56 - 8 * i) % 256

def digest (bytes : List Nat) : Digest :=
  let padded := pad bytes
  (pieces 64 (padded.length / 64) padded).foldl
    (fun s block => compress s ((pieces 4 16 block).map bigEndian)) initial

/-- The last `width` hexadecimal digits. -/
def hex (width n : Nat) : List Char :=
  (List.range width).map fun i => Nat.digitChar ((n >>> (4 * (width - 1 - i))) % 16)

def encode (text : List Char) : List Nat := text.flatMap fun c => (String.utf8EncodeChar c).map UInt8.toNat

def hexdigest (text : List Char) : List Char :=
  let s := digest (encode text)
  [s.a, s.b, s.c, s.d, s.e, s.f, s.g, s.h].flatMap (hex 8)

example : String.ofList (hexdigest "abc".toList) =
    "ba7816bf8f01cfea414140de5dae2223b00361a396177a9cb410ff61f20015ad" := by decide +kernel

end PrivaCloud.Framework.Sha256
