import PrivaCloud.Framework.JsonText
import PrivaCloud.Framework.Utf8

/-!
# The wrapper of a managed hook

`main` of `managed_hook_wrapper` reads the payload as text, runs the script, logs the fire and writes what the script
has written. All streams are decoded on the way.
-/

namespace PrivaCloud.Common.HookWrapper

open Framework JsonText

/-- The error handler of `sys.stdin` -/
inductive StdinErrors
  | strict
  | surrogateescape

/-- Why `main` raises -/
inductive Raised
  | unicodeDecode
  | recursion
  | attribute
  deriving DecidableEq

/-- What a script writes, and its exit code -/
structure ScriptResult where
  stdout : List UInt8
  stderr : List UInt8
  code : UInt8
  deriving DecidableEq

/-- What the wrapper writes and returns, and the bytes that the script has been given -/
structure WrapperResult extends ScriptResult where
  passed : Option (List UInt8)
  deriving DecidableEq

/-- What the wrapper runs in: the script, the error handler of its stdin, whether the payload runs into the recursion
limit of the interpreter, and whether the log can be written -/
structure Surroundings where
  script : List UInt8 → ScriptResult
  stdinErrors : StdinErrors
  tooDeep : List Nat → Bool
  logFails : Bool

/-- Decoding with `surrogateescape`: a byte that is part of no character is a lone surrogate. -/
def decodeEscaped : Nat → List UInt8 → List Nat
  | 0, _ | _, [] => []
  | fuel + 1, b :: bytes =>
    match (List.range 4).findSome? fun n =>
      (Utf8.decode false ((b :: bytes).take (n + 1))).map fun text => (text, bytes.drop n) with
    | some (text, rest) => text ++ decodeEscaped fuel rest
    | none => (0xdc00 + b.toNat) :: decodeEscaped fuel bytes

/-- `sys.stdin.read()` -/
def readStdin (errors : StdinErrors) (bytes : List UInt8) : Option (List Nat) :=
  match Utf8.decode false bytes, errors with
  | some text, _ => some text
  | none, .strict => none
  | none, .surrogateescape => some (decodeEscaped bytes.length bytes)

/-- A lone surrogate is a character like any other to `json.loads`; it stands here as a replacement. -/
def charOf (cp : Nat) : Char := if 0xd800 ≤ cp ∧ cp < 0xe000 then '\ufffd' else Char.ofNat cp

/-- Behind the escape of a high surrogate comes that of a low one. -/
def pairs (high : Nat) (rest : List Char) : Bool :=
  0xd800 ≤ high && high < 0xdc00 &&
    match rest with
    | '\\' :: 'u' :: rest =>
      match hex4 rest with
      | some (low, _) => 0xdc00 ≤ low && low < 0xe000
      | none => false
    | _ => false

/-- The escapes of lone surrogates as replacements -/
def mendSurrogates : Nat → List Char → List Char
  | fuel + 1, '\\' :: 'u' :: rest =>
    match hex4 rest with
    | none => '\\' :: 'u' :: mendSurrogates fuel rest
    | some (value, tail) =>
      if pairs value tail then '\\' :: 'u' :: rest.take 10 ++ mendSurrogates fuel (rest.drop 10)
      else if 0xd800 ≤ value ∧ value < 0xe000 then '\ufffd' :: mendSurrogates fuel tail
      else '\\' :: 'u' :: rest.take 4 ++ mendSurrogates fuel tail
  | fuel + 1, '\\' :: c :: rest => '\\' :: c :: mendSurrogates fuel rest
  | fuel + 1, c :: rest => c :: mendSurrogates fuel rest
  | _, text => text

/-- The value of a text; what is no JSON is an empty object. -/
def payload (raw : List Nat) : Value :=
  let text := raw.map charOf
  (loads (mendSurrogates text.length text)).getD (.obj [])

def digitsValue (digits : List Char) : Nat := digits.foldl (fun n c => n * 10 + (c.toNat - '0'.toNat)) 0

/-- The exponent of a number, if it has one -/
def exponentOf (token : List Char) : Int :=
  match (token.dropWhile fun c => c ≠ 'e' && c ≠ 'E').tail with
  | '-' :: digits => -digitsValue digits
  | '+' :: digits => digitsValue digits
  | digits => digitsValue digits

/-- A number is zero, or a float that is rounded to zero. -/
def isZero (token : List Char) : Bool :=
  let unsigned := token.dropWhile (· = '-')
  let whole := unsigned.takeWhile isDigit
  let rest := unsigned.dropWhile isDigit
  let fraction := if rest.head? = some '.' then rest.tail.takeWhile isDigit else []
  let mantissa := digitsValue (whole ++ fraction)
  let scale := exponentOf rest - fraction.length
  whole ≠ [] && (mantissa = 0 || rest ≠ [] && scale < 0 && mantissa * 2 ^ 1075 ≤ 10 ^ scale.natAbs)

/-- The truth value of what `json.loads` returns -/
def truthy : Value → Bool
  | .null => false
  | .bool b => b
  | .num token => !isZero token
  | .str text => text ≠ []
  | .arr items => !items.isEmpty
  | .obj members => !members.isEmpty

/-- `payload.get(key)`; of equal keys the last one counts. -/
def getMember (members : List (List Char × Value)) (key : List Char) : Option Value :=
  (members.reverse.find? fun member => member.1 = key).map Prod.snd

/-- `.get` is there on the payload, and on its tool input unless that is empty. -/
def loggable : Value → Bool
  | .obj members =>
    match getMember members "tool_input".toList with
    | some (.obj _) | none => true
    | some input => !truthy input
  | _ => false

/-- `_append_log`: whether a line has been written; an error of the file system is passed over. -/
def appendLog (logFails : Bool) (payload : Value) : Except Raised Bool :=
  if loggable payload then .ok (!logFails) else .error .attribute

/-- Text mode makes one newline of a carriage return, with or without a newline behind it. -/
def translateNewlines : List Nat → List Nat
  | 0x0d :: 0x0a :: text => 0x0a :: translateNewlines text
  | 0x0d :: text => 0x0a :: translateNewlines text
  | c :: text => c :: translateNewlines text
  | [] => []

def encodeStrict (text : List Nat) : Option (List UInt8) :=
  if ∀ cp ∈ text, Utf8.Scalar cp then some (Utf8.encode text) else none

/-- `subprocess.run` in text mode; an error of a codec is an exit with one. -/
def runScript (script : List UInt8 → ScriptResult) (raw : List Nat) : WrapperResult :=
  match encodeStrict raw with
  | none => ⟨⟨[], [], 1⟩, none⟩
  | some input =>
    let proc := script input
    match Utf8.decode false proc.stdout, Utf8.decode false proc.stderr with
    | some out, some err =>
      ⟨⟨Utf8.encode (translateNewlines out), Utf8.encode (translateNewlines err), proc.code⟩, some input⟩
    | _, _ => ⟨⟨[], [], 1⟩, some input⟩

/-- `main`, called for a script that can be spawned -/
def main (env : Surroundings) (stdin : List UInt8) : Except Raised WrapperResult :=
  match readStdin env.stdinErrors stdin with
  | none => .error .unicodeDecode
  | some raw =>
    if env.tooDeep raw then .error .recursion
    else do
      let result := runScript env.script raw
      let _ ← appendLog env.logFails (payload raw)
      .ok result

/-- The script is given the stdin, and all that it writes and its exit code are passed on. -/
def Transparent (env : Surroundings) (stdin : List UInt8) : Prop :=
  main env stdin = .ok ⟨env.script stdin, some stdin⟩

/-- A stream that the text mode leaves as it is: UTF-8 without a carriage return -/
def Unchanged (bytes : List UInt8) : Prop := ∃ text, Utf8.decode false bytes = some text ∧ 0x0d ∉ text

def Readable (env : Surroundings) (stdin : List UInt8) : Prop :=
  ∃ raw, Utf8.decode false stdin = some raw ∧ env.tooDeep raw = false ∧ loggable (payload raw) = true

section Streams

variable {text : List Nat} {bytes : List UInt8}

private theorem notMem_translateNewlines (text : List Nat) : 0x0d ∉ translateNewlines text := by
  induction text using translateNewlines.induct with
  | case1 text ih => simpa [translateNewlines] using ih
  | case2 text hnext ih =>
    rw [translateNewlines]
    · simpa using ih
    · exact hnext
  | case3 c text _ hc ih =>
    rw [translateNewlines]
    · simpa [Ne.symm hc] using ih
    · exact fun _ h _ => hc h
    · exact hc
  | case4 => simp [translateNewlines]

private theorem translateNewlines_of_notMem (h : 0x0d ∉ text) : translateNewlines text = text := by
  induction text with
  | nil => rfl
  | cons c text ih =>
    obtain ⟨hc, htext⟩ := not_or.mp (mt List.mem_cons.mpr h)
    rw [translateNewlines, ih htext]
    · exact fun _ h _ => hc h.symm
    · exact Ne.symm hc

theorem scalar_translateNewlines (h : ∀ cp ∈ text, Utf8.Scalar cp) : ∀ cp ∈ translateNewlines text, Utf8.Scalar cp := by
  have hnewline : Utf8.Scalar 0x0a := Or.inl (by decide)
  induction text using translateNewlines.induct with
  | case1 text ih =>
    rw [translateNewlines]
    simp only [List.mem_cons, forall_eq_or_imp] at h ⊢
    exact ⟨hnewline, ih h.2.2⟩
  | case2 text hnext ih =>
    rw [translateNewlines]
    · simp only [List.mem_cons, forall_eq_or_imp] at h ⊢
      exact ⟨hnewline, ih h.2⟩
    · exact hnext
  | case3 c text _ hc ih =>
    rw [translateNewlines]
    · simp only [List.mem_cons, forall_eq_or_imp] at h ⊢
      exact ⟨h.1, ih h.2⟩
    · exact fun _ h _ => hc h
    · exact hc
  | case4 => simp [translateNewlines]

private theorem encode_translateNewlines (h : Utf8.decode false bytes = some text) :
    Utf8.encode (translateNewlines text) = bytes ↔ 0x0d ∉ text := by
  constructor
  · intro heq
    have hdecoded := Utf8.decode_encode (scalar_translateNewlines (Utf8.scalar_of_decode h))
    rw [heq, h, Option.some.injEq] at hdecoded
    rw [hdecoded]
    exact notMem_translateNewlines text
  · intro hplain
    rw [translateNewlines_of_notMem hplain]
    exact Utf8.encode_of_decode h

private theorem encodeStrict_of_decode (h : Utf8.decode false bytes = some text) : encodeStrict text = some bytes := by
  rw [encodeStrict, if_pos (Utf8.scalar_of_decode h), Utf8.encode_of_decode h]

private theorem decode_of_encodeStrict (h : encodeStrict text = some bytes) : Utf8.decode false bytes = some text := by
  obtain ⟨hscalar, hencode⟩ := Option.ite_none_right_eq_some.mp h
  rw [← Option.some.inj hencode]
  exact Utf8.decode_encode hscalar

private theorem readStdin_of_decode (h : Utf8.decode false bytes = some text) (errors : StdinErrors) :
    readStdin errors bytes = some text := by
  unfold readStdin
  rw [h]

end Streams

section Main

variable {env : Surroundings} {stdin : List UInt8} {raw : List Nat}

/-- `main` does not raise just for a payload that is read and logged. -/
theorem main_eq_ok (hread : readStdin env.stdinErrors stdin = some raw) {result : WrapperResult} :
    main env stdin = .ok result ↔
      env.tooDeep raw = false ∧ loggable (payload raw) = true ∧ runScript env.script raw = result := by
  rw [main, hread]
  dsimp only
  cases hdeep : env.tooDeep raw with
  | true => simp
  | false =>
    cases hlog : loggable (payload raw) with
    | true =>
      rw [appendLog, if_pos hlog]
      exact ⟨fun h => ⟨rfl, rfl, Except.ok.inj h⟩, fun h => congrArg Except.ok h.2.2⟩
    | false =>
      have hraised : appendLog env.logFails (payload raw) = .error .attribute := by
        rw [appendLog, hlog]
        rfl
      rw [hraised]
      constructor
      · intro h
        have h' : (Except.error Raised.attribute : Except Raised WrapperResult) = .ok result := h
        cases h'
      · rintro ⟨-, ⟨⟩, -⟩

private theorem runScript_eq (script : List UInt8 → ScriptResult) : runScript script raw = ⟨script stdin, some stdin⟩ ↔
      Utf8.decode false stdin = some raw ∧ Unchanged (script stdin).stdout ∧ Unchanged (script stdin).stderr := by
  unfold runScript
  constructor
  · intro h
    split at h
    · cases (WrapperResult.mk.inj h).2
    · rename_i input hinput
      dsimp only at h
      split at h
      · rename_i out err hout herr
        obtain ⟨hresult, hpassed⟩ := WrapperResult.mk.inj h
        obtain rfl := Option.some.inj hpassed
        have hstdout := congrArg ScriptResult.stdout hresult
        have hstderr := congrArg ScriptResult.stderr hresult
        exact ⟨decode_of_encodeStrict hinput, ⟨out, hout, (encode_translateNewlines hout).mp hstdout⟩,
          ⟨err, herr, (encode_translateNewlines herr).mp hstderr⟩⟩
      · rename_i hinvalid
        obtain ⟨hresult, hpassed⟩ := WrapperResult.mk.inj h
        obtain rfl := Option.some.inj hpassed
        -- both streams would be empty, which can be decoded
        exact absurd (by rw [← hresult]; rfl) (hinvalid [] [] (by rw [← hresult]; rfl))
  · rintro ⟨hstdin, ⟨out, hout, hplain⟩, err, herr, hplain'⟩
    rw [encodeStrict_of_decode hstdin]
    dsimp only
    rw [hout, herr]
    dsimp only
    rw [(encode_translateNewlines hout).mpr hplain, (encode_translateNewlines herr).mpr hplain']

/-- The wrapper is transparent just for a payload that is read and logged, and streams without carriage returns that are
UTF-8. -/
theorem transparent_iff (env : Surroundings) (stdin : List UInt8) :
    Transparent env stdin ↔ Readable env stdin ∧ Unchanged (env.script stdin).stdout ∧
      Unchanged (env.script stdin).stderr := by
  constructor
  · intro h
    cases hread : readStdin env.stdinErrors stdin with
    | none => simp [Transparent, main, hread] at h
    | some raw =>
      obtain ⟨hdeep, hlog, hrun⟩ := (main_eq_ok hread).mp h
      obtain ⟨hstdin, hstreams⟩ := (runScript_eq env.script).mp hrun
      exact ⟨⟨raw, hstdin, hdeep, hlog⟩, hstreams⟩
  · rintro ⟨⟨raw, hstdin, hdeep, hlog⟩, hstreams⟩
    exact (main_eq_ok (readStdin_of_decode hstdin _)).mpr ⟨hdeep, hlog, (runScript_eq env.script).mpr ⟨hstdin, hstreams⟩⟩

def blocking (stderr : List UInt8) : Surroundings where
  script := fun _ => ⟨[], stderr, 2⟩
  stdinErrors := .strict
  tooDeep := fun _ => false
  logFails := false

/-- A hook that exits with two is one that exits with one, for a byte that is no UTF-8 in its stderr, or for a payload
that is no object. -/
theorem not_transparent : main (blocking [0xff]) (Utf8.encodeChars "{}".toList) =
        .ok ⟨⟨[], [], 1⟩, some (Utf8.encodeChars "{}".toList)⟩ ∧
      ¬ Transparent (blocking [0xff]) (Utf8.encodeChars "{}".toList) ∧
      main (blocking []) (Utf8.encodeChars "[]".toList) = .error .attribute := by
  refine ⟨by decide, ?_, by decide⟩
  intro h
  obtain ⟨-, -, text, htext, -⟩ := (transparent_iff _ _).mp h
  have hnone : Utf8.decode false [0xff] = none := by decide
  cases hnone.symm.trans htext

end Main

end PrivaCloud.Common.HookWrapper
