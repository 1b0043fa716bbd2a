import PrivaCloud.Framework.Script

/-!
# The limit of request bodies

`MaxBodySizeMiddleware` around an ASGI application. An application is any program over the two channels: it
receives, it sends, and it may catch what either of them raises.
-/

namespace PrivaCloud.Common

open Framework

inductive Received
  | request (body : List UInt8) (moreBody : Bool)
  | other (type : String)

/-- A message of the send channel -/
inductive Sent
  | start (status : Nat) (headers : List (String × String))
  | body (body : String)
  | other (type : String)

def Received.size : Received → Nat
  | .request body _ => body.length
  | .other _ => 0

def Sent.isStart : Sent → Bool
  | .start .. => true
  | .body _ | .other _ => false

inductive Failure
  | tooLarge
  | other (exception : String)

inductive AsgiOp
  | receive
  | send (message : Sent)

abbrev AsgiOp.Reply : AsgiOp → Type
  | receive => Except Failure Received
  | send _ => Except Failure Unit

abbrev Asgi := Script AsgiOp AsgiOp.Reply

/-- An application for one scope: it returns or raises. -/
abbrev App := Asgi (Except Failure Unit)

structure Scope where
  type : String
  headers : List (List UInt8 × List UInt8)

namespace MaxBodySizeMiddleware

def limitText (maxBytes : Nat) : String :=
  "Request body exceeds the " ++ toString (maxBytes / (1024 * 1024)) ++ "MB limit"

/-- `_reject` -/
def reject (maxBytes : Nat) : App :=
  .call (.send (.start 413 [("content-type", "text/plain; charset=utf-8"),
    ("content-length", toString (limitText maxBytes).utf8ByteSize)])) fun
    | .error e => .pure (.error e)
    | .ok _ => .call (.send (.body (limitText maxBytes))) .pure

/-- The application behind `counting_receive` and `guarded_send`, with `received` and `started` -/
def counting (maxBytes : Nat) : Nat → Bool → App → Asgi (Except Failure Unit × Bool)
  | _, started, .pure result => .pure (result, started)
  | received, started, .call .receive next => .call .receive fun
    | .ok (.request body more) =>
      if maxBytes < received + body.length then
        counting maxBytes (received + body.length) started (next (.error .tooLarge))
      else counting maxBytes (received + body.length) started (next (.ok (.request body more)))
    | .ok (.other type) => counting maxBytes received started (next (.ok (.other type)))
    | .error e => counting maxBytes received started (next (.error e))
  | received, started, .call (.send message) next => .call (.send message) fun reply =>
    counting maxBytes received (started || message.isStart) (next reply)

/-- The `except` clause -/
def handle (maxBytes : Nat) : Except Failure Unit × Bool → App
  | (.error .tooLarge, started) => if started then .pure (.ok ()) else reject maxBytes
  | (result, _) => .pure result

section Call

variable (toInt : List UInt8 → Option Int)

/-- `content-length`, as `int` reads it; of two such headers the last one counts. -/
def declared (scope : Scope) : Option Int :=
  (scope.headers.reverse.lookup "content-length".toUTF8.toList).bind toInt

/-- `__call__` -/
def call (maxBytes : Nat) (scope : Scope) (app : App) : App :=
  if scope.type ≠ "http" then app
  else if (declared toInt scope).any ((maxBytes : Int) < ·) then reject maxBytes
  else counting maxBytes 0 false app >>= handle maxBytes

end Call

structure Channels where
  incoming : Nat → Except Failure Received
  sending : Nat → Except Failure Unit

/-- What a program has sent in the end, how often it has received, and its result -/
structure Exchange (α : Type) where
  sent : List Sent
  receives : Nat
  result : α

variable {α β : Type}

/-- A program runs from the given uses of the channels on. -/
def exec (w : Channels) : Nat → Nat → Asgi α → Exchange α
  | r, _, .pure result => ⟨[], r, result⟩
  | r, n, .call .receive next => exec w (r + 1) n (next (w.incoming r))
  | r, n, .call (.send message) next =>
    let rest := exec w r (n + 1) (next (w.sending n))
    { rest with sent := message :: rest.sent }

def replySize : Except Failure Received → Nat
  | .ok message => message.size
  | .error _ => 0

/-- The bytes that the first messages bring -/
def Channels.bytes (w : Channels) : Nat → Nat
  | 0 => 0
  | n + 1 => w.bytes n + replySize (w.incoming n)

/-- What an application may have after so many bytes -/
def limit (maxBytes before : Nat) : Except Failure Received → Except Failure Received
  | .ok (.request body more) =>
    if maxBytes < before + body.length then .error .tooLarge else .ok (.request body more)
  | .ok (.other type) => .ok (.other type)
  | .error e => .error e

/-- The receive channel raises as soon as it would hand out too much. -/
def Channels.limited (w : Channels) (maxBytes : Nat) : Channels where
  incoming n := limit maxBytes (w.bytes n) (w.incoming n)
  sending := w.sending

/-- With what `guarded_send` has noted -/
def Exchange.watched (started : Bool) (x : Exchange (Except Failure Unit)) : Exchange (Except Failure Unit × Bool) :=
  ⟨x.sent, x.receives, x.result, started || x.sent.any Sent.isStart⟩

/-- The application has run, on limited channels; what the `except` clause sends comes after that. -/
def handled (maxBytes : Nat) (w : Channels) (x : Exchange (Except Failure Unit)) : Exchange (Except Failure Unit) :=
  let rest := exec w x.receives x.sent.length (handle maxBytes (x.result, x.sent.any Sent.isStart))
  { rest with sent := x.sent ++ rest.sent }

variable {w : Channels} {maxBytes : Nat} {app : App} {scope : Scope} {toInt : List UInt8 → Option Int}

private theorem exec_bind (w : Channels) (r n : Nat) (x : Asgi α) (f : α → Asgi β) : exec w r n (x >>= f) =
      let first := exec w r n x
      let rest := exec w first.receives (n + first.sent.length) (f first.result)
      { rest with sent := first.sent ++ rest.sent } := by
  induction x generalizing r n with
  | pure a => rfl
  | call op next ih =>
    cases op with
    | receive => exact ih _ _ _
    | send message =>
      have hnext := ih (w.sending n) r (n + 1)
      rw [Script.call_bind, exec, hnext]
      simp only [exec, List.length_cons, List.cons_append, Nat.add_assoc, Nat.add_comm 1]

private theorem counting_receive (received : Nat) (started : Bool) (next : Except Failure Received → App) :
    counting maxBytes received started (.call .receive next) = .call .receive fun reply =>
      counting maxBytes (received + replySize reply) started (next (limit maxBytes received reply)) := by
  rw [counting]
  congr 1
  funext reply
  cases reply with
  | error e => rfl
  | ok message =>
    cases message with
    | other type => rfl
    | request body more =>
      simp only [limit, replySize, Received.size]
      split <;> rfl

private theorem exec_counting (r n : Nat) (started : Bool) (app : App) :
    exec w r n (counting maxBytes (w.bytes r) started app) =
      (exec (w.limited maxBytes) r n app).watched started := by
  induction app generalizing r n started with
  | pure a => simp [counting, exec, Exchange.watched]
  | call op next ih =>
    cases op with
    | receive =>
      rw [counting_receive]
      exact ih _ (r + 1) n started
    | send message =>
      simp only [counting, exec]
      rw [ih]
      simp [Exchange.watched, Channels.limited, Bool.or_assoc]

private theorem bytes_limited (w : Channels) (maxBytes n : Nat) : (w.limited maxBytes).bytes n ≤ maxBytes ∧
    (w.bytes n ≤ maxBytes → (w.limited maxBytes).bytes n = w.bytes n) := by
  induction n with
  | zero => exact ⟨Nat.zero_le _, fun _ => rfl⟩
  | succ n ih =>
    have hlimited : (w.limited maxBytes).bytes (n + 1) =
      (w.limited maxBytes).bytes n + replySize (limit maxBytes (w.bytes n) (w.incoming n)) := rfl
    rw [hlimited]
    change _ ∧ (w.bytes n + replySize (w.incoming n) ≤ maxBytes → _ = w.bytes n + replySize (w.incoming n))
    cases w.incoming n with
    | error e => exact ih
    | ok message =>
      cases message with
      | other type => exact ih
      | request body more =>
        by_cases hover : maxBytes < w.bytes n + body.length
        · rw [limit, if_pos hover]
          exact ⟨ih.1, fun h => absurd h (Nat.not_le.mpr hover)⟩
        · have hsame := ih.2 (by omega)
          rw [limit, if_neg hover]
          simp only [replySize, Received.size]
          omega

/-- The application never gets more than `max_bytes`, whatever it does with the exception: it runs as on a channel
that raises instead, unless the declared length is already too large. -/
theorem call_limited (toInt : List UInt8 → Option Int) (maxBytes : Nat) (app : App) (w : Channels)
    (hhttp : scope.type = "http") :
    (∀ n, (w.limited maxBytes).bytes n ≤ maxBytes) ∧ exec w 0 0 (call toInt maxBytes scope app) =
      if (declared toInt scope).any ((maxBytes : Int) < ·) then exec w 0 0 (reject maxBytes)
      else handled maxBytes w (exec (w.limited maxBytes) 0 0 app) := by
  refine ⟨fun n => (bytes_limited w maxBytes n).1, ?_⟩
  rw [call, if_neg (not_not.mpr hhttp)]
  split
  · rfl
  · have hstart : counting maxBytes 0 false app = counting maxBytes (w.bytes 0) false app := rfl
    rw [exec_bind, hstart, exec_counting]
    simp [Exchange.watched, handled]

/-- It reads twice and answers. -/
def reader : App :=
  .call .receive fun
    | .error e => .pure (.error e)
    | .ok _ => .call .receive fun
      | .error e => .pure (.error e)
      | .ok _ => .call (.send (.start 200 [])) .pure

/-- The second message is over a limit of five bytes, and not over one of six. -/
def upload : Channels where
  incoming n := if n < 2 then .ok (.request [1, 2, 3] (n = 0)) else .ok (.other "http.disconnect")
  sending _ := .ok ()

theorem call_limited_upload : (upload.limited 5).bytes 2 ≤ 5 ∧
    (exec upload 0 0 (call (fun _ => none) 5 ⟨"http", []⟩ reader)).sent.map Sent.isStart = [true, false] := by
  have hhttp : Scope.type ⟨"http", []⟩ = "http" := rfl
  have h := call_limited (fun _ => none) 5 reader upload hhttp
  exact ⟨h.1 2, h.2 ▸ rfl⟩

/-- A body within the limit goes through as if there were no middleware. -/
theorem call_transparent (hhttp : scope.type = "http")
    (hdeclared : ∀ length ∈ declared toInt scope, length ≤ maxBytes) (hbytes : ∀ n, w.bytes n ≤ maxBytes)
    (hresult : (exec w 0 0 app).result ≠ .error .tooLarge) :
    exec w 0 0 (call toInt maxBytes scope app) = exec w 0 0 app := by
  have hlimited : w.limited maxBytes = w := by
    have hincoming : (w.limited maxBytes).incoming = w.incoming := by
      funext n
      have hnext : w.bytes n + replySize (w.incoming n) ≤ maxBytes := hbytes (n + 1)
      change limit maxBytes (w.bytes n) (w.incoming n) = w.incoming n
      cases hmessage : w.incoming n with
      | error e => rfl
      | ok message =>
        cases message with
        | other type => rfl
        | request body more =>
          rw [hmessage] at hnext
          exact if_neg (Nat.not_lt.mpr hnext)
    cases w
    exact congrArg (Channels.mk · _) hincoming
  have hsmall : (declared toInt scope).any ((maxBytes : Int) < ·) = false := by
    cases hlength : declared toInt scope with
    | none => rfl
    | some length => simpa using hdeclared length hlength
  rw [(call_limited toInt maxBytes app w hhttp).2, hlimited, hsmall, if_neg Bool.false_ne_true]
  unfold handled
  generalize exec w 0 0 app = x at hresult
  obtain ⟨sent, receives, result⟩ := x
  cases result with
  | ok _ => simp [handle, exec]
  | error e =>
    cases e with
    | tooLarge => exact absurd rfl hresult
    | other => simp [handle, exec]

theorem call_transparent_upload :
    exec upload 0 0 (call (fun _ => none) 6 ⟨"http", []⟩ reader) = exec upload 0 0 reader := by
  refine call_transparent rfl (by rintro _ ⟨⟩) (fun n => ?_) (by rintro ⟨⟩)
  have hlater : ∀ k, upload.bytes (k + 2) = 6 := by
    intro k
    induction k with
    | zero => rfl
    | succ k ih => exact ih
  rcases n with _ | _ | k
  · decide
  · decide
  · exact Nat.le_of_eq (hlater k)

/-- Nothing is answered twice: where the application starts one response at most, so does the middleware. -/
theorem call_answers_once (toInt : List UInt8 → Option Int) (maxBytes : Nat) (scope : Scope) (app : App)
    (happ : ∀ w, (exec w 0 0 app).sent.countP Sent.isStart ≤ 1) (w : Channels) :
    (exec w 0 0 (call toInt maxBytes scope app)).sent.countP Sent.isStart ≤ 1 := by
  have hreject (r n : Nat) : (exec w r n (reject maxBytes)).sent.countP Sent.isStart ≤ 1 := by
    simp only [reject, exec]
    cases w.sending n <;> simp [exec, Sent.isStart, List.countP_cons]
  by_cases hhttp : scope.type = "http"
  · rw [(call_limited toInt maxBytes app w hhttp).2]
    split
    · exact hreject 0 0
    · have hone := happ (w.limited maxBytes)
      generalize exec (w.limited maxBytes) 0 0 app = x at hone
      obtain ⟨sent, receives, result⟩ := x
      simp only [handled, List.countP_append]
      cases hstarted : sent.any Sent.isStart with
      | true =>
        cases result with
        | ok _ => simpa [handle, exec] using hone
        | error e => cases e <;> simpa [handle, exec] using hone
      | false =>
        have hnone : sent.countP Sent.isStart = 0 := List.countP_eq_zero.mpr (by simpa using hstarted)
        cases result with
        | ok _ => simp [handle, exec, hnone]
        | error e =>
          cases e with
          | tooLarge => simpa [handle, hnone] using hreject receives sent.length
          | other => simp [handle, exec, hnone]
  · rw [call, if_pos hhttp]
    exact happ w

theorem call_answers_once_upload :
    (exec upload 0 0 (call (fun _ => none) 5 ⟨"http", []⟩ reader)).sent.countP Sent.isStart ≤ 1 := by
  refine call_answers_once _ 5 _ reader (fun w => ?_) upload
  simp only [reader, exec]
  cases w.incoming 0 with
  | error e => exact Nat.zero_le 1
  | ok _ =>
    simp only [exec]
    cases w.incoming 1 <;> simp [exec, Sent.isStart]

end MaxBodySizeMiddleware

end PrivaCloud.Common
