import Mathlib.Algebra.Group.Nat.Defs
import Mathlib.Data.Finset.Card

/-!
# The sessions of terminald

The sessions of a Terminal pod under their mutex. The revision counts every reservation and every
release; a drain is granted for the revision that its caller has seen and closes the pod for a lease.
-/

namespace PrivaCloud.Terminald

/-- Nanoseconds for which a drain closes the pod. -/
def drainLease : Nat := 30 * 1000000000

structure Server where
  maxSessions : Nat
  sessions : Finset String := ∅
  revision : UInt64 := 0
  drainUntil : Option Nat := none
  lastActivity : Int
  deriving DecidableEq

def newServer (maxSessions : Nat) (unix : Int) : Server where
  maxSessions := maxSessions
  lastActivity := unix

/-- What `/health` says. -/
structure HealthReply where
  activeSessions : Nat
  lastActivityTs : Int
  sessionRevision : UInt64
  draining : Bool

inductive DrainReply
  | error (status : Nat) (text : String)
  | draining (sessionRevision : UInt64)

/-- `strconv.ParseUint(text, 10, 64)` -/
def parseUint (text : List Char) : Option UInt64 :=
  if text ≠ [] ∧ text.all Char.isDigit ∧ Nat.ofDigitChars 10 text 0 < 2 ^ 64 then
    some (UInt64.ofNat (Nat.ofDigitChars 10 text 0))
  else none

namespace Server

variable (s : Server)

def touch (unix : Int) : Server := { s with lastActivity := unix }

/-- `reserve`, with the random id if there is one. -/
def reserve (now : Nat) (random : Option String) (unix : Int) : Server × Option String :=
  if s.drainUntil.any (now < ·) then (s, none)
  else
    let opened := { s with drainUntil := none }
    if opened.maxSessions ≤ opened.sessions.card then (opened, none)
    else
      match random with
      | none => (opened, none)
      | some id =>
        ({ opened with
            sessions := insert id opened.sessions
            revision := opened.revision + 1
            lastActivity := unix }, some id)

def release (id : String) (unix : Int) : Server :=
  if id ∈ s.sessions then
    { s with sessions := s.sessions.erase id, revision := s.revision + 1, lastActivity := unix }
  else s.touch unix

/-- `state`, as `health` reports it. -/
def health (now : Nat) : Server × HealthReply :=
  let s := if s.drainUntil.any (· ≤ now) then { s with drainUntil := none } else s
  (s, ⟨s.sessions.card, s.lastActivity, s.revision, s.drainUntil.isSome⟩)

def drain (now : Nat) (method : String) (revision : List Char) : Server × DrainReply :=
  if method ≠ "POST" then (s, .error 405 "method not allowed")
  else
    match parseUint revision with
    | none => (s, .error 400 "valid revision is required")
    | some expected =>
      if expected ≠ s.revision ∨ s.sessions ≠ ∅ then (s, .error 409 "terminal session state changed")
      else ({ s with drainUntil := some (now + drainLease) }, .draining s.revision)

/-- There are no more sessions than there may be, and none while a lease holds. -/
structure Sound (now : Nat) : Prop where
  bounded : s.sessions.card ≤ s.maxSessions
  drained : ∀ lease ∈ s.drainUntil, now < lease → s.sessions = ∅
  granted : ∀ lease ∈ s.drainUntil, lease ≤ now + drainLease

end Server

section Requests

variable {s : Server} {now : Nat}

theorem Server.sound_newServer (maxSessions : Nat) (unix : Int) : (newServer maxSessions unix).Sound now :=
  ⟨Nat.zero_le _, by rintro _ ⟨⟩, by rintro _ ⟨⟩⟩

theorem Server.Sound.later (h : s.Sound now) {now' : Nat} (hle : now ≤ now') : s.Sound now' :=
  ⟨h.bounded, fun lease hl hlt => h.drained lease hl (by omega),
    fun lease hl => (h.granted lease hl).trans (by omega)⟩

theorem Server.Sound.touch (h : s.Sound now) (unix : Int) : (s.touch unix).Sound now :=
  ⟨h.bounded, h.drained, h.granted⟩

/-- A reservation that is granted adds a session, and only if no lease holds; one that is refused does
nothing but forget a lease that is over. -/
theorem reserve_cases (s : Server) (now : Nat) (random : Option String) (unix : Int) :
    (∃ id, (s.reserve now random unix).2 = some id ∧ (∀ lease ∈ s.drainUntil, lease ≤ now) ∧
      s.sessions.card < s.maxSessions ∧ (s.reserve now random unix).1 = { s with
          drainUntil := none, sessions := insert id s.sessions, revision := s.revision + 1
          lastActivity := unix }) ∨
    ((s.reserve now random unix).2 = none ∧ ((s.reserve now random unix).1 = s ∨
      ((∀ lease ∈ s.drainUntil, lease ≤ now) ∧ (s.reserve now random unix).1 = { s with drainUntil := none }))) := by
  by_cases hclosed : s.drainUntil.any (now < ·)
  · have hreserve : s.reserve now random unix = (s, none) := if_pos hclosed
    exact .inr ⟨by rw [hreserve], .inl (by rw [hreserve])⟩
  · have hover : ∀ lease ∈ s.drainUntil, lease ≤ now := by
      intro lease hlease
      rw [Option.mem_def] at hlease
      simpa [hlease] using hclosed
    unfold Server.reserve
    rw [if_neg hclosed]
    by_cases hfull : s.maxSessions ≤ s.sessions.card
    · exact .inr ⟨by simp [hfull], .inr ⟨hover, by simp [hfull]⟩⟩
    · cases random with
      | none => exact .inr ⟨by simp [hfull], .inr ⟨hover, by simp [hfull]⟩⟩
      | some id => exact .inl ⟨id, by simp [hfull], hover, by omega, by simp [hfull]⟩

theorem Server.Sound.reserve (h : s.Sound now) (random : Option String) (unix : Int) :
    (s.reserve now random unix).1.Sound now := by
  rcases reserve_cases s now random unix with ⟨id, -, -, hfree, hs⟩ | ⟨-, hs | ⟨-, hs⟩⟩
  · rw [hs]
    refine ⟨?_, by rintro _ ⟨⟩, by rintro _ ⟨⟩⟩
    have := Finset.card_insert_le id s.sessions
    simp only
    omega
  · rw [hs]
    exact h
  · rw [hs]
    exact ⟨h.bounded, by rintro _ ⟨⟩, by rintro _ ⟨⟩⟩

theorem Server.Sound.release (h : s.Sound now) (id : String) (unix : Int) : (s.release id unix).Sound now := by
  unfold Server.release
  split
  · refine ⟨(Finset.card_erase_le).trans h.bounded, ?_, h.granted⟩
    intro lease hlease hlt
    have hnone := h.drained lease hlease hlt
    simp only [hnone, Finset.erase_empty]
  · exact h.touch unix

theorem health_cases (s : Server) (now : Nat) : (s.health now).1 = s ∨
    ((∀ lease ∈ s.drainUntil, lease ≤ now) ∧ (s.health now).1 = { s with drainUntil := none }) := by
  unfold Server.health
  cases hd : s.drainUntil with
  | none => exact .inl rfl
  | some lease =>
    by_cases hover : lease ≤ now
    · exact .inr ⟨by simpa using hover, by simp [hover]⟩
    · exact .inl (by simp [hover])

theorem Server.Sound.health (h : s.Sound now) : (s.health now).1.Sound now := by
  rcases health_cases s now with hs | ⟨-, hs⟩
  · rw [hs]
    exact h
  · rw [hs]
    exact ⟨h.bounded, by rintro _ ⟨⟩, by rintro _ ⟨⟩⟩

theorem drain_cases (s : Server) (now : Nat) (method : String) (revision : List Char) :
    ((s.drain now method revision).2 = .draining s.revision ∧ parseUint revision = some s.revision ∧
      s.sessions = ∅ ∧ (s.drain now method revision).1 = { s with drainUntil := some (now + drainLease) }) ∨
    ((∃ status text, (s.drain now method revision).2 = .error status text) ∧
      (s.drain now method revision).1 = s) := by
  unfold Server.drain
  by_cases hm : method ≠ "POST"
  · exact .inr ⟨⟨405, _, by rw [if_pos hm]⟩, by rw [if_pos hm]⟩
  · rw [if_neg hm]
    cases hr : parseUint revision with
    | none => exact .inr ⟨⟨400, _, rfl⟩, rfl⟩
    | some expected =>
      by_cases hchanged : expected ≠ s.revision ∨ s.sessions ≠ ∅
      · exact .inr ⟨⟨409, "terminal session state changed", by simp only [if_pos hchanged]⟩,
          by simp only [if_pos hchanged]⟩
      · obtain ⟨hsame, hnone⟩ := not_or.mp hchanged
        obtain rfl := not_not.mp hsame
        exact .inl ⟨by simp only [if_neg hchanged], rfl, not_not.mp hnone, by simp only [if_neg hchanged]⟩

theorem Server.Sound.drain (h : s.Sound now) (method : String) (revision : List Char) :
    (s.drain now method revision).1.Sound now := by
  rcases drain_cases s now method revision with ⟨-, -, hnone, hs⟩ | ⟨-, hs⟩
  · rw [hs]
    refine ⟨h.bounded, fun _ _ _ => hnone, ?_⟩
    rintro _ ⟨⟩
    exact Nat.le_refl _
  · rw [hs]
    exact h

theorem parseUint_toDigits (revision : UInt64) : parseUint (Nat.toDigits 10 revision.toNat) = some revision := by
  unfold parseUint
  rw [Nat.ofDigitChars_ten_toDigits, if_pos, UInt64.ofNat_toNat]
  refine ⟨Nat.toDigits_ne_nil, ?_, revision.toNat_lt⟩
  rw [List.all_eq_true]
  intro c hc
  exact Nat.isDigit_of_mem_toDigits (by decide) (by decide) hc

end Requests

/-- The requests of a Terminal, in the form in which they reach the mutex -/
inductive Request
  | reserve (random : Option String)
  | release (id : String)
  | touch
  | health
  | drain (method : String) (revision : List Char)

namespace Server

def serve (s : Server) (now : Nat) (unix : Int) : Request → Server
  | .reserve random => (s.reserve now random unix).1
  | .release id => s.release id unix
  | .touch => s.touch unix
  | .health => (s.health now).1
  | .drain method revision => (s.drain now method revision).1

def after (s : Server) (requests : List (Nat × Int × Request)) : Server :=
  requests.foldl (fun s r => s.serve r.1 r.2.1 r.2.2) s

theorem Sound.serve {s : Server} {now : Nat} (h : s.Sound now) (unix : Int) (request : Request) :
    (s.serve now unix request).Sound now := by
  cases request with
  | reserve random => exact h.reserve random unix
  | release id => exact h.release id unix
  | touch => exact h.touch unix
  | health => exact h.health
  | drain method revision => exact h.drain method revision

/-- Whatever is asked for in whatever order, as long as the clock does not go back: never more sessions than
there may be, none while a lease holds, and no lease beyond its time. -/
theorem sound_after (maxSessions : Nat) (unix : Int) {requests : List (Nat × Int × Request)} {now : Nat}
    (hclock : (requests.map Prod.fst ++ [now]).Pairwise (· ≤ ·)) :
    ((newServer maxSessions unix).after requests).Sound now := by
  suffices ∀ (s : Server) (t : Nat), s.Sound t → (t :: (requests.map Prod.fst ++ [now])).Pairwise (· ≤ ·) →
      (s.after requests).Sound now from
    this _ 0 (sound_newServer maxSessions unix) (List.pairwise_cons.mpr ⟨fun _ _ => Nat.zero_le _, hclock⟩)
  clear hclock
  induction requests with
  | nil => exact fun s t h hclock => h.later ((List.pairwise_cons.mp hclock).1 now List.mem_cons_self)
  | cons r requests ih =>
    intro s t h hclock
    obtain ⟨hfirst, hrest⟩ := List.pairwise_cons.mp hclock
    exact ih _ r.1 ((h.later (hfirst r.1 List.mem_cons_self)).serve r.2.1 r.2.2) hrest

/-- A drain is granted, and the next reservation is refused. -/
theorem sound_after_drain : ((newServer 1 0).after
    [(1, 0, .drain "POST" ['0']), (2, 0, .reserve (some "a"))]).Sound 3 :=
  sound_after 1 0 (by decide)

end Server

end PrivaCloud.Terminald
