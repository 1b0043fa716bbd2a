import PrivaCloud.Framework.Exclusion
import PrivaCloud.AgentRunner.Pool.Ownership

/-!
# Write scopes

A resident runtime with the write flag claims its write scope, and so does a key whose runtime is
still starting. The claims are exclusive, and a runtime that runs a turn outside of the plan mode
has a claim.
-/

namespace PrivaCloud.AgentRunner

open Framework

def ScopesConflict (a b : List Path) : Prop := writeScopesOverlap a b = true

instance : Std.Symm ScopesConflict where
  symm a b h := by
    simp only [ScopesConflict, writeScopesOverlap, List.any_eq_true, Bool.or_eq_true, decide_eq_true_eq] at h ⊢
    obtain ⟨p, hp, q, hq, h⟩ := h
    refine ⟨q, hq, p, hp, ?_⟩
    rcases h with (h | h) | h
    · exact .inl (.inl h.symm)
    · exact .inr h
    · exact .inl (.inr h)

variable {v : SessionRuntime}

namespace SessionRuntime

def Printed (v : SessionRuntime) : Prop :=
  v.writeScope = (v.fingerprint.1.toList ++ v.fingerprint.2.1).eraseDups

private theorem Evolves.printed {v' : SessionRuntime} (he : v.Evolves v') (h : v.Printed) : v'.Printed := by
  unfold Printed at h ⊢
  rw [he.writeScope, he.fingerprint]
  exact h

def claimedScope (v : SessionRuntime) : Option (List Path) :=
  if v.resident && v.turnWriteCapable then some v.writeScope else none

private theorem claimedScope_eq_some {a : List Path} : v.claimedScope = some a ↔
    v.resident = true ∧ v.turnWriteCapable = true ∧ v.writeScope = a := by
  unfold claimedScope
  split
  · rename_i h
    simp_all
  · rename_i h
    simp only [Bool.and_eq_true, not_and] at h
    simp only [reduceCtorEq, false_iff, not_and]
    exact fun hr hw => absurd hw (h hr)

private theorem claimedScope_mono {v' : SessionRuntime} (hr : v'.resident = true → v.resident = true)
    (hw : v'.turnWriteCapable = true → v.turnWriteCapable = true)
    (hs : v'.writeScope = v.writeScope) {a : List Path} (h : v'.claimedScope = some a) :
    v.claimedScope = some a := by
  rw [claimedScope_eq_some] at h ⊢
  exact ⟨hr h.1, hw h.2.1, hs ▸ h.2.2⟩

end SessionRuntime

namespace TaskPhase

def starts : TaskPhase → Option AcquireArgs
  | .evicting args _ | .connecting args _ | .switching args _ true | .reverting args _ true =>
    some args
  | _ => none

private theorem held_of_starts {phase : TaskPhase} {args : AcquireArgs} (h : phase.starts = some args) :
    phase.held = some args.key := by
  cases phase with
  | evicting | connecting =>
    cases h
    rfl
  | switching args' r fresh | reverting args' r fresh =>
    cases fresh with
    | true =>
      cases h
      rfl
    | false => cases h
  | _ => cases h

end TaskPhase

namespace PoolSystem

def claimedScopes (s : PoolSystem) : Nat ⊕ String → Option (List Path)
  | .inl r => (s.heap r).claimedScope
  | .inr key => s.pool.startingWriteScopes.lookup key

structure Apart (s : PoolSystem) : Prop where
  apart : Exclusive ScopesConflict s.claimedScopes
  announced : ∀ t args, (s.tasks t).starts = some args → args.mode ≠ idlePermissionMode →
    s.pool.startingWriteScopes.lookup args.key = some args.options.writeScope
  printed : ∀ r, (s.heap r).Printed

private theorem apart_init (capacity : Option Nat) (memory : RuntimeMemorySnapshot) : (init capacity memory).Apart where
  apart := by
    rintro (r | k) j a b - hi
    · cases hi
    · cases hi
  announced _ _ h := by cases h
  printed _ := rfl

section Primitives

variable {s : PoolSystem} {t r : Nat}

private theorem Apart.reheap (h : s.Apart) {heap : Nat → SessionRuntime}
    (hc : ∀ r a, (heap r).claimedScope = some a → (s.heap r).claimedScope = some a)
    (hp : ∀ r, (heap r).Printed) : { s with heap := heap }.Apart where
  apart := by
    apply h.apart.mono
    rintro (r | k) a ha
    · exact hc r a ha
    · exact ha
  announced := h.announced
  printed := hp

private theorem Apart.setRuntime (h : s.Apart)
    (hc : ∀ a, v.claimedScope = some a → (s.heap r).claimedScope = some a) (hp : v.Printed) :
    (s.setRuntime r v).Apart := by
  apply h.reheap
  · intro r' a ha
    by_cases he : r' = r
    · subst he
      rw [Function.update_self] at ha
      exact hc a ha
    · rwa [Function.update_of_ne he] at ha
  · intro r'
    by_cases he : r' = r
    · subst he
      rw [Function.update_self]
      exact hp
    · rw [Function.update_of_ne he]
      exact h.printed r'

private theorem Apart.evolves (h : s.Apart) (he : (s.heap r).Evolves v) :
    (s.setRuntime r v).Apart := by
  apply h.setRuntime _ (he.printed (h.printed r))
  intro a ha
  exact SessionRuntime.claimedScope_mono (fun hr => he.resident ▸ hr) he.writes he.writeScope ha

private theorem Apart.setOutside (h : s.Apart) (hr : v.resident = false)
    (hw : v.writeScope = (s.heap r).writeScope) (hp : v.fingerprint = (s.heap r).fingerprint) :
    (s.setRuntime r v).Apart := by
  apply h.setRuntime
  · intro a ha
    rw [SessionRuntime.claimedScope_eq_some, hr] at ha
    cases ha.1
  · have := h.printed r
    unfold SessionRuntime.Printed at this ⊢
    rwa [hw, hp]

private theorem Apart.setPool (h : s.Apart) {pool : SessionRuntimePool}
    (hp : pool.startingWriteScopes = s.pool.startingWriteScopes) : (s.setPool pool).Apart where
  apart := by
    apply h.apart.mono
    rintro (r | k) a ha
    · exact ha
    · simpa [claimedScopes, PoolSystem.setPool, hp] using ha
  announced t args ha hm := by
    simp only [PoolSystem.setPool, hp]
    exact h.announced t args ha hm
  printed := h.printed

private theorem Apart.setTask (h : s.Apart) (phase : TaskPhase)
    (ha : ∀ args, phase.starts = some args → args.mode ≠ idlePermissionMode →
      s.pool.startingWriteScopes.lookup args.key = some args.options.writeScope) :
    (s.setTask t phase).Apart where
  apart := h.apart
  announced t' args hs hm := by
    by_cases he : t' = t
    · subst he
      simp only [PoolSystem.setTask, Function.update_self] at hs
      exact ha args hs hm
    · simp only [PoolSystem.setTask, Function.update_of_ne he] at hs
      exact h.announced t' args hs hm
  printed := h.printed

private theorem Apart.pass (h : s.Apart) (phase : TaskPhase)
    (hs : phase.starts = none ∨ phase.starts = (s.tasks t).starts) :
    (s.setTask t phase).Apart := by
  apply h.setTask
  intro args ha hm
  rcases hs with hs | hs
  · rw [hs] at ha
    cases ha
  · exact h.announced t args (hs ▸ ha) hm

private theorem Apart.spawn (h : s.Apart) (phase : TaskPhase) (hs : phase.starts = none) : (s.spawn phase).Apart := by
  obtain ⟨ha, hn, hp⟩ := h.pass (t := s.spawned) phase (.inl hs)
  exact ⟨ha, hn, hp⟩

private theorem Apart.evict (h : s.Apart) (r : Nat) : (s.evict r).Apart := by
  have hp : (s.setPool (s.pool.remove r)).Apart := h.setPool rfl
  refine hp.setOutside rfl ?_ ?_
  · unfold SessionRuntime.dismiss
    rw [SessionRuntime.requestClose_eq]
    rfl
  · unfold SessionRuntime.dismiss
    rw [SessionRuntime.requestClose_eq]
    rfl

private theorem Apart.retireBusy (h : s.Apart) (busy : SessionRuntime → Bool) : (s.retireBusy busy).Apart := by
  apply h.reheap
  · intro r a ha
    split at ha
    · exact ha
    · exact ha
  · intro r
    split
    · exact h.printed r
    · exact h.printed r

private theorem shrinks_apart : Shrinks Apart where
  evict _ r h := h.evict r
  retireBusy _ busy h := h.retireBusy busy
  retireLater _ _ h := h.evolves (SessionRuntime.evolves_retireLater _)

private theorem Apart.allocate (h : s.Apart) (hr : v.resident = false)
    (hp : v.Printed) : (s.allocate v).Apart := by
  have hset := h.setRuntime (r := s.allocated) (v := v)
    (fun a ha => by rw [SessionRuntime.claimedScope_eq_some, hr] at ha; cases ha.1) hp
  exact ⟨hset.apart, hset.announced, hset.printed⟩

end Primitives

variable {now : Nat}

section Turns

variable {s : PoolSystem} {t r : Nat} {args : AcquireArgs}

private theorem Apart.discard (h : s.Apart) {key : String} (hk : ∀ t, (s.tasks t).held ≠ some key) :
    (s.setPool (s.pool.discardStarting key)).Apart where
  apart := by
    apply h.apart.mono
    rintro (r | k) a ha
    · exact ha
    · by_cases he : k = key
      · subst he
        simp [claimedScopes, PoolSystem.setPool, SessionRuntimePool.discardStarting] at ha
      · simpa [claimedScopes, PoolSystem.setPool, SessionRuntimePool.discardStarting,
          AList.lookup_erase_ne he] using ha
  announced t args hs hm := by
    have he : args.key ≠ key := fun he => hk t (he ▸ TaskPhase.held_of_starts hs)
    simp only [PoolSystem.setPool, SessionRuntimePool.discardStarting, AList.lookup_erase_ne he]
    exact h.announced t args hs hm
  printed := h.printed

private theorem Apart.failStart (h : s.Apart) (fresh : Bool) : (s.failStart t args r fresh).Apart := by
  cases fresh with
  | true => exact (h.evolves (s.heap r).evolves_requestClose).pass _ (.inl rfl)
  | false => exact (h.evict r).pass _ (.inl rfl)

private theorem Apart.moveIn (h : s.Apart) {key : String} (late : Bool) (hk : ∀ t, (s.tasks t).held ≠ some key)
    (hw : (s.heap r).turnWriteCapable = true →
      s.pool.startingWriteScopes.lookup key = some (s.heap r).writeScope) :
    ((s.setPool ((s.pool.discardStarting key).enter key r)).setRuntime r
      ((s.heap r).moveIn late)).Apart := by
  have hd := h.discard hk
  constructor
  · apply h.apart.handOver (i := .inr key) (j := .inl r)
    · exact AList.lookup_erase _ _
    · intro a ha
      simp only [claimedScopes, setRuntime_heap_self] at ha
      obtain ⟨-, hflag, rfl⟩ := SessionRuntime.claimedScope_eq_some.mp ha
      exact hw hflag
    · rintro (r' | k) a hi hj ha
      · have he : r' ≠ r := fun he => hj (he ▸ rfl)
        simpa [claimedScopes, PoolSystem.setRuntime, PoolSystem.setPool, he] using ha
      · have he : k ≠ key := fun he => hi (he ▸ rfl)
        simpa [claimedScopes, PoolSystem.setRuntime, PoolSystem.setPool, SessionRuntimePool.enter,
          SessionRuntimePool.discardStarting, AList.lookup_erase_ne he] using ha
  · exact hd.announced
  · intro r'
    by_cases he : r' = r
    · subst he
      rw [setRuntime_heap_self]
      exact h.printed r'
    · simpa [PoolSystem.setRuntime, PoolSystem.setPool, he] using h.printed r'

private theorem Apart.register (h : s.Apart) (hord : s.Ordered) (hk : (s.tasks t).held = some args.key)
    (hw : (s.heap r).turnWriteCapable = true →
      s.pool.startingWriteScopes.lookup args.key = some (s.heap r).writeScope) :
    (s.register t args r).Apart := by
  have hover : (s.setTask t .ended).Apart := h.pass _ (.inl rfl)
  have hnokey (t' : Nat) : ((s.setTask t .ended).tasks t').held ≠ some args.key := by
    by_cases he : t' = t
    · simp [PoolSystem.setTask, he, TaskPhase.held]
    · intro hk'
      exact he (hord.holders t' t args.key (by simpa [PoolSystem.setTask, he] using hk') hk)
  simp only [PoolSystem.register]
  split
  · have hc := (hover.discard hnokey).evolves ((s.heap r).evolves_requestClose)
    rw [← setTask_setTask _ t .ended]
    exact hc.pass _ (.inl rfl)
  · have hm (late : Bool) := hover.moveIn (r := r) late hnokey hw
    rw [← setTask_setTask _ t .ended]
    exact (hm _).pass _ (.inl rfl)

private theorem Apart.takeSwitched (h : s.Apart) (hord : s.Ordered) {fresh : Bool}
    (ht : s.tasks t = .switching args r fresh)
    (hstart : fresh = false → (s.heap r).resident = true → (s.heap r).state = .starting) :
    (s.takeTurn t args r fresh now).Apart := by
  have hs := hord.suits t r (by rw [ht]; rfl)
  rw [ht] at hs
  have hown : (s.setRuntime r ((s.heap r).ownTurn t args.binding args.mode now)).Apart := by
    by_cases hres : (s.heap r).resident = true
    · cases fresh with
      | true =>
        rw [hs.1] at hres
        cases hres
      | false =>
        refine h.setRuntime ?_ ?_
        · intro a ha
          apply SessionRuntime.claimedScope_mono _ _ _ ha
          · exact id
          · rw [hs.2 (hstart rfl hres)]
            exact id
          · rfl
        · exact h.printed r
    · refine h.setOutside ?_ ?_ ?_
      · exact Bool.eq_false_iff.mpr hres
      · rfl
      · rfl
  simp only [PoolSystem.takeTurn]
  split
  · exact hown.failStart fresh
  split
  · rename_i hfresh
    subst hfresh
    refine hown.register ?_ ?_ ?_
    · refine hord.setRuntime ?_ ?_ ?_
      · rfl
      · rfl
      · intro t' hr'
        obtain rfl := hord.tenants t' t r hr' (by rw [ht]; rfl)
        rw [ht]
        exact hs
    · simp [PoolSystem.setRuntime, ht, TaskPhase.held]
    · rw [setRuntime_heap_self]
      intro hflag
      have hm : args.mode ≠ idlePermissionMode := by
        simpa [SessionRuntime.ownTurn] using hflag
      have ha := h.announced t args (by rw [ht]; rfl) hm
      rw [← hs.2.2] at ha
      exact ha
  · exact hown.pass _ (.inl rfl)

private theorem Apart.beginTurn {fresh : Bool} (h : (s.setTask t (.switching args r fresh)).Apart)
    (hord : (s.setTask t (.switching args r fresh)).Ordered)
    (hstart : fresh = false → (s.heap r).resident = true → (s.heap r).state = .starting) :
    (s.beginTurn t args r fresh now).Apart :=
  beginTurn_cases (P := PoolSystem.Apart) h fun ht => h.takeSwitched hord ht hstart

private theorem Ordered.claims_clear (hord : s.Ordered)
    (hclear : s.pool.Clear s.heap args.key args.options) (hm : args.mode ≠ idlePermissionMode)
    (j : Nat ⊕ String) (b : List Path) (hb : s.claimedScopes j = some b) :
    ¬ScopesConflict args.options.writeScope b := by
  obtain ⟨hresident, hstarting⟩ := hclear.writes hm
  intro hc
  cases j with
  | inl r =>
    obtain ⟨hres, hflag, rfl⟩ := SessionRuntime.claimedScope_eq_some.mp hb
    have hmem : r ∈ s.pool.runtimes.values :=
      Dict.mem_values.mpr ⟨_, (hord.keyed _ r).mpr ⟨hres, rfl⟩⟩
    have := List.any_eq_false.mp hresident r hmem
    simp [hflag, show writeScopesOverlap _ _ = true from hc] at this
  | inr k =>
    have := List.any_eq_false.mp hstarting b (Dict.mem_values.mpr ⟨k, hb⟩)
    exact this hc

private theorem claimedScopes_evict {v : Nat} {j : Nat ⊕ String} {b : List Path}
    (hb : (s.evict v).claimedScopes j = some b) : s.claimedScopes j = some b := by
  cases j with
  | inl r =>
    by_cases he : r = v
    · subst he
      simp [claimedScopes, PoolSystem.evict, SessionRuntime.claimedScope, SessionRuntime.dismiss] at hb
    · simpa [claimedScopes, PoolSystem.evict, PoolSystem.setRuntime, PoolSystem.setPool, he]
        using hb
  | inr k => exact hb

private theorem Apart.announce (h : s.Apart) (hord : s.Ordered) (hk : args.key ∉ s.pool.starting)
    (hfree : args.mode ≠ idlePermissionMode → ∀ j b, s.claimedScopes j = some b →
      ¬ScopesConflict args.options.writeScope b) :
    (s.setPool (s.pool.addStarting args.key t args.options)).Apart := by
  by_cases hm : args.mode = idlePermissionMode
  · exact h.setPool (if_neg fun hn => hn hm)
  · have htable : (s.pool.addStarting args.key t args.options).startingWriteScopes =
        s.pool.startingWriteScopes.insert args.key args.options.writeScope := if_pos hm
    constructor
    · apply h.apart.take (.inr args.key)
      · intro a ha j b _ hb
        have ha : some args.options.writeScope = some a := by
          simpa [claimedScopes, PoolSystem.setPool, htable] using ha
        cases ha
        exact hfree hm j b hb
      · rintro (r' | k) a hne ha
        · exact ha
        · have he : k ≠ args.key := fun he => hne (he ▸ rfl)
          simpa [claimedScopes, PoolSystem.setPool, htable, AList.lookup_insert_ne he] using ha
    · intro t' args' hs hm'
      have he : args'.key ≠ args.key := by
        intro he
        exact hk (he ▸ hord.held t' args'.key (TaskPhase.held_of_starts hs))
      simp only [PoolSystem.setPool, htable, AList.lookup_insert_ne he]
      exact h.announced t' args' hs hm'
    · exact h.printed

private theorem lookup_addStarting (p : SessionRuntimePool) (hm : args.mode ≠ idlePermissionMode) :
    (p.addStarting args.key t args.options).startingWriteScopes.lookup args.key =
      some args.options.writeScope := by
  have htable : (p.addStarting args.key t args.options).startingWriteScopes =
      p.startingWriteScopes.insert args.key args.options.writeScope := if_pos hm
  rw [htable, AList.lookup_insert]

private theorem Apart.reserve (h : s.Apart) (hord : s.Ordered) {memory : RuntimeMemorySnapshot}
    (hadm : s.pool.admission s.heap args.key args.options memory = .reuse r) :
    (s.setRuntime r ((s.heap r).reserve (args.mode ≠ idlePermissionMode))).Apart := by
  obtain ⟨hclear, -, -, hprint⟩ := SessionRuntimePool.admission_backed hadm nofun
  have hscope : (s.heap r).writeScope = args.options.writeScope := by
    rw [h.printed r, hprint]
    rfl
  constructor
  · apply h.apart.take (.inl r)
    · intro a ha j b _ hb
      simp only [claimedScopes, setRuntime_heap_self] at ha
      obtain ⟨-, hflag, rfl⟩ := SessionRuntime.claimedScope_eq_some.mp ha
      have hm : args.mode ≠ idlePermissionMode := by
        simpa [SessionRuntime.reserve] using hflag
      rw [show ((s.heap r).reserve (args.mode ≠ idlePermissionMode)).writeScope =
        (s.heap r).writeScope from rfl, hscope]
      exact hord.claims_clear hclear hm j b hb
    · rintro (r' | k) a hne ha
      · have he : r' ≠ r := fun he => hne (he ▸ rfl)
        simpa [claimedScopes, PoolSystem.setRuntime, he] using ha
      · exact ha
  · exact h.announced
  · intro r'
    by_cases he : r' = r
    · subst he
      rw [setRuntime_heap_self]
      exact h.printed r'
    · simpa [PoolSystem.setRuntime, he] using h.printed r'

private theorem Apart.startRuntime (h : s.Apart) (now : Nat) (hw : args.mode ≠ idlePermissionMode →
      s.pool.startingWriteScopes.lookup args.key = some args.options.writeScope) :
    (s.startRuntime t args now).Apart := by
  have hmade : (s.allocate (.create args.key args.options now)).Apart := h.allocate rfl rfl
  apply hmade.setTask
  intro args' ha
  cases ha
  exact hw

private theorem Apart.enter (h : s.Apart) (hord : s.Ordered) {memory : RuntimeMemorySnapshot}
    {deferred : Bool} (ht : s.tasks t ≠ .new) :
    (s.enter t args memory deferred now).Apart := by
  unfold PoolSystem.enter
  split
  · exact h.pass _ (.inl rfl)
  · rename_i r hadm
    have hreserved := h.reserve hord hadm
    simp only
    split
    · exact hreserved.failStart false
    · refine Apart.beginTurn ?_ (hord.reserveTurn hadm ht) ?_
      · exact hreserved.pass _ (.inl rfl)
      · intro _ _
        rw [setRuntime_heap_self]
        rfl
  · rename_i victim hadm
    obtain ⟨hclear, -⟩ := SessionRuntimePool.admission_backed hadm nofun
    have hann := (h.evict victim).announce (t := t) (hord.evict victim) hclear.starting
      fun hm j b hb => hord.claims_clear hclear hm j b (claimedScopes_evict hb)
    apply hann.setTask
    intro args' ha
    cases ha
    exact lookup_addStarting _
  · rename_i hadm
    obtain ⟨hclear, -⟩ := SessionRuntimePool.admission_backed hadm nofun
    exact (h.announce hord hclear.starting (hord.claims_clear hclear)).startRuntime now
      (lookup_addStarting _)

private theorem Apart.remap (h : s.Apart) (sessionId : String) : (s.remap r sessionId).Apart := by
  unfold PoolSystem.remap
  split
  · exact h
  split
  · refine h.setRuntime ?_ ?_
    · exact fun _ ha => ha
    · exact h.printed r
  · have hp : (s.setPool (s.pool.rekey (s.heap r).key sessionId r)).Apart := h.setPool rfl
    refine hp.setRuntime ?_ ?_
    · exact fun _ ha => ha
    · exact h.printed r

private theorem Apart.finishTurn (h : s.Apart) (hw : v.writeScope = (s.heap r).writeScope)
    (hp : v.fingerprint = (s.heap r).fingerprint) (unread : List (PeerEnv × Frame))
    (tainted keepWarm : Bool) (now : Nat) :
    (s.setRuntime r (v.finishTurn unread tainted keepWarm now)).Apart := by
  have hflag : (v.finishTurn unread tainted keepWarm now).turnWriteCapable = false := by
    by_contra hn
    have hobs := (SessionRuntime.observes_observeUnread v.releaseQueue unread).writes
    have := hobs (by simpa [SessionRuntime.finishTurn, SessionRuntime.settle] using hn)
    cases this
  apply h.setRuntime
  · intro a ha
    rw [SessionRuntime.claimedScope_eq_some, hflag] at ha
    cases ha.2.1
  · have hprint := h.printed r
    unfold SessionRuntime.Printed at hprint ⊢
    rw [SessionRuntime.finishTurn_eq]
    simp only
    rwa [hw, hp]

private theorem Apart.finishRelease (h : s.Apart) {rargs : ReleaseArgs} (safe reset : Bool)
    (unread : List UnreadFrame) (now : Nat) :
    (s.finishRelease t r rargs safe reset unread now).Apart := by
  have hsettle (v : SessionRuntime) (hv : (s.setRuntime r v).Apart) :
      ((s.setRuntime r v).settleRelease t r rargs.keepWarm).Apart := by
    unfold PoolSystem.settleRelease
    split
    · exact (hv.evict r).pass _ (.inl rfl)
    · exact hv.pass _ (.inl rfl)
  simp only [PoolSystem.finishRelease]
  apply hsettle
  apply h.finishTurn
  · split <;> rfl
  · split <;> rfl

end Turns

section Steps

variable {s s' : PoolSystem}

private theorem Apart.discardKey (h : s.Apart) (hord : s.Ordered) {t : Nat} {key : String}
    (hk : (s.tasks t).held = some key) : (s.discardKey t key).Apart := by
  have hover : (s.setTask t .ended).Apart := h.pass _ (.inl rfl)
  apply hover.discard
  intro t'
  by_cases he : t' = t
  · simp [PoolSystem.setTask, he, TaskPhase.held]
  · intro hk'
    exact he (hord.holders t' t key (by simpa [PoolSystem.setTask, he] using hk') hk)

/-- The test of `start_turn` leaves a runtime of the pool only in `starting`. -/
theorem Ordered.starting_of_unblocked (hord : s.Ordered) {t r : Nat} {args : AcquireArgs}
    (hp : s.tasks t = .switching args r false)
    (hres : ((s.setRuntime r ((s.heap r).setPermissionMode args.mode)).heap r).resident = true)
    (hb : ¬((s.setRuntime r ((s.heap r).setPermissionMode args.mode)).heap r).startBlocked = true) :
    ((s.setRuntime r ((s.heap r).setPermissionMode args.mode)).heap r).state = .starting := by
  rw [setRuntime_heap_self] at hres hb ⊢
  have hsuits := hord.suits t r (by rw [hp]; rfl)
  rw [hp] at hsuits
  have hidle : ((s.heap r).setPermissionMode args.mode).state ≠ .idle := hsuits.1 hres
  simp only [SessionRuntime.startBlocked, Bool.or_eq_true, Bool.not_eq_true', not_or] at hb
  simpa [hidle] using hb.1

private theorem Apart.switched (h : s.Apart) (hord : s.Ordered) {t : Nat}
    (hs : s.step (.switched t now) = some s') : s'.Apart := by
  simp only [PoolSystem.step] at hs
  split at hs
  · rename_i args r fresh hp
    have hm : (s.setRuntime r ((s.heap r).setPermissionMode args.mode)).Apart :=
      h.evolves (SessionRuntime.evolves_setPermissionMode _ _)
    split at hs <;> cases hs
    · apply hm.pass
      rw [show (s.setRuntime r ((s.heap r).setPermissionMode args.mode)).tasks t =
        .switching args r fresh from hp]
      cases fresh
      · exact .inl rfl
      · exact .inr rfl
    · rename_i hblocked
      refine hm.takeSwitched ?_ hp ?_
      · exact hord.evolves (SessionRuntime.evolves_setPermissionMode _ _) fun _ _ _ _ hs => hs
      · rintro rfl hres
        exact hord.starting_of_unblocked hp hres hblocked
  · cases hs

private theorem Apart.step (h : s.Apart) (hord : s.Ordered) {e : PoolEvent} (hs : s.step e = some s') : s'.Apart := by
  cases step_moves hs with
  | acquire args memory =>
    exact (shrinks_apart.refresh _ (h.setPool rfl)).spawn _ rfl
  | admission t deferred now hp =>
    exact h.enter hord (by simp [hp])
  | @evicted t now args victim hp =>
    exact h.startRuntime now (h.announced t args (by rw [hp]; rfl))
  | @connected t now args r hp =>
    have hr : (s.tasks t).owned = some r := by rw [hp]; rfl
    have hsuits := hord.suits t r hr
    rw [hp] at hsuits
    have hc : (s.setRuntime r ((s.heap r).connected now)).Apart := by
      refine h.setOutside ?_ ?_ ?_
      · exact hsuits.1
      · rfl
      · rfl
    refine Apart.beginTurn ?_ (hord.connectedTurn now hp) fun hn => by cases hn
    apply hc.pass
    rw [show (s.setRuntime r ((s.heap r).connected now)).tasks t = .connecting args r from hp]
    exact .inr rfl
  | connectFails t =>
    exact (h.evolves ((SessionRuntime.evolves_poison _).trans
      (SessionRuntime.evolves_requestClose _))).pass _ (.inl rfl)
  | switched t now | blocked t now => exact h.switched hord hs
  | reverted t =>
    exact (h.evolves (SessionRuntime.evolves_setPermissionMode _ _)).failStart _
  | startFails t =>
    exact h.failStart _
  | discarded t hk => exact h.discardKey hord hk
  | closed | aborted | cancelEviction | cancelConnect | cancelFailing => exact h.pass _ (.inl rfl)
  | unbindTurn t =>
    exact h.evolves (SessionRuntime.evolves_dropBinding _)
  | resetTurn t =>
    exact h.evolves (SessionRuntime.evolves_setPermissionMode _ _)
  | remap t sessionId =>
    exact h.remap sessionId
  | release t args =>
    exact (h.evolves (SessionRuntime.evolves_dropBinding _)).pass _ (.inl rfl)
  | quiesced t safe reset unread now =>
    exact h.finishRelease safe reset unread now
  | releaseFails t =>
    exact (h.evict _).pass _ (.inl rfl)
  | evolve r e memory hr hv => exact h.evolves (SessionRuntime.evolves_evolve hv)
  | refreshCapacity memory preserve =>
    exact shrinks_apart.refresh preserve (h.setPool rfl)
  | configure capacity =>
    exact shrinks_apart.configure (h.setPool rfl)
  | unconfigured =>
    exact h
  | recycleAll =>
    exact shrinks_apart.recycleAll h
  | reserveSession key live cancelActive =>
    exact shrinks_apart.reserveSession h live cancelActive (h.setPool rfl)
  | reserveSweep key expired =>
    exact shrinks_apart.reserveSweep h key expired
  | releaseMaintenance key =>
    exact h.setPool rfl
  | retire r =>
    exact h.evolves (((s.heap r).evolves_requestClose).trans
      (SessionRuntime.evolves_setRetireTask _ .closing))
  | retired r =>
    exact (h.evolves (SessionRuntime.evolves_setRetireTask _ .done)).evict r

end Steps

/-- The runtime is in the pool and runs the turn of a lease whose mode is not the plan mode. -/
def RunsWriting (s : PoolSystem) (r : Nat) : Prop :=
  (∃ k, s.pool.runtimes.lookup k = some r) ∧ (s.heap r).state = .running ∧
    ∃ t mode, (s.heap r).activeQueue = some t ∧ mode ≠ idlePermissionMode ∧
      (s.tasks t = .leased r mode ∨ ∃ args, s.tasks t = .releasing r mode args)

/-- No two runtimes write to overlapping scopes at the same time. -/
def WritesApart (s : PoolSystem) : Prop :=
  ∀ r r', r ≠ r' → s.RunsWriting r → s.RunsWriting r' →
    writeScopesOverlap (s.heap r).writeScope (s.heap r').writeScope = false

private theorem Ordered.claims_of_runsWriting {s : PoolSystem} (hord : s.Ordered) {r : Nat}
    (hr : s.RunsWriting r) : s.claimedScopes (.inl r) = some (s.heap r).writeScope := by
  obtain ⟨⟨k, hk⟩, -, t, mode, hq, hm, hp⟩ := hr
  have hres := ((hord.keyed k r).mp hk).1
  have hflag : (s.heap r).turnWriteCapable = decide (mode ≠ idlePermissionMode) := by
    rcases hp with hp | ⟨args, hp⟩
    · have hs := hord.suits t r (by rw [hp]; rfl)
      rw [hp] at hs
      exact hs.2 hq
    · have hs := hord.suits t r (by rw [hp]; rfl)
      rw [hp] at hs
      exact hs.2 hq
  exact SessionRuntime.claimedScope_eq_some.mpr ⟨hres, by rw [hflag]; simpa using hm, rfl⟩

/-- Whatever the interleaving, writing turns stay apart, unless the turn of a peer ends on a runtime
that an `acquire` has just reserved. -/
theorem writesApart_of_keepsReservation (capacity : Option Nat) (memory : RuntimeMemorySnapshot)
    (es : List PoolEvent) (s : PoolSystem)
    (hm : RunMeets step KeepsReservation (init capacity memory) es)
    (hr : run step (init capacity memory) es = some s) : s.WritesApart := by
  have hstep (s : PoolSystem) (e : PoolEvent) (s' : PoolSystem) (hi : s.Ordered ∧ s.Apart)
      (hc : KeepsReservation s e) (hs : s.step e = some s') : s'.Ordered ∧ s'.Apart :=
    ⟨hi.1.step hc hs, hi.2.step hi.1 hs⟩
  obtain ⟨hord, h⟩ := run_invariant hstep
    ⟨ordered_init capacity memory, apart_init capacity memory⟩ hm hr
  intro r r' hne hw hw'
  have := h.apart (.inl r) (.inl r') _ _ (fun he => hne (Sum.inl.inj he))
    (hord.claims_of_runsWriting hw) (hord.claims_of_runsWriting hw')
  exact Bool.eq_false_iff.mpr this

/-- Two sessions write in the same directory one after the other. -/
def turnByTurn : List PoolEvent :=
  warmUp "a" 0 ++ warmUp "b" 1 ++ [.acquire (userArgs "a") {}, .admission 2 false 5,
    .acquire (userArgs "b") {}, .admission 3 false 6, .switched 2 7, peerBegins 1]

theorem writesApart_turnByTurn :
    ∃ s, run step (init (some 2) {}) turnByTurn = some s ∧ s.tasks 2 = .leased 0 .default ∧
      s.tasks 3 = .ended ∧ s.WritesApart := by
  obtain ⟨s, hr, ht⟩ := exists_run_of_map step (init (some 2) {}) turnByTurn
    (fun s => s.tasks 2 = .leased 0 .default ∧ s.tasks 3 = .ended) (by decide)
  obtain ⟨h₂, h₃⟩ := of_decide_eq_true ht
  exact ⟨s, hr, h₂, h₃, writesApart_of_keepsReservation (some 2) {} turnByTurn s (by decide) hr⟩

/-- A peer turn takes the write flag from the runtime that task 2 has reserved. Task 3 is let in on
the same directory, the peer turn ends, and task 2 starts its turn without another check. -/
def flagLost : List PoolEvent :=
  warmUp "a" 0 ++ warmUp "b" 1 ++ [.acquire (userArgs "a") {}, .admission 2 false 5, peerBegins 0,
    .acquire (userArgs "b") {}, .admission 3 false 6, .switched 3 7, peerEnds 0, .switched 2 8]

theorem flagLost_not_writesApart : ∃ s, run step (init (some 2) {}) flagLost = some s ∧ ¬s.WritesApart := by
  obtain ⟨s, hr, ht⟩ := exists_run_of_map step (init (some 2) {}) flagLost
    (fun s => (s.tasks 2 = .leased 0 .default ∧ s.tasks 3 = .leased 1 .default) ∧
      (s.pool.runtimes.lookup "a" = some 0 ∧ s.pool.runtimes.lookup "b" = some 1) ∧
      ((s.heap 0).state = .running ∧ (s.heap 1).state = .running) ∧
      ((s.heap 0).activeQueue = some 2 ∧ (s.heap 1).activeQueue = some 3) ∧
      writeScopesOverlap (s.heap 0).writeScope (s.heap 1).writeScope = true) (by decide)
  obtain ⟨⟨ht₂, ht₃⟩, ⟨ha, hb⟩, ⟨hs₀, hs₁⟩, ⟨hq₀, hq₁⟩, ho⟩ := of_decide_eq_true ht
  refine ⟨s, hr, fun h => ?_⟩
  rw [h 0 1 (by decide) ⟨⟨"a", ha⟩, hs₀, 2, .default, hq₀, by decide, .inl ht₂⟩
    ⟨⟨"b", hb⟩, hs₁, 3, .default, hq₁, by decide, .inl ht₃⟩] at ho
  cases ho

end PoolSystem

end PrivaCloud.AgentRunner
