import Mathlib.Data.List.Sort
import PrivaCloud.Framework.Dict

/-!
# The runtimes of the conversations

`registry.js`: the registry finds the runtime of a conversation, with its slices, by its key. A runtime that it has
dropped lives on in the streams bound to it, so runtimes are objects with an identity of their own.
-/

namespace PrivaCloud.Web

open Framework

variable {Sid Data : Type} [DecidableEq Sid] [Inhabited Data]

/-- `draft-<n>`, or the id of a session. -/
inductive RuntimeKey (Sid : Type)
  | draft (n : Nat)
  | session (id : Sid)
  deriving DecidableEq

/-- A runtime with what the registry and the streams read of its chat slice. A slice that has not been asked
for yet is a fresh one. -/
structure SessionRuntime (Sid Data : Type) where
  key : RuntimeKey Sid
  lastActiveAt : Nat
  /-- `chat.sessionId` -/
  sessionId : Option (RuntimeKey Sid) := none
  streamGeneration : Nat := 0
  isStreaming : Bool := false
  /-- the stream that the handle aborts -/
  streamAbort : Option Nat := none
  /-- `pendingPermission`, or a permission in `permissionQueue` -/
  awaitsPermission : Bool := false
  /-- `pendingAskUser` or `pendingPlanApproval` -/
  awaitsAnswer : Bool := false
  /-- all else in the five slices -/
  slices : Data

/-- `createRuntimeObject` -/
def SessionRuntime.create (key : RuntimeKey Sid) (now : Nat) : SessionRuntime Sid Data where
  key := key
  lastActiveAt := now
  slices := default

structure SessionRuntime.SameStream (rt rt' : SessionRuntime Sid Data) : Prop where
  key : rt.key = rt'.key
  streamGeneration : rt.streamGeneration = rt'.streamGeneration
  isStreaming : rt.isStreaming = rt'.isStreaming
  streamAbort : rt.streamAbort = rt'.streamAbort

omit [DecidableEq Sid] [Inhabited Data] in
theorem SessionRuntime.SameStream.refl (rt : SessionRuntime Sid Data) : rt.SameStream rt := ⟨rfl, rfl, rfl, rfl⟩

omit [DecidableEq Sid] [Inhabited Data] in
theorem SessionRuntime.SameStream.trans {rt rt' rt'' : SessionRuntime Sid Data} (h : rt.SameStream rt')
    (h' : rt'.SameStream rt'') : rt.SameStream rt'' :=
  ⟨h.key.trans h'.key, h.streamGeneration.trans h'.streamGeneration, h.isStreaming.trans h'.isStreaming,
    h.streamAbort.trans h'.streamAbort⟩

structure Registry (Sid Data : Type) where
  /-- every runtime that was ever created -/
  objects : List (SessionRuntime Sid Data)
  runtimes : Dict (RuntimeKey Sid) Nat
  keyAliases : Dict (RuntimeKey Sid) (RuntimeKey Sid) := ∅
  draftCounter : Nat
  activeKey : RuntimeKey Sid
  /-- `Date.now()` -/
  now : Nat := 0

/-- The hops of `resolveKey`. -/
def followAliases (aliases : Dict (RuntimeKey Sid) (RuntimeKey Sid)) : Nat → RuntimeKey Sid → RuntimeKey Sid
  | 0, key => key
  | hops + 1, key =>
    match aliases.lookup key with
    | none => key
    | some next => if next = key then key else followAliases aliases hops next

namespace Registry

def init : Registry Sid Data where
  objects := [.create (.draft 1) 0]
  runtimes := AList.singleton (.draft 1) 0
  draftCounter := 1
  activeKey := .draft 1

variable (r : Registry Sid Data)

def object (o : Nat) : SessionRuntime Sid Data := r.objects.getD o (.create (.draft 0) 0)

def modify (o : Nat) (f : SessionRuntime Sid Data → SessionRuntime Sid Data) : Registry Sid Data :=
  { r with objects := r.objects.modify o f }

def resolveKey (key : RuntimeKey Sid) : RuntimeKey Sid := followAliases r.keyAliases 8 key

def getRuntime (key : RuntimeKey Sid) : Option Nat := r.runtimes.lookup (r.resolveKey key)

/-- `listRuntimes`, in the order in which they were registered -/
def listRuntimes : List Nat := r.runtimes.values.reverse

/-- `runtimes.set(key, createRuntimeObject(key))` -/
def register (key : RuntimeKey Sid) : Registry Sid Data :=
  { r with
    objects := r.objects ++ [.create key r.now]
    runtimes := r.runtimes.set key r.objects.length }

def ensureRuntime (key : RuntimeKey Sid) : Registry Sid Data × Nat :=
  match r.getRuntime key with
  | some o => (r, o)
  | none => (r.register (r.resolveKey key), r.objects.length)

def setActiveKey (key : RuntimeKey Sid) : Registry Sid Data :=
  let ensured := r.ensureRuntime key
  { ensured.1.modify ensured.2 fun rt => { rt with lastActiveAt := r.now } with
    activeKey := (ensured.1.object ensured.2).key }

def newDraftRuntime : Registry Sid Data :=
  let key := .draft (r.draftCounter + 1)
  ({ r with draftCounter := r.draftCounter + 1 }.register key).setActiveKey key

/-- Take a key out of the registry, with the aliases for it. -/
def delete (key : RuntimeKey Sid) : Registry Sid Data :=
  { r with runtimes := r.runtimes.erase key, keyAliases := r.keyAliases.popValue key }

def removeRuntime (key : RuntimeKey Sid) : Registry Sid Data :=
  let canonical := r.resolveKey key
  if (r.runtimes.lookup canonical).isSome then
    if r.activeKey = canonical then (r.delete canonical).newDraftRuntime else r.delete canonical
  else r

/-- The runtimes that may be evicted, the least recently active one first. -/
def candidates : List Nat :=
  (r.listRuntimes.filter fun o =>
    (r.object o).key ≠ r.activeKey && !(r.object o).isStreaming &&
      !((r.object o).awaitsPermission || (r.object o).awaitsAnswer)).insertionSort
        fun a b => (r.object a).lastActiveAt ≤ (r.object b).lastActiveAt

/-- The loop of `evictIfNeeded`. -/
def evictUntil (cap : Nat) : Registry Sid Data → List Nat → Registry Sid Data
  | r, [] => r
  | r, o :: rest =>
    if r.runtimes.entries.length ≤ cap then r else evictUntil cap (r.delete (r.object o).key) rest

def evictIfNeeded (cap : Nat) : Registry Sid Data := evictUntil cap r r.candidates

def evictedUntil (cap : Nat) : Registry Sid Data → List Nat → List Nat
  | _, [] => []
  | r, o :: rest =>
    if r.runtimes.entries.length ≤ cap then [] else o :: evictedUntil cap (r.delete (r.object o).key) rest

/-- The end of `resetAllRuntimes`. -/
def clear : Registry Sid Data := { r with runtimes := ∅, keyAliases := ∅ }.newDraftRuntime

end Registry

namespace Registry

variable (r : Registry Sid Data)

/-- The registry goes by the keys of its runtimes, and an alias leads to a key of a session in one hop. -/
structure Consistent : Prop where
  keyed : ∀ k o, r.runtimes.lookup k = some o → o < r.objects.length ∧ (r.object o).key = k
  targets : ∀ a t, r.keyAliases.lookup a = some t → r.keyAliases.lookup t = none ∧ ∃ id, t = .session id
  canonical : ∀ k o, r.runtimes.lookup k = some o → r.keyAliases.lookup k = none
  objects : ∀ n, ∀ rt ∈ r.objects, rt.key = .draft n → n ≤ r.draftCounter
  aliases : ∀ n t, r.keyAliases.lookup (.draft n) = some t → n ≤ r.draftCounter
  active : ∀ n, r.activeKey = .draft n → n ≤ r.draftCounter

def Registered (o : Nat) : Prop := r.runtimes.lookup (r.object o).key = some o

variable {r}

theorem followAliases_eq {aliases : Dict (RuntimeKey Sid) (RuntimeKey Sid)}
    (h : ∀ a t, aliases.lookup a = some t → aliases.lookup t = none) (hops : Nat) (k : RuntimeKey Sid) :
    followAliases aliases (hops + 2) k = (aliases.lookup k).getD k := by
  rw [followAliases]
  cases hk : aliases.lookup k with
  | none => rfl
  | some t =>
    have hne : t ≠ k := by
      rintro rfl
      exact absurd (hk.symm.trans (h _ _ hk)) (by simp)
    simp [followAliases, hne, h k t hk]

omit [DecidableEq Sid] in
theorem object_modify (o : Nat) (f : SessionRuntime Sid Data → SessionRuntime Sid Data) (p : Nat) :
    (r.modify o f).object p = if p = o ∧ o < r.objects.length then f (r.object o) else r.object p := by
  simp only [object, modify, List.getD_eq_getElem?_getD, List.getElem?_modify]
  by_cases hp : o = p
  · subst hp
    by_cases hlt : o < r.objects.length
    · simp [hlt]
    · simp [hlt]
  · simp [hp, Ne.symm hp]

omit [DecidableEq Sid] in
theorem object_modify_self {o : Nat} (f : SessionRuntime Sid Data → SessionRuntime Sid Data)
    (h : o < r.objects.length) : (r.modify o f).object o = f (r.object o) := by
  rw [object_modify, if_pos ⟨rfl, h⟩]

omit [DecidableEq Sid] in
theorem object_modify_ne {o p : Nat} (f : SessionRuntime Sid Data → SessionRuntime Sid Data) (h : p ≠ o) :
    (r.modify o f).object p = r.object p := by
  rw [object_modify, if_neg fun hp => h hp.1]

omit [DecidableEq Sid] in
theorem object_modify_keeps {α : Type} (field : SessionRuntime Sid Data → α) (o : Nat)
    {f : SessionRuntime Sid Data → SessionRuntime Sid Data} (hf : ∀ rt, field (f rt) = field rt) (p : Nat) :
    field ((r.modify o f).object p) = field (r.object p) := by
  rw [object_modify]
  split
  · rename_i hp
    rw [hf, hp.1]
  · rfl

omit [DecidableEq Sid] [Inhabited Data] in
theorem length_modify (o : Nat) (f : SessionRuntime Sid Data → SessionRuntime Sid Data) :
    (r.modify o f).objects.length = r.objects.length := List.length_modify ..

theorem object_register {k : RuntimeKey Sid} {p : Nat} (h : p < r.objects.length) :
    (r.register k).object p = r.object p := by
  simp [object, register, List.getD_eq_getElem?_getD, List.getElem?_append_left h]

theorem object_register_new (k : RuntimeKey Sid) :
    (r.register k).object r.objects.length = .create k r.now := by
  simp [object, register, List.getD_eq_getElem?_getD]

theorem consistent_init : (init : Registry Sid Data).Consistent where
  keyed k o hk := by
    by_cases hd : k = .draft 1
    · subst hd
      rw [show (init : Registry Sid Data).runtimes.lookup (.draft 1) = some 0 from List.dlookup_cons_eq ..] at hk
      cases hk
      exact ⟨Nat.one_pos, rfl⟩
    · rw [show (init : Registry Sid Data).runtimes.lookup k = none from List.dlookup_cons_ne _ _ hd] at hk
      cases hk
  targets _ _ ht := by cases ht
  canonical _ _ _ := rfl
  objects n rt hrt hkey := by
    rw [List.mem_singleton.mp hrt] at hkey
    cases hkey
    exact Nat.le_refl 1
  aliases _ _ ht := by cases ht
  active n hn := by
    cases hn
    exact Nat.le_refl 1

theorem getRuntime_ensureRuntime (k : RuntimeKey Sid) :
    (r.ensureRuntime k).1.getRuntime k = some (r.ensureRuntime k).2 := by
  unfold Registry.ensureRuntime
  split
  · assumption
  · have hsame : (r.register (r.resolveKey k)).resolveKey k = r.resolveKey k := rfl
    rw [Registry.getRuntime, hsame, Registry.register, Dict.lookup_set, if_pos rfl]

/-- The registry after `rekeyRuntime` of a runtime that is registered. -/
def rekeyed (r : Registry Sid Data) (o : Nat) (key : RuntimeKey Sid) : Registry Sid Data :=
  let fromKey := (r.object o).key
  { r.modify o fun rt => { rt with key := key } with
    runtimes := ((r.runtimes.erase key).erase fromKey).insert key o
    keyAliases := ((r.keyAliases.mapValues fun target =>
      if target = fromKey then key else target).insert fromKey key).erase key
    activeKey := if r.activeKey = fromKey then key else r.activeKey }

theorem lookup_rekeyed (o : Nat) (key : RuntimeKey Sid) (k : RuntimeKey Sid) :
    (r.rekeyed o key).runtimes.lookup k =
      if k = key then some o else if k = (r.object o).key then none else r.runtimes.lookup k := by
  by_cases hk : k = key
  · rw [if_pos hk, hk, rekeyed, AList.lookup_insert]
  · rw [if_neg hk, rekeyed, AList.lookup_insert_ne hk]
    by_cases hfrom : k = (r.object o).key
    · rw [if_pos hfrom, hfrom, AList.lookup_erase]
    · rw [if_neg hfrom, AList.lookup_erase_ne hfrom, AList.lookup_erase_ne hk]

theorem alias_rekeyed (o : Nat) (key : RuntimeKey Sid) (k : RuntimeKey Sid) :
    (r.rekeyed o key).keyAliases.lookup k = if k = key then none
      else if k = (r.object o).key then some key
      else (r.keyAliases.lookup k).map fun target => if target = (r.object o).key then key else target := by
  by_cases hk : k = key
  · rw [if_pos hk, hk, rekeyed, AList.lookup_erase]
  · rw [if_neg hk, rekeyed, AList.lookup_erase_ne hk]
    by_cases hfrom : k = (r.object o).key
    · rw [if_pos hfrom, hfrom, AList.lookup_insert]
    · rw [if_neg hfrom, AList.lookup_insert_ne hfrom, Dict.lookup_mapValues]

theorem object_rekeyed (o : Nat) (key : RuntimeKey Sid) (p : Nat) :
    (r.rekeyed o key).object p = (r.modify o fun rt => { rt with key := key }).object p := rfl

/-- The registry with more runtimes, or with other data in their slices: those that were there are found as
before and stand as before to their streams. -/
structure Grows (r r' : Registry Sid Data) : Prop where
  length : r.objects.length ≤ r'.objects.length
  same : ∀ o < r.objects.length, (r'.object o).SameStream (r.object o)
  fresh : ∀ o, r.objects.length ≤ o → (r'.object o).streamAbort = none
  found : ∀ k o, r.runtimes.lookup k = some o → r'.runtimes.lookup k = some o
  known : ∀ k o, o < r.objects.length → r'.runtimes.lookup k = some o → r.runtimes.lookup k = some o
  aliases : r'.keyAliases = r.keyAliases

omit [DecidableEq Sid] in
theorem object_of_length_le {o : Nat} (h : r.objects.length ≤ o) : r.object o = .create (.draft 0) 0 := by
  simp [object, List.getD_eq_getElem?_getD, List.getElem?_eq_none h]

private theorem Grows.refl : Grows r r where
  length := Nat.le_refl _
  same _ _ := .refl _
  fresh o ho := by rw [object_of_length_le ho]; rfl
  found _ _ h := h
  known _ _ _ h := h
  aliases := rfl

private theorem Grows.trans {r' r'' : Registry Sid Data} (h : Grows r r') (h' : Grows r' r'') : Grows r r'' where
  length := Nat.le_trans h.length h'.length
  same o ho := (h'.same o (Nat.lt_of_lt_of_le ho h.length)).trans (h.same o ho)
  fresh o ho := by
    by_cases hlt : o < r'.objects.length
    · rw [(h'.same o hlt).streamAbort, h.fresh o ho]
    · exact h'.fresh o (Nat.le_of_not_lt hlt)
  found k o hk := h'.found k o (h.found k o hk)
  known k o ho hk := h.known k o ho (h'.known k o (Nat.lt_of_lt_of_le ho h.length) hk)
  aliases := h'.aliases.trans h.aliases

private theorem Grows.modify (o : Nat) {f : SessionRuntime Sid Data → SessionRuntime Sid Data}
    (hf : ∀ rt, (f rt).SameStream rt) : Grows r (r.modify o f) where
  length := by rw [length_modify]
  same p _ := by
    rw [object_modify]
    split
    · rename_i hp
      rw [hp.1]
      exact hf _
    · exact .refl _
  fresh p hp := by rw [object_of_length_le (by rwa [length_modify])]; rfl
  found _ _ h := h
  known _ _ _ h := h
  aliases := rfl

private theorem Grows.register {k : RuntimeKey Sid} (hk : r.runtimes.lookup k = none) : Grows r (r.register k) where
  length := by simp [Registry.register]
  same p hp := by
    rw [object_register hp]
    exact .refl _
  fresh p hp := by
    rcases Nat.lt_or_eq_of_le hp with hlt | rfl
    · rw [object_of_length_le (by simp [Registry.register]; omega)]
      rfl
    · rw [object_register_new]
      rfl
  found k' p hp := by
    have hne : k' ≠ k := by
      rintro rfl
      exact absurd (hk.symm.trans hp) (by simp)
    rw [Registry.register, Dict.lookup_set, if_neg hne, hp]
  known k' p hp hk' := by
    by_cases hkk : k' = k
    · subst hkk
      rw [Registry.register, Dict.lookup_set, if_pos rfl] at hk'
      cases hk'
      exact absurd hp (Nat.lt_irrefl _)
    · rwa [Registry.register, Dict.lookup_set, if_neg hkk] at hk'
  aliases := rfl

theorem Grows.ensureRuntime (k : RuntimeKey Sid) : Grows r (r.ensureRuntime k).1 := by
  unfold Registry.ensureRuntime
  split
  · exact .refl
  · rename_i hnone
    exact .register hnone

theorem Grows.setActiveKey (k : RuntimeKey Sid) : Grows r (r.setActiveKey k) := by
  have hmodified := (Grows.ensureRuntime (r := r) k).trans
    (.modify (r.ensureRuntime k).2 (f := fun rt => { rt with lastActiveAt := r.now }) fun _ => ⟨rfl, rfl, rfl, rfl⟩)
  exact ⟨hmodified.length, hmodified.same, hmodified.fresh, hmodified.found, hmodified.known, hmodified.aliases⟩

end Registry

end PrivaCloud.Web
