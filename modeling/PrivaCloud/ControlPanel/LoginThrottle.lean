import Mathlib.Algebra.Order.Ring.Rat
import Mathlib.Tactic.Linarith
import PrivaCloud.Framework.Dict

/-!
# Login attempts

`LoginRateLimiter` of `services/auth.py`: the failures of an address and those of an account from an address are
counted in buckets of one dictionary, over a window of time.
-/

namespace PrivaCloud.ControlPanel

open Framework

structure LoginRateLimiter where
  maxAttempts : Nat := 5
  windowSeconds : ℚ := 60
  maxPerIp : Nat := 30
  attempts : Dict (String × String) (List ℚ) := ∅

inductive LimiterCall
  | check
  | recordFailure
  | reset
  deriving DecidableEq

/-- A call, with what `time.time()` says in it -/
structure LoginCall where
  call : LimiterCall
  username : String
  clientIp : String
  now : ℚ

/-- The details of the answer 429 -/
inductive Throttle
  | address
  | account
  deriving DecidableEq

namespace LoginRateLimiter

variable (l : LoginRateLimiter)

def bucket (key : String × String) : List ℚ := (l.attempts.lookup key).getD []

def isRecent (now t : ℚ) : Bool := now - t < l.windowSeconds

/-- `_recent`, which keeps what it returns -/
def recent (key : String × String) (now : ℚ) : LoginRateLimiter × List ℚ :=
  let hits := (l.bucket key).filter (l.isRecent now)
  ({ l with attempts := if hits ≠ [] then l.attempts.insert key hits else l.attempts.erase key }, hits)

def sweep (now : ℚ) : LoginRateLimiter :=
  { l with attempts := Dict.filterValues (·.any (l.isRecent now)) l.attempts }

def check (username clientIp : String) (now : ℚ) : LoginRateLimiter × Option Throttle :=
  let l := l.sweep now
  let address := l.recent ("ip", clientIp) now
  if l.maxPerIp ≤ address.2.length then (address.1, some .address)
  else
    let account := address.1.recent (clientIp, username) now
    if l.maxAttempts ≤ account.2.length then (account.1, some .account) else (account.1, none)

/-- `self._attempts.setdefault(key, []).append(now)` -/
def push (key : String × String) (now : ℚ) : LoginRateLimiter :=
  { l with attempts := l.attempts.insert key (l.bucket key ++ [now]) }

def recordFailure (username clientIp : String) (now : ℚ) : LoginRateLimiter :=
  (l.push (clientIp, username) now).push ("ip", clientIp) now

def reset (username clientIp : String) : LoginRateLimiter :=
  { l with attempts := l.attempts.erase (clientIp, username) }

def perform (c : LoginCall) : LoginRateLimiter :=
  match c.call with
  | .check => (l.check c.username c.clientIp c.now).1
  | .recordFailure => l.recordFailure c.username c.clientIp c.now
  | .reset => l.reset c.username c.clientIp

/-- The limiter after some calls, the last one first -/
def after : List LoginCall → LoginRateLimiter
  | [] => l
  | c :: before => (after before).perform c

def outcome (before : List LoginCall) (c : LoginCall) : Option Throttle :=
  ((l.after before).check c.username c.clientIp c.now).2

def passedAddress (ip : String) : List LoginCall → List ℚ
  | [] => []
  | c :: before =>
    if c.call = .recordFailure ∧ c.clientIp = ip ∧ l.outcome before c = none then passedAddress ip before ++ [c.now]
    else passedAddress ip before

/-- The failures of an account from an address that pass the check, since its last reset -/
def passedAccount (ip username : String) : List LoginCall → List ℚ
  | [] => []
  | c :: before =>
    if c.clientIp = ip ∧ c.username = username ∧ c.call = .reset then []
    else if c.clientIp = ip ∧ c.username = username ∧ c.call = .recordFailure ∧ l.outcome before c = none then
      passedAccount ip username before ++ [c.now]
    else passedAccount ip username before

def window (last : ℚ) (times : List ℚ) : List ℚ := times.filter fun t => last - l.windowSeconds < t ∧ t ≤ last

/-- In every window no more failures pass than the limits allow, and a check does not depend on what was called
with another address. -/
structure Throttles (calls : List LoginCall) : Prop where
  address : ∀ ip last, (l.window last (l.passedAddress ip calls)).length ≤ l.maxPerIp
  account : ∀ ip username last, (l.window last (l.passedAccount ip username calls)).length ≤ l.maxAttempts
  isolated : ∀ c before, c :: before <:+ calls → c.call = .check →
    l.outcome before c = l.outcome (before.filter fun c' => c'.clientIp = c.clientIp) c

end LoginRateLimiter

/-- No account that is named with the address `ip` is called like an address. -/
def Apart (calls : List LoginCall) : Prop :=
  ∀ c ∈ calls, c.clientIp = "ip" → ∀ c' ∈ calls, c'.clientIp ≠ c.username

instance (calls : List LoginCall) : Decidable (Apart calls) := List.decidableBAll _ _

namespace LoginRateLimiter

section Buckets

variable {l l' : LoginRateLimiter} {now : ℚ}

private theorem isRecent_mono {t x : ℚ} (ht : now ≤ t) (h : l.isRecent t x = true) : l.isRecent now x = true := by
  have hlt : t - x < l.windowSeconds := of_decide_eq_true h
  exact decide_eq_true (by linarith)

/-- The limits are the same, and so is what counts from then on. -/
structure Keeps (l l' : LoginRateLimiter) (now : ℚ) : Prop where
  maxAttempts : l'.maxAttempts = l.maxAttempts
  windowSeconds : l'.windowSeconds = l.windowSeconds
  maxPerIp : l'.maxPerIp = l.maxPerIp
  recent : ∀ key t, now ≤ t → (l'.bucket key).filter (l.isRecent t) = (l.bucket key).filter (l.isRecent t)

private theorem Keeps.isRecent (h : Keeps l l' now) (t : ℚ) : l'.isRecent t = l.isRecent t := by
  funext x
  unfold LoginRateLimiter.isRecent
  rw [h.windowSeconds]

theorem Keeps.trans {l'' : LoginRateLimiter} (h : Keeps l l' now) (h' : Keeps l' l'' now) : Keeps l l'' now where
  maxAttempts := h'.maxAttempts.trans h.maxAttempts
  windowSeconds := h'.windowSeconds.trans h.windowSeconds
  maxPerIp := h'.maxPerIp.trans h.maxPerIp
  recent key t ht := by
    have hnext := h'.recent key t ht
    rw [h.isRecent] at hnext
    exact hnext.trans (h.recent key t ht)

private theorem keeps_sweep (l : LoginRateLimiter) (now : ℚ) : Keeps l (l.sweep now) now where
  maxAttempts := rfl
  windowSeconds := rfl
  maxPerIp := rfl
  recent key t ht := by
    unfold bucket sweep
    cases hold : l.attempts.lookup key with
    | none =>
      have hnone : (Dict.filterValues (·.any (l.isRecent now)) l.attempts).lookup key = none := by
        rw [Option.eq_none_iff_forall_ne_some]
        intro times htimes
        exact absurd (hold.symm.trans (Dict.lookup_filterValues.mp htimes).1) (by simp)
      rw [hnone]
    | some times =>
      by_cases hany : times.any (l.isRecent now) = true
      · rw [Dict.lookup_filterValues.mpr ⟨hold, hany⟩]
      · have hnone : (Dict.filterValues (·.any (l.isRecent now)) l.attempts).lookup key = none := by
          rw [Option.eq_none_iff_forall_ne_some]
          intro times' htimes
          obtain ⟨hsame, hrecent⟩ := Dict.lookup_filterValues.mp htimes
          rw [hold] at hsame
          cases hsame
          exact hany hrecent
        rw [hnone, Option.getD_none, Option.getD_some, List.filter_nil, eq_comm, List.filter_eq_nil_iff]
        intro x hx hrecent
        exact hany (List.any_eq_true.mpr ⟨x, hx, isRecent_mono ht hrecent⟩)

private theorem bucket_recent (key other : String × String) : (l.recent key now).1.bucket other =
      if other = key then (l.bucket key).filter (l.isRecent now) else l.bucket other := by
  unfold recent bucket
  dsimp only
  by_cases hother : other = key
  · subst hother
    rw [if_pos rfl]
    split
    · rw [AList.lookup_insert]
      rfl
    · rename_i hnil
      rw [AList.lookup_erase]
      exact (of_not_not hnil).symm
  · rw [if_neg hother]
    split
    · rw [AList.lookup_insert_ne hother]
    · rw [AList.lookup_erase_ne hother]

theorem keeps_recent (l : LoginRateLimiter) (key : String × String) (now : ℚ) : Keeps l (l.recent key now).1 now where
  maxAttempts := rfl
  windowSeconds := rfl
  maxPerIp := rfl
  recent other t ht := by
    rw [bucket_recent]
    split
    · rename_i hother
      rw [hother, List.filter_filter]
      apply List.filter_congr
      intro x _
      rw [Bool.and_eq_left_iff_imp]
      exact isRecent_mono ht
    · rfl

private theorem bucket_push (key other : String × String) :
    (l.push key now).bucket other = if other = key then l.bucket key ++ [now] else l.bucket other := by
  unfold push bucket
  split
  · rename_i hother
    rw [hother, AList.lookup_insert]
    rfl
  · rename_i hother
    rw [AList.lookup_insert_ne hother]

private theorem bucket_recordFailure (username clientIp : String) (key : String × String) :
    (l.recordFailure username clientIp now).bucket key =
      l.bucket key ++ (if key = (clientIp, username) then [now] else []) ++
        if key = ("ip", clientIp) then [now] else [] := by
  unfold recordFailure
  rw [bucket_push, bucket_push, bucket_push]
  split_ifs <;> simp_all

private theorem bucket_reset (username clientIp : String) (key : String × String) :
    (l.reset username clientIp).bucket key = if key = (clientIp, username) then [] else l.bucket key := by
  unfold reset bucket
  split
  · rename_i hkey
    rw [hkey, AList.lookup_erase]
    rfl
  · rename_i hkey
    rw [AList.lookup_erase_ne hkey]

private theorem keeps_check (l : LoginRateLimiter) (username clientIp : String) (now : ℚ) :
    Keeps l (l.check username clientIp now).1 now := by
  have haddress := (keeps_sweep l now).trans (keeps_recent _ ("ip", clientIp) now)
  unfold check
  dsimp only
  split
  · exact haddress
  · split
    · exact haddress.trans (keeps_recent _ _ now)
    · exact haddress.trans (keeps_recent _ _ now)

def count (l : LoginRateLimiter) (key : String × String) (now : ℚ) : Nat :=
  ((l.bucket key).filter (l.isRecent now)).length

private theorem check_eq (l : LoginRateLimiter) (username clientIp : String) (now : ℚ) :
    (l.check username clientIp now).2 = if l.maxPerIp ≤ l.count ("ip", clientIp) now then some .address
      else if l.maxAttempts ≤ l.count (clientIp, username) now then some .account else none := by
  have hswept := keeps_sweep l now
  have haddress := hswept.trans (keeps_recent _ ("ip", clientIp) now)
  have hcount : ((l.sweep now).recent ("ip", clientIp) now).2.length = l.count ("ip", clientIp) now :=
    congrArg List.length (hswept.recent ("ip", clientIp) now le_rfl)
  have hcount' : (((l.sweep now).recent ("ip", clientIp) now).1.recent (clientIp, username) now).2.length =
      l.count (clientIp, username) now :=
    congrArg List.length (haddress.recent (clientIp, username) now le_rfl)
  unfold check
  dsimp only
  rw [hcount, hcount']
  change (if l.maxPerIp ≤ _ then _ else if l.maxAttempts ≤ _ then _ else _ : LoginRateLimiter × Option Throttle).2 = _
  split_ifs <;> rfl

end Buckets

section Histories

variable {l : LoginRateLimiter} {calls before : List LoginCall} {c : LoginCall}

def addressLog (ip : String) : List LoginCall → List ℚ
  | [] => []
  | c :: before =>
    if c.call = .recordFailure ∧ c.clientIp = ip then addressLog ip before ++ [c.now] else addressLog ip before

/-- The failures of an account from an address since its last reset -/
def accountLog (ip username : String) : List LoginCall → List ℚ
  | [] => []
  | c :: before =>
    if c.clientIp = ip ∧ c.username = username ∧ c.call = .reset then []
    else if c.clientIp = ip ∧ c.username = username ∧ c.call = .recordFailure then
      accountLog ip username before ++ [c.now]
    else accountLog ip username before

/-- No call comes before those that were made before it. -/
def Ordered (calls : List LoginCall) : Prop := calls.Pairwise fun later earlier => earlier.now ≤ later.now

instance (calls : List LoginCall) : Decidable (Ordered calls) := List.instDecidablePairwise _

private theorem limits_after (l : LoginRateLimiter) (calls : List LoginCall) :
    (l.after calls).maxAttempts = l.maxAttempts ∧ (l.after calls).windowSeconds = l.windowSeconds ∧
      (l.after calls).maxPerIp = l.maxPerIp := by
  induction calls with
  | nil => exact ⟨rfl, rfl, rfl⟩
  | cons c before ih =>
    rw [after]
    unfold perform
    split
    · have hkeeps := keeps_check (l.after before) c.username c.clientIp c.now
      exact ⟨hkeeps.maxAttempts.trans ih.1, hkeeps.windowSeconds.trans ih.2.1, hkeeps.maxPerIp.trans ih.2.2⟩
    · exact ih
    · exact ih

theorem isRecent_after (l : LoginRateLimiter) (calls : List LoginCall) : (l.after calls).isRecent = l.isRecent := by
  funext now t
  unfold isRecent
  rw [(limits_after l calls).2.1]

/-- What counts in a bucket after some calls, if only the calls of one kind write to it. -/
theorem recent_bucket_after {key : String × String} {log : List LoginCall → List ℚ} (hnil : log [] = [])
    (hempty : l.attempts = ∅) (hordered : Ordered calls)
    (hrecord : ∀ c before, c :: before <:+ calls → c.call = .recordFailure →
      log (c :: before) = log before ++ (if key = (c.clientIp, c.username) then [c.now] else []) ++
        if key = ("ip", c.clientIp) then [c.now] else [])
    (hreset : ∀ c before, c :: before <:+ calls → c.call = .reset →
      log (c :: before) = if key = (c.clientIp, c.username) then [] else log before)
    (hcheck : ∀ c before, c.call = .check → log (c :: before) = log before) {t : ℚ} (ht : ∀ c ∈ calls, c.now ≤ t) :
    ((l.after calls).bucket key).filter (l.isRecent t) = (log calls).filter (l.isRecent t) := by
  induction calls generalizing t with
  | nil =>
    rw [hnil, after, bucket, hempty]
    rfl
  | cons c before ih =>
    obtain ⟨hlast, hbefore⟩ := List.pairwise_cons.mp hordered
    have hsame (s : ℚ) (hs : c.now ≤ s) :
        ((l.after before).bucket key).filter (l.isRecent s) = (log before).filter (l.isRecent s) :=
      ih hbefore (fun c' b' h => hrecord c' b' (h.trans (List.suffix_cons c before)))
        (fun c' b' h => hreset c' b' (h.trans (List.suffix_cons c before)))
        fun c' hc' => (hlast c' hc').trans hs
    rw [after]
    unfold perform
    cases hcall : c.call with
    | check =>
      have hkeeps := (keeps_check (l.after before) c.username c.clientIp c.now).recent key t
        (ht c List.mem_cons_self)
      rw [isRecent_after] at hkeeps
      dsimp only
      rw [hkeeps, hcheck c before hcall]
      exact hsame t (ht c List.mem_cons_self)
    | recordFailure =>
      dsimp only
      rw [bucket_recordFailure, hrecord c before List.suffix_rfl hcall, List.filter_append, List.filter_append,
        List.filter_append, List.filter_append, hsame t (ht c List.mem_cons_self)]
    | reset =>
      dsimp only
      rw [bucket_reset, hreset c before List.suffix_rfl hcall]
      split
      · rfl
      · exact hsame t (ht c List.mem_cons_self)

private theorem count_address (hempty : l.attempts = ∅) (hordered : Ordered calls) {ip : String}
    (hapart : ∀ c ∈ calls, c.clientIp = "ip" → c.username ≠ ip) {t : ℚ} (ht : ∀ c ∈ calls, c.now ≤ t) :
    (l.after calls).count ("ip", ip) t = ((addressLog ip calls).filter (l.isRecent t)).length := by
  have hkey (c : LoginCall) (before : List LoginCall) (hsuffix : c :: before <:+ calls) :
      ("ip", ip) ≠ (c.clientIp, c.username) := by
    intro hkey
    rw [Prod.mk.injEq] at hkey
    exact hapart c (hsuffix.subset List.mem_cons_self) hkey.1.symm hkey.2.symm
  unfold count
  rw [isRecent_after]
  congr 1
  refine recent_bucket_after rfl hempty hordered ?_ ?_ ?_ ht
  · intro c before hsuffix hcall
    rw [if_neg (hkey c before hsuffix), List.append_nil, addressLog]
    by_cases hip : c.clientIp = ip
    · rw [if_pos ⟨hcall, hip⟩, if_pos (by rw [hip])]
    · rw [if_neg fun h => hip h.2, if_neg fun h => hip (Prod.mk.inj h).2.symm, List.append_nil]
  · intro c before hsuffix hcall
    rw [if_neg (hkey c before hsuffix), addressLog, if_neg (by simp [hcall])]
  · intro c before hcall
    rw [addressLog, if_neg (by simp [hcall])]

private theorem count_account (hempty : l.attempts = ∅) (hordered : Ordered calls) {ip username : String}
    (hapart : ip = "ip" → ∀ c ∈ calls, c.clientIp ≠ username) {t : ℚ} (ht : ∀ c ∈ calls, c.now ≤ t) :
    (l.after calls).count (ip, username) t = ((accountLog ip username calls).filter (l.isRecent t)).length := by
  have hkey (c : LoginCall) (before : List LoginCall) (hsuffix : c :: before <:+ calls) :
      (ip, username) ≠ ("ip", c.clientIp) := by
    intro hkey
    rw [Prod.mk.injEq] at hkey
    exact hapart hkey.1 c (hsuffix.subset List.mem_cons_self) hkey.2.symm
  unfold count
  rw [isRecent_after]
  congr 1
  refine recent_bucket_after rfl hempty hordered ?_ ?_ ?_ ht
  · intro c before hsuffix hcall
    rw [if_neg (hkey c before hsuffix), List.append_nil, accountLog, if_neg (by simp [hcall])]
    by_cases hsame : c.clientIp = ip ∧ c.username = username
    · rw [if_pos ⟨hsame.1, hsame.2, hcall⟩, if_pos (by rw [hsame.1, hsame.2])]
    · rw [if_neg fun h => hsame ⟨h.1, h.2.1⟩,
        if_neg fun h => hsame ⟨(Prod.mk.inj h).1.symm, (Prod.mk.inj h).2.symm⟩, List.append_nil]
  · intro c before hsuffix hcall
    rw [accountLog]
    by_cases hsame : c.clientIp = ip ∧ c.username = username
    · rw [if_pos ⟨hsame.1, hsame.2, hcall⟩, if_pos (by rw [hsame.1, hsame.2])]
    · rw [if_neg fun h => hsame ⟨h.1, h.2.1⟩, if_neg (by simp [hcall]),
        if_neg fun h => hsame ⟨(Prod.mk.inj h).1.symm, (Prod.mk.inj h).2.symm⟩]
  · intro c before hcall
    rw [accountLog, if_neg (by simp [hcall]), if_neg (by simp [hcall])]

private theorem outcome_eq (hempty : l.attempts = ∅) (hordered : Ordered (c :: before)) (hapart : Apart (c :: before)) :
    l.outcome before c =
      if l.maxPerIp ≤ ((addressLog c.clientIp before).filter (l.isRecent c.now)).length then some .address
      else if l.maxAttempts ≤ ((accountLog c.clientIp c.username before).filter (l.isRecent c.now)).length then
        some .account
      else none := by
  obtain ⟨hlast, hbefore⟩ := List.pairwise_cons.mp hordered
  obtain ⟨hattempts, _, hperIp⟩ := limits_after l before
  have haddress : (l.after before).count ("ip", c.clientIp) c.now =
      ((addressLog c.clientIp before).filter (l.isRecent c.now)).length := count_address hempty hbefore
    (fun c' hc' hip hname => hapart c' (List.mem_cons_of_mem c hc') hip c List.mem_cons_self hname.symm) hlast
  have haccount : (l.after before).count (c.clientIp, c.username) c.now =
      ((accountLog c.clientIp c.username before).filter (l.isRecent c.now)).length := count_account hempty hbefore
    (fun hip c' hc' => hapart c List.mem_cons_self hip c' (List.mem_cons_of_mem c hc')) hlast
  rw [outcome, check_eq, hattempts, hperIp, haddress, haccount]

private theorem apart_mono {calls' : List LoginCall} (h : Apart calls) (hsub : calls' ⊆ calls) : Apart calls' :=
  fun c hc hip c' hc' => h c (hsub hc) hip c' (hsub hc')

private theorem addressLog_filter (ip : String) (calls : List LoginCall) :
    addressLog ip (calls.filter fun c => c.clientIp = ip) = addressLog ip calls := by
  induction calls with
  | nil => rfl
  | cons c before ih =>
    by_cases hip : c.clientIp = ip
    · rw [List.filter_cons_of_pos (by simpa using hip), addressLog, addressLog, ih]
    · rw [List.filter_cons_of_neg (by simpa using hip), addressLog, if_neg fun h => hip h.2, ih]

private theorem accountLog_filter (ip username : String) (calls : List LoginCall) :
    accountLog ip username (calls.filter fun c => c.clientIp = ip) = accountLog ip username calls := by
  induction calls with
  | nil => rfl
  | cons c before ih =>
    by_cases hip : c.clientIp = ip
    · rw [List.filter_cons_of_pos (by simpa using hip), accountLog, accountLog, ih]
    · rw [List.filter_cons_of_neg (by simpa using hip), accountLog, if_neg fun h => hip h.1,
        if_neg fun h => hip h.1, ih]

theorem outcome_isolated (hempty : l.attempts = ∅) (hordered : Ordered (c :: before)) (hapart : Apart (c :: before)) :
    l.outcome before c = l.outcome (before.filter fun c' => c'.clientIp = c.clientIp) c := by
  have hsub : (c :: before.filter fun c' => c'.clientIp = c.clientIp).Sublist (c :: before) :=
    List.filter_sublist.cons_cons c
  rw [outcome_eq hempty hordered hapart, outcome_eq hempty (hordered.sublist hsub) (apart_mono hapart hsub.subset),
    addressLog_filter, accountLog_filter]

private theorem passedAddress_sublist (l : LoginRateLimiter) (ip : String) (calls : List LoginCall) :
    (l.passedAddress ip calls).Sublist (addressLog ip calls) := by
  induction calls with
  | nil => exact List.Sublist.refl _
  | cons c before ih =>
    rw [passedAddress, addressLog]
    split
    · rename_i h
      rw [if_pos ⟨h.1, h.2.1⟩]
      exact ih.append (List.Sublist.refl _)
    · split
      · exact ih.trans (List.sublist_append_left _ _)
      · exact ih

private theorem passedAccount_sublist (l : LoginRateLimiter) (ip username : String) (calls : List LoginCall) :
    (l.passedAccount ip username calls).Sublist (accountLog ip username calls) := by
  induction calls with
  | nil => exact List.Sublist.refl _
  | cons c before ih =>
    rw [passedAccount, accountLog]
    split
    · exact List.Sublist.refl _
    · split
      · rename_i h
        rw [if_pos ⟨h.1, h.2.1, h.2.2.1⟩]
        exact ih.append (List.Sublist.refl _)
      · split
        · exact ih.trans (List.sublist_append_left _ _)
        · exact ih

private theorem window_append {times log : List ℚ} {now last : ℚ} {limit : Nat} (hsub : times.Sublist log)
    (hroom : (log.filter (l.isRecent now)).length < limit) (hlimit : (l.window last times).length ≤ limit) :
    (l.window last (times ++ [now])).length ≤ limit := by
  unfold window at hlimit ⊢
  rw [List.filter_append, List.length_append]
  by_cases hin : last - l.windowSeconds < now ∧ now ≤ last
  · have hcounted : (times.filter fun t => last - l.windowSeconds < t ∧ t ≤ last).Sublist
        (log.filter (l.isRecent now)) := by
      have himp : times.filter (fun t => last - l.windowSeconds < t ∧ t ≤ last) |>.Sublist
          (times.filter (l.isRecent now)) := by
        refine List.monotone_filter_right _ fun t ht => ?_
        have hlt := (of_decide_eq_true ht).1
        exact decide_eq_true (by linarith [hin.2])
      exact himp.trans (hsub.filter _)
    have hlength := hcounted.length_le
    have hone : ([now].filter fun t => last - l.windowSeconds < t ∧ t ≤ last).length ≤ 1 := List.length_filter_le _ _
    omega
  · rw [List.filter_cons_of_neg (by simpa using hin), List.filter_nil, List.length_nil]
    exact hlimit

variable (hempty : l.attempts = ∅)
include hempty

private theorem passedAddress_le (hordered : Ordered calls) (hapart : Apart calls) (ip : String) (last : ℚ) :
    (l.window last (l.passedAddress ip calls)).length ≤ l.maxPerIp := by
  induction calls with
  | nil => exact Nat.zero_le _
  | cons c before ih =>
    have hearlier := ih (List.pairwise_cons.mp hordered).2 (apart_mono hapart (List.subset_cons_self c before))
    rw [passedAddress]
    split
    · rename_i h
      have houtcome := outcome_eq hempty hordered hapart
      rw [h.2.2, h.2.1] at houtcome
      have hroom : ((addressLog ip before).filter (l.isRecent c.now)).length < l.maxPerIp := by
        by_contra hfull
        rw [if_pos (not_lt.mp hfull)] at houtcome
        cases houtcome
      exact window_append (passedAddress_sublist l ip before) hroom hearlier
    · exact hearlier

private theorem passedAccount_le (hordered : Ordered calls) (hapart : Apart calls) (ip username : String) (last : ℚ) :
    (l.window last (l.passedAccount ip username calls)).length ≤ l.maxAttempts := by
  induction calls with
  | nil => exact Nat.zero_le _
  | cons c before ih =>
    have hearlier := ih (List.pairwise_cons.mp hordered).2 (apart_mono hapart (List.subset_cons_self c before))
    rw [passedAccount]
    split
    · exact Nat.zero_le _
    · split
      · rename_i h
        have houtcome := outcome_eq hempty hordered hapart
        rw [h.2.2.2, h.1, h.2.1] at houtcome
        have hroom : ((accountLog ip username before).filter (l.isRecent c.now)).length < l.maxAttempts := by
          by_contra hfull
          rw [if_pos (not_lt.mp hfull)] at houtcome
          split at houtcome <;> cases houtcome
        exact window_append (passedAccount_sublist l ip username before) hroom hearlier
      · exact hearlier

/-- Whatever is called, if no account that is named with the address `ip` is called like an address. -/
theorem throttles_of_apart (hordered : Ordered calls) (hapart : Apart calls) : l.Throttles calls where
  address := passedAddress_le hempty hordered hapart
  account := passedAccount_le hempty hordered hapart
  isolated _ _ hsuffix _ :=
    outcome_isolated hempty (hordered.sublist hsuffix.sublist) (apart_mono hapart hsuffix.subset)

end Histories

/-- Someone guesses at two accounts until the check refuses one of them, next to another address. -/
def guesses : List LoginCall :=
  [⟨.check, "root", "10.0.0.7", 9⟩, ⟨.check, "root", "10.0.0.8", 8⟩] ++
    (List.range 6).reverse.map fun n => ⟨.recordFailure, "root", "10.0.0.7", n⟩

theorem throttles_guesses : ({} : LoginRateLimiter).Throttles guesses :=
  throttles_of_apart rfl (by decide) (by decide)

/-- Thirty logins with the address `ip`, by the name of an address -/
def spoofed : List LoginCall :=
  ⟨.check, "root", "10.0.0.7", 30⟩ ::
    (List.range 30).reverse.map fun n => ⟨.recordFailure, "10.0.0.7", "ip", n⟩

/-- The address that they name is locked out. -/
theorem not_throttles_spoofed : Ordered spoofed ∧ ¬ ({} : LoginRateLimiter).Throttles spoofed := by
  refine ⟨by decide, fun h => ?_⟩
  have hsame := h.isolated _ _ List.suffix_rfl rfl
  revert hsame
  decide +kernel

section Unlocking

variable {l : LoginRateLimiter} {calls before : List LoginCall} {c : LoginCall}

private theorem mem_addressLog {ip : String} {t : ℚ} (h : t ∈ addressLog ip calls) :
    ∃ c ∈ calls, c.call = .recordFailure ∧ c.clientIp = ip ∧ c.now = t := by
  induction calls with
  | nil => cases h
  | cons c before ih =>
    unfold addressLog at h
    by_cases hc : c.call = .recordFailure ∧ c.clientIp = ip
    · rw [if_pos hc, List.mem_append, List.mem_singleton] at h
      rcases h with h | rfl
      · obtain ⟨c', hmem, hc'⟩ := ih h
        exact ⟨c', List.mem_cons_of_mem c hmem, hc'⟩
      · exact ⟨c, List.mem_cons_self, hc.1, hc.2, rfl⟩
    · rw [if_neg hc] at h
      obtain ⟨c', hmem, hc'⟩ := ih h
      exact ⟨c', List.mem_cons_of_mem c hmem, hc'⟩

private theorem accountLog_sublist (ip username : String) (calls : List LoginCall) :
    (accountLog ip username calls).Sublist (addressLog ip calls) := by
  induction calls with
  | nil => exact List.Sublist.refl _
  | cons c before ih =>
    unfold accountLog addressLog
    split
    · exact List.nil_sublist _
    · split
      · rename_i h
        rw [if_pos ⟨h.2.2, h.1⟩]
        exact ih.append (List.Sublist.refl _)
      · split
        · exact ih.trans (List.sublist_append_left _ _)
        · exact ih

/-- Checks lock nobody out: once the window is over since the last failure from an address, it may log in again. -/
theorem outcome_unlocked (hempty : l.attempts = ∅) (haddress : 0 < l.maxPerIp) (haccount : 0 < l.maxAttempts)
    (hordered : Ordered (c :: before)) (hapart : Apart (c :: before))
    (hquiet : ∀ c' ∈ before, c'.call = .recordFailure → c'.clientIp = c.clientIp → c'.now + l.windowSeconds ≤ c.now) :
    l.outcome before c = none := by
  have hold : ∀ t ∈ addressLog c.clientIp before, ¬ l.isRecent c.now t = true := by
    intro t ht hrecent
    obtain ⟨c', hmem, hcall, hip, rfl⟩ := mem_addressLog ht
    have hlt : c.now - c'.now < l.windowSeconds := of_decide_eq_true hrecent
    linarith [hquiet c' hmem hcall hip]
  have hnone : (addressLog c.clientIp before).filter (l.isRecent c.now) = [] := List.filter_eq_nil_iff.mpr hold
  have hnone' : (accountLog c.clientIp c.username before).filter (l.isRecent c.now) = [] :=
    List.filter_eq_nil_iff.mpr fun t ht => hold t ((accountLog_sublist _ _ before).subset ht)
  rw [outcome_eq hempty hordered hapart, hnone, hnone', List.length_nil, if_neg (Nat.not_le.mpr haddress),
    if_neg (Nat.not_le.mpr haccount)]

end Unlocking

/-- A minute after the last of the guesses -/
theorem outcome_unlocked_guesses :
    ({} : LoginRateLimiter).outcome guesses ⟨.check, "root", "10.0.0.7", 65⟩ = none :=
  outcome_unlocked rfl (by decide) (by decide) (by decide) (by decide) (by decide +kernel)

end LoginRateLimiter

end PrivaCloud.ControlPanel
