import PrivaCloud.ChannelConnector.Engine

/-!
# Convergence of the channels

No account has two WebSockets as long as none outlives the stop of its worker until the next start, and
no pass undoes what a pass with a newer snapshot has done as long as no snapshot is applied late that a
newer one contradicts.
-/

namespace PrivaCloud.ChannelConnector

open Framework ControlPanel

abbrev EngineState : Type := Processes EngineWorld PassCall

abbrev EngineEvent : Type := ProcessEvent PassScope EngineReply EngineOutside

namespace PassCall

def held : PassCall → Option Holding
  | .applying h | .stopping h _ _ _ | .securing h _ | .identifying h _ | .starting h _ => some h
  | _ => none

def number : PassCall → Option Nat
  | .gating _ fetched _ _ _ => some fetched
  | .waiting snap | .finished snap => some snap.fetched
  | .applying h | .stopping h _ _ _ | .securing h _ | .identifying h _ | .starting h _ => some h.snap.fetched
  | .fetching _ | .raised => none

def done : PassCall → Option Snapshot
  | .finished snap => some snap
  | _ => none

/-- The worker that is being stopped, and its account. -/
def closing : PassCall → Option (Nat × String)
  | .stopping _ worker aid _ => some (worker.id, aid)
  | _ => none

end PassCall

def Single (s : EngineWorld) : Prop := (s.sockets.map Socket.account).Nodup

/-- A section of a pass starts no worker that a pass with a newer snapshot has disabled, and takes no
worker away that such a pass has armed. -/
def NewestWins (s : EngineState) : EngineEvent → Prop
  | .advance i reply => ∀ p ∈ s.procs[i]?, ∀ n ∈ p.number, ∀ q ∈ s.procs, ∀ newer ∈ q.done, n < newer.fetched →
      ∀ next ∈ p.act s.shared reply, ∀ aid,
        (∀ w ∈ next.1.worker aid, s.shared.worker aid ≠ some w → newer.disables aid = false) ∧
          ∀ w ∈ s.shared.worker aid, w.armedBy = newer.fetched → next.1.worker aid = some w
  | .spawn _ | .outside _ => True

/-- Two snapshots want the same of every account that both of them cover. -/
def Snapshot.Agrees (older newer : Snapshot) : Prop :=
  ∀ aid ∈ (older.configs ++ newer.configs).map FeishuConfig.accountId,
    older.covers aid = true → newer.covers aid = true → older.target aid = newer.target aid

instance (older newer : Snapshot) : Decidable (older.Agrees newer) :=
  inferInstanceAs (Decidable (∀ aid ∈ _, _))

/-- A snapshot that is applied after a newer one agrees with it, and no worker is started while a socket
of the account has outlived the stop of an earlier one. -/
def Orderly (s : EngineState) : EngineEvent → Prop
  | .advance i reply =>
    match s.procs[i]? with
    | some (.waiting older) =>
      ∀ q ∈ s.procs, ∀ newer ∈ q.done, older.fetched < newer.fetched → older.Agrees newer
    | some (.starting _ cfg) => reply = .ok → ∀ socket ∈ s.shared.sockets,
        socket.account = cfg.accountId → socket.orphaned = false
    | _ => True
  | .spawn _ | .outside _ => True

instance (s : EngineState) : (event : EngineEvent) → Decidable (Orderly s event)
  | .spawn _ | .outside _ => .isTrue trivial
  | .advance i reply => by dsimp only [Orderly]; split <;> infer_instance

section Snapshots

variable {snap older newer : Snapshot} {aid : String} {cfg : FeishuConfig}

private theorem target_of_mem (hnodup : (snap.configs.map FeishuConfig.accountId).Nodup) (h : cfg ∈ snap.configs) :
    snap.target cfg.accountId = some cfg.desiredDigest := by
  unfold Snapshot.target
  cases hfind : snap.configs.find? (·.accountId = cfg.accountId) with
  | none =>
    have hnone := List.find?_eq_none.mp hfind cfg h
    simp at hnone
  | some other =>
    have hsame : other.accountId = cfg.accountId := by simpa using List.find?_some hfind
    rw [List.inj_on_of_nodup_map hnodup (List.mem_of_find?_eq_some hfind) h hsame]
    rfl

private theorem mem_of_target {digest : Option String} (h : snap.target aid = some digest) :
    ∃ cfg ∈ snap.configs, cfg.accountId = aid := by
  obtain ⟨cfg, hfind, -⟩ := Option.map_eq_some_iff.mp h
  exact ⟨cfg, List.mem_of_find?_eq_some hfind, by simpa using List.find?_some hfind⟩

private theorem Snapshot.Agrees.target (h : older.Agrees newer) (ho : older.covers aid = true)
    (hn : newer.covers aid = true) : older.target aid = newer.target aid := by
  by_cases hmem : aid ∈ (older.configs ++ newer.configs).map FeishuConfig.accountId
  · exact h aid hmem ho hn
  · have hnone (snap : Snapshot) (hsub : ∀ cfg ∈ snap.configs, cfg ∈ older.configs ++ newer.configs) :
        snap.target aid = none := by
      cases ht : snap.target aid with
      | none => rfl
      | some digest =>
        obtain ⟨cfg, hcfg, rfl⟩ := mem_of_target ht
        exact absurd (List.mem_map_of_mem (hsub cfg hcfg)) hmem
    grind

end Snapshots

section Dictionaries

variable (s : EngineWorld) (snap : Snapshot) (cfg : FeishuConfig) (aid k : String)

private theorem worker_pop : (s.pop aid).worker k = if k = aid then none else s.worker k :=
  getValue_filter_ne s.workers aid k

private theorem digest_pop (h : k ≠ aid) : (s.pop aid).digest k = s.digest k := by
  unfold EngineWorld.digest EngineWorld.pop
  rw [getValue_filter_ne, if_neg h]

private theorem worker_arm : (s.arm snap cfg).worker k =
    if k = cfg.accountId then some ⟨s.started, snap.fetched⟩ else s.worker k :=
  getValue_assign s.workers cfg.accountId k _

theorem digest_arm : (s.arm snap cfg).digest k = if k = cfg.accountId then cfg.desiredDigest else s.digest k := by
  unfold EngineWorld.digest EngineWorld.arm
  rw [getValue_assign]
  by_cases h : k = cfg.accountId
  · rw [if_pos h, if_pos h]
    rfl
  · rw [if_neg h, if_neg h]

end Dictionaries

structure Snapshot.Known (snap : Snapshot) (s : EngineWorld) : Prop where
  fetched : snap.fetched < s.fetches
  nodup : (snap.configs.map FeishuConfig.accountId).Nodup
  covered : ∀ cfg ∈ snap.configs, snap.covers cfg.accountId = true
  armed : ∀ aid w, s.worker aid = some w → w.armedBy = snap.fetched → snap.target aid = some (s.digest aid)

structure Holding.Known (h : Holding) (s : EngineWorld) : Prop where
  snap : h.snap.Known s
  stops : ∀ aid ∈ h.stops, h.snap.disables aid = true
  arms : ∀ cfg ∈ h.arms, cfg ∈ h.snap.configs

def PassCall.Knows (s : EngineWorld) : PassCall → Prop
  | .gating scope fetched configs _ _ => fetched < s.fetches ∧
      (configs.map FeishuConfig.accountId).Nodup ∧ (∀ cfg ∈ configs, scope.covers cfg.accountId = true) ∧
      ∀ aid w, s.worker aid = some w → w.armedBy ≠ fetched
  | .waiting snap | .finished snap => snap.Known s
  | .applying h => h.Known s
  | .stopping h _ aid rearm => h.Known s ∧ s.worker aid = none ∧
      ∀ cfg ∈ rearm, cfg ∈ h.snap.configs ∧ cfg.accountId = aid
  | .securing h cfg | .identifying h cfg | .starting h cfg => h.Known s ∧ cfg ∈ h.snap.configs ∧
      s.worker cfg.accountId = none
  | .fetching _ | .raised => True

section Knowledge

variable {s s' : EngineWorld} {snap : Snapshot} {call : PassCall}

private theorem Snapshot.Known.same (h : snap.Known s) (hw : s'.workers = s.workers) (hd : s'.digests = s.digests)
    (hf : s.fetches ≤ s'.fetches) : snap.Known s' := by
  refine ⟨Nat.lt_of_lt_of_le h.fetched hf, h.nodup, h.covered, ?_⟩
  intro aid w hworker harmed
  unfold EngineWorld.worker at hworker
  unfold EngineWorld.digest
  rw [hw] at hworker
  rw [hd]
  exact h.armed aid w hworker harmed

private theorem Holding.Known.same {h : Holding} (hk : h.Known s) (hw : s'.workers = s.workers)
    (hd : s'.digests = s.digests) (hf : s.fetches ≤ s'.fetches) : h.Known s' :=
  ⟨hk.snap.same hw hd hf, hk.stops, hk.arms⟩

private theorem PassCall.Knows.same (h : call.Knows s) (hw : s'.workers = s.workers) (hd : s'.digests = s.digests)
    (hf : s.fetches ≤ s'.fetches) : call.Knows s' := by
  have hworker (aid : String) : s'.worker aid = s.worker aid := by
    unfold EngineWorld.worker
    rw [hw]
  cases call with
  | fetching scope => trivial
  | raised => trivial
  | gating scope fetched configs remaining active =>
    obtain ⟨hlt, hnodup, hcovers, hfresh⟩ := h
    refine ⟨Nat.lt_of_lt_of_le hlt hf, hnodup, hcovers, ?_⟩
    intro aid w hfound
    rw [hworker] at hfound
    exact hfresh aid w hfound
  | waiting snap => exact Snapshot.Known.same h hw hd hf
  | finished snap => exact Snapshot.Known.same h hw hd hf
  | applying h' => exact Holding.Known.same h hw hd hf
  | stopping h' worker aid rearm => exact ⟨h.1.same hw hd hf, (hworker aid).trans h.2.1, h.2.2⟩
  | securing h' cfg => exact ⟨h.1.same hw hd hf, h.2.1, (hworker _).trans h.2.2⟩
  | identifying h' cfg => exact ⟨h.1.same hw hd hf, h.2.1, (hworker _).trans h.2.2⟩
  | starting h' cfg => exact ⟨h.1.same hw hd hf, h.2.1, (hworker _).trans h.2.2⟩

private theorem Snapshot.Known.pop (h : snap.Known s) (aid : String) : snap.Known (s.pop aid) := by
  refine ⟨h.fetched, h.nodup, h.covered, ?_⟩
  intro k w hworker harmed
  rw [worker_pop] at hworker
  split at hworker
  · cases hworker
  · rename_i hk
    rw [digest_pop s aid k hk]
    exact h.armed k w hworker harmed

private theorem Snapshot.Known.arm_other {other : Snapshot} (h : snap.Known s) (hne : other.fetched ≠ snap.fetched)
    (cfg : FeishuConfig) : snap.Known (s.arm other cfg) := by
  refine ⟨h.fetched, h.nodup, h.covered, ?_⟩
  intro k w hworker harmed
  rw [worker_arm] at hworker
  split at hworker
  · cases hworker
    exact absurd harmed hne
  · rename_i hk
    rw [digest_arm, if_neg hk]
    exact h.armed k w hworker harmed

private theorem Snapshot.Known.arm_self (h : snap.Known s) {cfg : FeishuConfig} (hcfg : cfg ∈ snap.configs) :
    snap.Known (s.arm snap cfg) := by
  refine ⟨h.fetched, h.nodup, h.covered, ?_⟩
  intro k w hworker harmed
  rw [worker_arm] at hworker
  rw [digest_arm]
  split at hworker
  · rename_i hk
    rw [if_pos hk, hk]
    exact target_of_mem h.nodup hcfg
  · rename_i hk
    rw [if_neg hk]
    exact h.armed k w hworker harmed

private theorem number_lt (h : call.Knows s) {n : Nat} (hn : call.number = some n) : n < s.fetches := by
  cases call with
  | fetching scope => cases hn
  | raised => cases hn
  | gating scope fetched configs remaining active =>
    cases hn
    exact h.1
  | waiting snap =>
    cases hn
    exact Snapshot.Known.fetched h
  | finished snap =>
    cases hn
    exact Snapshot.Known.fetched h
  | applying h' =>
    cases hn
    exact (Holding.Known.snap h).fetched
  | stopping h' worker aid rearm =>
    cases hn
    exact h.1.snap.fetched
  | securing h' cfg =>
    cases hn
    exact h.1.snap.fetched
  | identifying h' cfg =>
    cases hn
    exact h.1.snap.fetched
  | starting h' cfg =>
    cases hn
    exact h.1.snap.fetched

theorem Knows.pop_other (h : call.Knows s) (hfree : call.held = none) (aid : String) : call.Knows (s.pop aid) := by
  cases call with
  | fetching scope => trivial
  | raised => trivial
  | gating scope fetched configs remaining active =>
    obtain ⟨hlt, hnodup, hcovers, hfresh⟩ := h
    refine ⟨hlt, hnodup, hcovers, ?_⟩
    intro k w hworker
    rw [worker_pop] at hworker
    split at hworker
    · cases hworker
    · exact hfresh k w hworker
  | waiting snap => exact Snapshot.Known.pop h aid
  | finished snap => exact Snapshot.Known.pop h aid
  | applying h' => cases hfree
  | stopping h' worker aid rearm => cases hfree
  | securing h' cfg => cases hfree
  | identifying h' cfg => cases hfree
  | starting h' cfg => cases hfree

private theorem Knows.arm_other {other : Snapshot} (h : call.Knows s) (hfree : call.held = none)
    (hne : call.number ≠ some other.fetched) (cfg : FeishuConfig) : call.Knows (s.arm other cfg) := by
  have hne' {n : Nat} (hn : call.number = some n) : other.fetched ≠ n := by
    rintro rfl
    exact hne hn
  cases call with
  | fetching scope => trivial
  | raised => trivial
  | gating scope fetched configs remaining active =>
    obtain ⟨hlt, hnodup, hcovers, hfresh⟩ := h
    refine ⟨hlt, hnodup, hcovers, ?_⟩
    intro k w hworker
    rw [worker_arm] at hworker
    split at hworker
    · cases hworker
      exact hne' rfl
    · exact hfresh k w hworker
  | waiting snap => exact Snapshot.Known.arm_other h (hne' rfl) cfg
  | finished snap => exact Snapshot.Known.arm_other h (hne' rfl) cfg
  | applying h' => cases hfree
  | stopping h' worker aid rearm => cases hfree
  | securing h' cfg => cases hfree
  | identifying h' cfg => cases hfree
  | starting h' cfg => cases hfree

end Knowledge

/-- One pass at most holds the lock, no two passes have one number, and the pass with the lock agrees with
the newer snapshots that have been applied. -/
structure Ordered (s : EngineState) : Prop where
  lone : ∀ (i j : Nat) (p q : PassCall), s.procs[i]? = some p → s.procs[j]? = some q → p.held ≠ none → q.held ≠ none → i = j
  locked : ∀ p ∈ s.procs, p.held ≠ none → s.shared.locked = true
  numbered : ∀ (i j : Nat) (p q : PassCall) n, s.procs[i]? = some p → s.procs[j]? = some q → p.number = some n →
    q.number = some n → i = j
  agreed : ∀ p ∈ s.procs, ∀ h ∈ p.held, ∀ q ∈ s.procs, ∀ newer ∈ q.done, h.snap.fetched < newer.fetched →
    h.snap.Agrees newer

/-- How a section may change the order. -/
structure Turn (s : EngineState) (p : PassCall) (shared : EngineWorld) (p' : PassCall) : Prop where
  held : p'.held ≠ none → p.held ≠ none ∨ s.shared.locked = false
  locks : p'.held ≠ none → shared.locked = true
  keeps : s.shared.locked = true → shared.locked = true ∨ p.held ≠ none
  number : ∀ n, p'.number = some n → p.number = some n ∨ ∀ q ∈ s.procs, q.number ≠ some n
  agreed : ∀ h' ∈ p'.held, (∃ h ∈ p.held, h.snap = h'.snap) ∨
    ∀ q ∈ s.procs, ∀ newer ∈ q.done, h'.snap.fetched < newer.fetched → h'.snap.Agrees newer
  done : p'.done ≠ none → p.held ≠ none ∧ p'.held = none

section Order

variable {s : EngineState} {i : Nat} {p p' : PassCall} {shared : EngineWorld}

private theorem Ordered.other_free (h : Ordered s) (hp : s.procs[i]? = some p) (hheld : p.held ≠ none) {j : Nat}
    {q : PassCall} (hne : j ≠ i) (hq : s.procs[j]? = some q) : q.held = none := by
  by_contra hother
  exact hne (h.lone j i q p hq hp hother hheld)

private theorem Ordered.turn (h : Ordered s) (hp : s.procs[i]? = some p) (ht : Turn s p shared p') :
    Ordered ⟨shared, s.procs.set i p'⟩ := by
  have hfree (j : Nat) (q : PassCall) (hne : j ≠ i) (hq : s.procs[j]? = some q) (hother : q.held ≠ none) :
      p'.held = none := by
    by_contra hheld
    rcases ht.held hheld with hwas | hunlocked
    · exact hother (h.other_free hp hwas hne hq)
    · have hlocked := h.locked q (List.mem_of_getElem? hq) hother
      rw [hunlocked] at hlocked
      cases hlocked
  refine ⟨?_, ?_, ?_, ?_⟩
  · intro j k q r hq hr hqheld hrheld
    rcases Program.getElem?_set_cases hq with ⟨rfl, rfl⟩ | ⟨hj, hq'⟩
    · grind
    · rcases Program.getElem?_set_cases hr with ⟨rfl, rfl⟩ | ⟨hk, hr'⟩
      · exact absurd (hfree j q hj hq' hqheld) hrheld
      · exact h.lone j k q r hq' hr' hqheld hrheld
  · intro q hq hheld
    obtain ⟨j, hj⟩ := List.mem_iff_getElem?.mp hq
    rcases Program.getElem?_set_cases hj with ⟨-, rfl⟩ | ⟨hne, hj⟩
    · exact ht.locks hheld
    · rcases ht.keeps (h.locked q (List.mem_of_getElem? hj) hheld) with hlocked | hwas
      · exact hlocked
      · exact absurd (h.other_free hp hwas hne hj) hheld
  · intro j k q r n hq hr hqn hrn
    rcases Program.getElem?_set_cases hq with ⟨rfl, rfl⟩ | ⟨hj, hq'⟩
    · rcases Program.getElem?_set_cases hr with ⟨rfl, rfl⟩ | ⟨hk, hr'⟩
      · rfl
      · rcases ht.number n hqn with hwas | hnew
        · exact h.numbered _ _ _ _ n hp hr' hwas hrn
        · exact absurd hrn (hnew r (List.mem_of_getElem? hr'))
    · rcases Program.getElem?_set_cases hr with ⟨rfl, rfl⟩ | ⟨hk, hr'⟩
      · rcases ht.number n hrn with hwas | hnew
        · exact h.numbered _ _ _ _ n hq' hp hqn hwas
        · exact absurd hqn (hnew q (List.mem_of_getElem? hq'))
      · exact h.numbered j k q r n hq' hr' hqn hrn
  · intro q hq hold hheld r hr newer hdone hlt
    obtain ⟨j, hj⟩ := List.mem_iff_getElem?.mp hq
    obtain ⟨k, hk⟩ := List.mem_iff_getElem?.mp hr
    have hqheld : q.held ≠ none := by
      rw [Option.mem_def.mp hheld]
      rintro ⟨⟩
    have hrdone : r.done ≠ none := by
      rw [Option.mem_def.mp hdone]
      rintro ⟨⟩
    rcases Program.getElem?_set_cases hk with ⟨-, rfl⟩ | ⟨hk', hk⟩
    · obtain ⟨hwas, hfreed⟩ := ht.done hrdone
      rcases Program.getElem?_set_cases hj with ⟨-, rfl⟩ | ⟨hj', hj⟩
      · exact absurd hfreed hqheld
      · exact absurd (h.other_free hp hwas hj' hj) hqheld
    · have hrmem := List.mem_of_getElem? hk
      rcases Program.getElem?_set_cases hj with ⟨-, rfl⟩ | ⟨hj', hj⟩
      · rcases ht.agreed hold hheld with ⟨was, hwas, hsame⟩ | hnew
        · rw [← hsame] at hlt ⊢
          exact h.agreed p (List.mem_of_getElem? hp) was hwas r hrmem newer hdone hlt
        · exact hnew r hrmem newer hdone hlt
      · exact h.agreed q (List.mem_of_getElem? hj) hold hheld r hrmem newer hdone hlt

end Order

/-- Every WebSocket is that of an armed worker or of one that is being stopped, or it is orphaned. -/
def Accounted (s : EngineState) : Prop :=
  ∀ socket ∈ s.shared.sockets, socket.orphaned = false →
    (∃ w, s.shared.worker socket.account = some w ∧ w.id = socket.worker) ∨
      ∃ p ∈ s.procs, p.closing = some (socket.worker, socket.account)

structure Inv (s : EngineState) : Prop where
  ordered : Ordered s
  known : ∀ p ∈ s.procs, p.Knows s.shared
  earlier : ∀ aid w, s.shared.worker aid = some w → w.armedBy < s.shared.fetches
  accounted : Accounted s
  single : Single s.shared

variable {hold : Holding} {shared : EngineWorld}

section Moves

variable {s : EngineState} {i : Nat} {p p' : PassCall}

private theorem known_set (hp : p'.Knows shared) (hothers : ∀ j q, j ≠ i → s.procs[j]? = some q → q.Knows shared) :
    ∀ q ∈ s.procs.set i p', q.Knows shared := by
  intro q hq
  obtain ⟨j, hj⟩ := List.mem_iff_getElem?.mp hq
  grind

private theorem closing_set (hp : s.procs[i]? = some p) {c : Nat × String} (hfree : p.closing ≠ some c)
    (h : ∃ q ∈ s.procs, q.closing = some c) : ∃ q ∈ s.procs.set i p', q.closing = some c := by
  obtain ⟨q, hq, hc⟩ := h
  refine ⟨q, Program.mem_set_of_ne hp hq ?_, hc⟩
  rintro rfl
  exact hfree hc

private theorem Inv.quiet (h : Inv s) (hp : s.procs[i]? = some p) (ht : Turn s p shared p')
    (hw : shared.workers = s.shared.workers) (hd : shared.digests = s.shared.digests)
    (hsockets : shared.sockets = s.shared.sockets) (hf : s.shared.fetches ≤ shared.fetches)
    (hclosing : p.closing = none) (hknows : p'.Knows shared) : Inv ⟨shared, s.procs.set i p'⟩ := by
  have hworker (aid : String) : shared.worker aid = s.shared.worker aid := by
    unfold EngineWorld.worker
    rw [hw]
  refine ⟨h.ordered.turn hp ht, ?_, ?_, ?_, ?_⟩
  · exact known_set hknows fun j q _ hq => (h.known q (List.mem_of_getElem? hq)).same hw hd hf
  · intro aid w hfound
    rw [hworker] at hfound
    exact Nat.lt_of_lt_of_le (h.earlier aid w hfound) hf
  · intro socket hsocket hlive
    rw [hsockets] at hsocket
    rcases h.accounted socket hsocket hlive with ⟨w, hfound, hid⟩ | hother
    · left
      exact ⟨w, (hworker _).trans hfound, hid⟩
    · right
      refine closing_set hp ?_ hother
      rw [hclosing]
      rintro ⟨⟩
  · unfold Single
    rw [hsockets]
    exact h.single

private theorem Inv.pop (h : Inv s) (hp : s.procs[i]? = some p) {aid : String} {w : Worker}
    (hfound : s.shared.worker aid = some w) (hheld : p.held ≠ none) (hclosing : p.closing = none)
    (hclosing' : p'.closing = some (w.id, aid)) (ht : Turn s p (s.shared.pop aid) p')
    (hknows : p'.Knows (s.shared.pop aid)) : Inv ⟨s.shared.pop aid, s.procs.set i p'⟩ := by
  refine ⟨h.ordered.turn hp ht, ?_, ?_, ?_, h.single⟩
  · refine known_set hknows ?_
    intro j q hne hq
    exact Knows.pop_other (h.known q (List.mem_of_getElem? hq)) (h.ordered.other_free hp hheld hne hq) aid
  · intro k w' hfound'
    rw [worker_pop] at hfound'
    split at hfound'
    · cases hfound'
    · exact h.earlier k w' hfound'
  · intro socket hsocket hlive
    rcases h.accounted socket hsocket hlive with ⟨w', hfound', hid⟩ | hother
    · by_cases hsame : socket.account = aid
      · right
        refine ⟨p', Program.self_mem_set hp, ?_⟩
        rw [hsame, hfound] at hfound'
        cases hfound'
        rw [hclosing', hid, hsame]
      · left
        refine ⟨w', ?_, hid⟩
        dsimp only
        rw [worker_pop, if_neg hsame]
        exact hfound'
    · right
      refine closing_set hp ?_ hother
      rw [hclosing]
      rintro ⟨⟩

private theorem mem_close {s : EngineWorld} {worker : Nat} {down : Bool} {socket : Socket}
    (h : socket ∈ (s.close worker down).sockets) (hlive : socket.orphaned = false) :
    socket ∈ s.sockets ∧ socket.worker ≠ worker := by
  cases down with
  | true =>
    obtain ⟨hmem, hne⟩ := List.mem_filter.mp h
    exact ⟨hmem, of_decide_eq_true hne⟩
  | false =>
    obtain ⟨old, hold, rfl⟩ := List.mem_map.mp h
    grind

private theorem single_close {s : EngineWorld} (h : Single s) (worker : Nat) (down : Bool) :
    Single (s.close worker down) := by
  cases down with
  | true => exact h.sublist (List.Sublist.map _ List.filter_sublist)
  | false =>
    have haccounts : (s.close worker false).sockets.map Socket.account = s.sockets.map Socket.account := by
      simp only [EngineWorld.close, Bool.false_eq_true, if_false, List.map_map]
      apply List.map_congr_left
      intro socket _
      simp only [Function.comp_apply]
      split
      · rfl
      · rfl
    unfold Single
    rw [haccounts]
    exact h

private theorem Inv.close (h : Inv s) (hp : s.procs[i]? = some p) {worker : Nat} {aid : String} {down : Bool}
    (hclosing : p.closing = some (worker, aid)) (ht : Turn s p (s.shared.close worker down) p')
    (hknows : p'.Knows s.shared) : Inv ⟨s.shared.close worker down, s.procs.set i p'⟩ := by
  refine ⟨h.ordered.turn hp ht, ?_, h.earlier, ?_, single_close h.single worker down⟩
  · refine known_set (hknows.same rfl rfl (Nat.le_refl _)) ?_
    intro j q _ hq
    exact (h.known q (List.mem_of_getElem? hq)).same rfl rfl (Nat.le_refl _)
  · intro socket hsocket hlive
    obtain ⟨hmem, hne⟩ := mem_close hsocket hlive
    rcases h.accounted socket hmem hlive with hfound | hother
    · exact .inl hfound
    · right
      refine closing_set hp ?_ hother
      rw [hclosing]
      intro hsame
      cases hsame
      exact hne rfl

/-- A worker is armed; nothing of its account is up. -/
theorem Inv.arm (h : Inv s) (hp : s.procs[i]? = some p) {cfg : FeishuConfig}
    (hheld : p.held = some hold) (hnumber : p.number = some hold.snap.fetched) (hclosing : p.closing = none)
    (hfree : s.shared.worker cfg.accountId = none) (hlt : hold.snap.fetched < s.shared.fetches)
    (hnone : ∀ socket ∈ s.shared.sockets, socket.account = cfg.accountId → socket.orphaned = false)
    (ht : Turn s p (s.shared.arm hold.snap cfg) p') (hknows : p'.Knows (s.shared.arm hold.snap cfg)) :
    Inv ⟨s.shared.arm hold.snap cfg, s.procs.set i p'⟩ := by
  have hholds : p.held ≠ none := by
    rw [hheld]
    rintro ⟨⟩
  have hup : ∀ socket ∈ s.shared.sockets, socket.account ≠ cfg.accountId := by
    intro socket hsocket hsame
    rcases h.accounted socket hsocket (hnone socket hsocket hsame) with ⟨w, hfound, -⟩ | ⟨q, hq, hclose⟩
    · rw [hsame, hfree] at hfound
      cases hfound
    · obtain ⟨j, hj⟩ := List.mem_iff_getElem?.mp hq
      have hqheld : q.held ≠ none := by
        cases q with
        | stopping hold' w aid rearm => rintro ⟨⟩
        | _ => cases hclose
      have hsame := h.ordered.lone j i q p hj hp hqheld hholds
      rw [hsame, hp] at hj
      cases hj
      rw [hclosing] at hclose
      cases hclose
  refine ⟨h.ordered.turn hp ht, ?_, ?_, ?_, ?_⟩
  · refine known_set hknows ?_
    intro j q hne hq
    refine Knows.arm_other (h.known q (List.mem_of_getElem? hq)) (h.ordered.other_free hp hholds hne hq) ?_ cfg
    intro hsame
    exact hne (h.ordered.numbered j i q p _ hq hp hsame hnumber)
  · intro k w hfound
    rw [worker_arm] at hfound
    split at hfound
    · cases hfound
      exact hlt
    · exact h.earlier k w hfound
  · intro socket hsocket hlive
    rcases List.mem_append.mp hsocket with hsocket | hnew
    · rcases h.accounted socket hsocket hlive with ⟨w, hfound, hid⟩ | hother
      · left
        refine ⟨w, ?_, hid⟩
        dsimp only
        rw [worker_arm, if_neg (hup socket hsocket)]
        exact hfound
      · right
        refine closing_set hp ?_ hother
        rw [hclosing]
        rintro ⟨⟩
    · left
      rw [List.mem_singleton.mp hnew]
      refine ⟨⟨s.shared.started, hold.snap.fetched⟩, ?_, rfl⟩
      dsimp only
      rw [worker_arm, if_pos rfl]
  · unfold Single EngineWorld.arm
    rw [List.map_append]
    refine List.nodup_append.mpr ⟨h.single, List.nodup_singleton _, ?_⟩
    grind

end Moves

section Act

variable {s : EngineState} {i : Nat} {p p' : PassCall} {shared : EngineWorld} {newer : Snapshot}

private theorem Turn.stay (h : Inv s) (hp : s.procs[i]? = some p)
    (hheld : p'.held.map Holding.snap = p.held.map Holding.snap)
    (hnumber : ∀ n, p'.number = some n → p.number = some n) (hdone : p'.done = none)
    (hlocked : shared.locked = s.shared.locked) : Turn s p shared p' := by
  have hsame : p'.held ≠ none → p.held ≠ none := by
    intro hnew hold
    rw [hold, Option.map_none, Option.map_eq_none_iff] at hheld
    exact hnew hheld
  refine ⟨fun hnew => .inl (hsame hnew), ?_, ?_, fun n hn => .inl (hnumber n hn), ?_, ?_⟩
  · intro hnew
    rw [hlocked]
    exact h.ordered.locked p (List.mem_of_getElem? hp) (hsame hnew)
  · intro hwas
    exact .inl (hlocked.trans hwas)
  · intro hold hnew
    rw [Option.mem_def.mp hnew, Option.map_some] at hheld
    obtain ⟨was, hwas, hsnap⟩ := Option.map_eq_some_iff.mp hheld.symm
    exact .inl ⟨was, hwas, hsnap⟩
  · intro hnew
    exact absurd hdone hnew

private theorem Turn.release (hheld : p.held ≠ none) (hheld' : p'.held = none)
    (hnumber : ∀ n, p'.number = some n → p.number = some n) : Turn s p shared p' := by
  refine ⟨fun hnew => absurd hheld' hnew, fun hnew => absurd hheld' hnew, fun _ => .inr hheld,
    fun n hn => .inl (hnumber n hn), ?_, fun _ => ⟨hheld, hheld'⟩⟩
  intro hold hnew
  rw [hheld'] at hnew
  cases hnew

section Gate

variable {scope : PassScope} {fetched : Nat} {configs : List FeishuConfig} {active remaining : List String}

private theorem gate_number : (PassCall.gate scope fetched configs active remaining).number = some fetched := by
  cases remaining with
  | nil => rfl
  | cons aid rest => rfl

private theorem gate_held : (PassCall.gate scope fetched configs active remaining).held = none := by
  cases remaining with
  | nil => rfl
  | cons aid rest => rfl

private theorem gate_done : (PassCall.gate scope fetched configs active remaining).done = none := by
  cases remaining with
  | nil => rfl
  | cons aid rest => rfl

private theorem knows_gate (h : (PassCall.gating scope fetched configs remaining active).Knows shared) :
    (PassCall.gate scope fetched configs active remaining).Knows shared := by
  cases remaining with
  | cons aid rest => exact h
  | nil =>
    obtain ⟨hlt, hnodup, hcovers, hfresh⟩ := h
    refine ⟨hlt, hnodup.sublist (List.Sublist.map _ List.filter_sublist), ?_, ?_⟩
    · intro cfg hcfg
      exact hcovers cfg (List.mem_of_mem_filter hcfg)
    · intro aid w hworker harmed
      exact absurd harmed (hfresh aid w hworker)

end Gate

private theorem fetch_spec (shared : EngineWorld) (scope : PassScope) :
    ((PassCall.fetch shared scope).map FeishuConfig.accountId).Nodup ∧
      ∀ cfg ∈ PassCall.fetch shared scope, scope.covers cfg.accountId = true := by
  cases scope with
  | everything => exact ⟨shared.configs.nodup.sublist (List.Sublist.map _ List.filter_sublist), fun _ _ => rfl⟩
  | only accountId =>
    unfold PassCall.fetch
    cases hfind : shared.configs.find? accountId with
    | none => simp [hfind]
    | some cfg =>
      have hkey := Table.key_of_find? hfind
      simp [hfind, PassScope.covers, hkey]

private theorem Turn.acquire {snap : Snapshot} (hsnap : hold.snap = snap)
    (hunlocked : s.shared.locked = false)
    (hagrees : ∀ q ∈ s.procs, ∀ newer ∈ q.done, snap.fetched < newer.fetched → snap.Agrees newer) :
    Turn s (.waiting snap) { s.shared with locked := true } (.applying hold) := by
  refine ⟨fun _ => .inr hunlocked, fun _ => rfl, fun _ => .inl rfl, ?_, ?_, fun hdone => absurd rfl hdone⟩
  · intro n hn
    rw [← hn, ← hsnap]
    exact .inl rfl
  · rintro hold' ⟨⟩
    rw [hsnap]
    exact .inr hagrees

private theorem Turn.fetch (h : Inv s) {scope : PassScope} {configs : List FeishuConfig} {asked : List String} :
    Turn s (.fetching scope) { s.shared with fetches := s.shared.fetches + 1 }
      (PassCall.gate scope s.shared.fetches configs [] asked) := by
  refine ⟨fun hheld => absurd gate_held hheld, fun hheld => absurd gate_held hheld, fun hwas => .inl hwas, ?_, ?_,
    fun hdone => absurd gate_done hdone⟩
  · intro n hn
    rw [gate_number] at hn
    cases hn
    right
    intro q hq hsame
    exact absurd (number_lt (h.known q hq) hsame) (Nat.lt_irrefl _)
  · intro hold hheld
    rw [gate_held] at hheld
    cases hheld

private theorem apply_inv (h : Inv s) (hp : s.procs[i]? = some (.applying hold)) :
    Inv ⟨(PassCall.apply s.shared hold).1, s.procs.set i (PassCall.apply s.shared hold).2⟩ := by
  have hknown : hold.Known s.shared := h.known _ (List.mem_of_getElem? hp)
  obtain ⟨snap, stops, arms⟩ := hold
  cases stops with
  | cons aid stops =>
    have hrest : Holding.Known ⟨snap, stops, arms⟩ s.shared :=
      ⟨hknown.snap, fun k hk => hknown.stops k (List.mem_cons_of_mem _ hk), hknown.arms⟩
    simp only [PassCall.apply]
    cases hfound : s.shared.worker aid with
    | none =>
      exact h.quiet hp (Turn.stay h hp rfl (fun _ hn => hn) rfl rfl) rfl rfl rfl (Nat.le_refl _) rfl hrest
    | some w =>
      refine h.pop hp hfound (by rintro ⟨⟩) rfl rfl (Turn.stay h hp rfl (fun _ hn => hn) rfl rfl) ?_
      refine ⟨⟨hrest.snap.pop aid, hrest.stops, hrest.arms⟩, ?_, by rintro _ ⟨⟩⟩
      rw [worker_pop, if_pos rfl]
  | nil =>
    cases arms with
    | nil =>
      refine h.quiet hp (Turn.release (by rintro ⟨⟩) rfl fun _ hn => hn) rfl rfl rfl (Nat.le_refl _) rfl ?_
      exact hknown.snap.same rfl rfl (Nat.le_refl _)
    | cons cfg arms =>
      have hcfg : cfg ∈ snap.configs := hknown.arms cfg List.mem_cons_self
      have hrest : Holding.Known ⟨snap, [], arms⟩ s.shared :=
        ⟨hknown.snap, by rintro _ ⟨⟩, fun c hc => hknown.arms c (List.mem_cons_of_mem _ hc)⟩
      simp only [PassCall.apply]
      cases hfound : s.shared.worker cfg.accountId with
      | none =>
        exact h.quiet hp (Turn.stay h hp rfl (fun _ hn => hn) rfl rfl) rfl rfl rfl (Nat.le_refl _) rfl
          ⟨hrest, hcfg, hfound⟩
      | some w =>
        dsimp only
        by_cases hdigest : cfg.desiredDigest ≠ s.shared.digest cfg.accountId
        · rw [if_pos hdigest]
          refine h.pop hp hfound (by rintro ⟨⟩) rfl rfl (Turn.stay h hp rfl (fun _ hn => hn) rfl rfl) ?_
          refine ⟨⟨hrest.snap.pop _, hrest.stops, hrest.arms⟩, ?_, ?_⟩
          · rw [worker_pop, if_pos rfl]
          · rintro _ ⟨⟩
            exact ⟨hcfg, rfl⟩
        · rw [if_neg hdigest]
          exact h.quiet hp (Turn.stay h hp rfl (fun _ hn => hn) rfl rfl) rfl rfl rfl (Nat.le_refl _) rfl
            hrest

private theorem act_inv {reply : EngineReply} {next : EngineWorld × PassCall} (h : Inv s)
    (hc : Orderly s (.advance i reply)) (hp : s.procs[i]? = some p) (hact : p.act s.shared reply = some next) :
    Inv ⟨next.1, s.procs.set i next.2⟩ := by
  have hknows := h.known p (List.mem_of_getElem? hp)
  simp only [Orderly, hp] at hc
  cases p with
  | fetching scope =>
    cases reply with
    | failed =>
      cases hact
      exact h.quiet hp (Turn.stay h hp rfl (by rintro _ ⟨⟩) rfl rfl) rfl rfl rfl (Nat.le_refl _) rfl trivial
    | ok =>
      cases hact
      refine h.quiet hp (Turn.fetch h) rfl rfl rfl (Nat.le_succ _) rfl (knows_gate ?_)
      obtain ⟨hnodup, hcovers⟩ := fetch_spec s.shared scope
      refine ⟨Nat.lt_succ_self _, hnodup, hcovers, ?_⟩
      intro aid w hworker harmed
      have hlt := h.earlier aid w hworker
      omega
  | gating scope fetched configs remaining active =>
    cases reply with
    | failed =>
      cases hact
      exact h.quiet hp (Turn.stay h hp rfl (by rintro _ ⟨⟩) rfl rfl) rfl rfl rfl (Nat.le_refl _) rfl trivial
    | ok =>
      cases remaining with
      | nil => cases hact
      | cons aid rest =>
        cases hact
        refine h.quiet hp (Turn.stay h hp ?_ ?_ gate_done rfl) rfl rfl rfl (Nat.le_refl _) rfl (knows_gate hknows)
        · rw [gate_held]
          rfl
        · intro n hn
          rw [gate_number] at hn
          exact hn
  | waiting snap =>
    simp only [PassCall.act] at hact
    split at hact <;> cases hact
    rename_i hunlocked
    refine h.quiet hp (Turn.acquire rfl (by simpa using hunlocked) hc) rfl rfl rfl (Nat.le_refl _) rfl ?_
    refine ⟨Snapshot.Known.same hknows rfl rfl (Nat.le_refl _), ?_, fun _ hcfg => hcfg⟩
    intro aid haid
    exact (List.mem_filter.mp haid).2
  | applying hold =>
    cases hact
    exact apply_inv h hp
  | stopping hold w aid rearm =>
    obtain ⟨hknown, hnone, hrearm⟩ := hknows
    cases rearm with
    | none =>
      cases hact
      exact h.close hp rfl (Turn.stay h hp rfl (fun _ hn => hn) rfl rfl) hknown
    | some cfg =>
      cases hact
      obtain ⟨hcfg, hsame⟩ := hrearm cfg rfl
      refine h.close hp rfl (Turn.stay h hp rfl (fun _ hn => hn) rfl rfl) ⟨hknown, hcfg, ?_⟩
      rw [hsame]
      exact hnone
  | securing hold cfg =>
    cases reply with
    | failed =>
      cases hact
      exact h.quiet hp (Turn.release (by rintro ⟨⟩) rfl (by rintro _ ⟨⟩)) rfl rfl rfl (Nat.le_refl _) rfl trivial
    | ok =>
      simp only [PassCall.act] at hact
      split at hact
      · cases hact
        exact h.quiet hp (Turn.stay h hp rfl (fun _ hn => hn) rfl rfl) rfl rfl rfl (Nat.le_refl _) rfl hknows
      · cases hact
        exact h.quiet hp (Turn.stay h hp rfl (fun _ hn => hn) rfl rfl) rfl rfl rfl (Nat.le_refl _) rfl hknows.1
  | identifying hold cfg =>
    cases reply with
    | failed =>
      cases hact
      exact h.quiet hp (Turn.release (by rintro ⟨⟩) rfl (by rintro _ ⟨⟩)) rfl rfl rfl (Nat.le_refl _) rfl trivial
    | ok =>
      cases hact
      exact h.quiet hp (Turn.stay h hp rfl (fun _ hn => hn) rfl rfl) rfl rfl rfl (Nat.le_refl _) rfl hknows
  | starting hold cfg =>
    obtain ⟨hknown, hcfg, hnone⟩ := hknows
    cases reply with
    | failed =>
      cases hact
      exact h.quiet hp (Turn.stay h hp rfl (fun _ hn => hn) rfl rfl) rfl rfl rfl (Nat.le_refl _) rfl hknown
    | ok =>
      cases hact
      refine h.arm hp rfl rfl rfl hnone hknown.snap.fetched (hc rfl)
        (Turn.stay h hp rfl (fun _ hn => hn) rfl rfl) ?_
      exact ⟨hknown.snap.arm_self hcfg, hknown.stops, hknown.arms⟩
  | finished snap => cases hact
  | raised => cases hact

private theorem newest_of_same {older shared : EngineWorld} (hw : shared.workers = older.workers) (newer : Snapshot)
    (aid : String) :
    (∀ w ∈ shared.worker aid, older.worker aid ≠ some w → newer.disables aid = false) ∧
      ∀ w ∈ older.worker aid, w.armedBy = newer.fetched → shared.worker aid = some w := by
  have hworker : shared.worker aid = older.worker aid := by
    unfold EngineWorld.worker
    rw [hw]
  rw [hworker]
  exact ⟨fun w hfound hnew => absurd hfound hnew, fun _ hfound _ => hfound⟩

private theorem target_of_armed {aid : String} {w : Worker}
    (hagrees : hold.snap.Agrees newer) (hnewer : newer.Known s.shared) (hcovers : hold.snap.covers aid = true)
    (hfound : s.shared.worker aid = some w) (harmed : w.armedBy = newer.fetched) :
    hold.snap.target aid = some (s.shared.digest aid) := by
  have htarget := hnewer.armed aid w hfound harmed
  obtain ⟨cfg, hcfg, hsame⟩ := mem_of_target htarget
  have hboth := hnewer.covered cfg hcfg
  rw [hsame] at hboth
  rw [hagrees.target hcovers hboth, htarget]

private theorem newest_of_pop {popped aid : String}
    (hfree : ∀ w, s.shared.worker popped = some w → w.armedBy ≠ newer.fetched) :
    (∀ w ∈ (s.shared.pop popped).worker aid, s.shared.worker aid ≠ some w → newer.disables aid = false) ∧
      ∀ w ∈ s.shared.worker aid, w.armedBy = newer.fetched → (s.shared.pop popped).worker aid = some w := by
  rw [worker_pop]
  by_cases hsame : aid = popped
  · simp_all
  · rw [if_neg hsame]
    exact ⟨fun w hfound hnew => absurd hfound hnew, fun _ hfound _ => hfound⟩

private theorem newest_apply (h : Inv s) (hp : s.procs[i]? = some (.applying hold))
    (hagrees : hold.snap.Agrees newer) (hnewer : newer.Known s.shared) (aid : String) :
    (∀ w ∈ (PassCall.apply s.shared hold).1.worker aid, s.shared.worker aid ≠ some w →
        newer.disables aid = false) ∧
      ∀ w ∈ s.shared.worker aid, w.armedBy = newer.fetched → (PassCall.apply s.shared hold).1.worker aid = some w := by
  have hknown : hold.Known s.shared := h.known _ (List.mem_of_getElem? hp)
  obtain ⟨snap, stops, arms⟩ := hold
  cases stops with
  | cons stopped stops =>
    simp only [PassCall.apply]
    split
    · exact newest_of_same rfl newer aid
    · apply newest_of_pop
      intro w hfound harmed
      obtain ⟨hcovers, hnone⟩ := Bool.and_eq_true_iff.mp (hknown.stops stopped List.mem_cons_self)
      rw [target_of_armed hagrees hnewer hcovers hfound harmed] at hnone
      cases hnone
  | nil =>
    cases arms with
    | nil => exact newest_of_same rfl newer aid
    | cons cfg arms =>
      have hcfg : cfg ∈ snap.configs := hknown.arms cfg List.mem_cons_self
      simp only [PassCall.apply]
      split
      · exact newest_of_same rfl newer aid
      · split
        · rename_i hdigest
          apply newest_of_pop
          intro w hfound harmed
          have htarget := target_of_armed hagrees hnewer (hknown.snap.covered cfg hcfg) hfound harmed
          rw [target_of_mem hknown.snap.nodup hcfg] at htarget
          exact hdigest (Option.some.inj htarget)
        · exact newest_of_same rfl newer aid

private theorem newest_arm {cfg : FeishuConfig} (hknown : hold.Known s.shared)
    (hcfg : cfg ∈ hold.snap.configs) (hnone : s.shared.worker cfg.accountId = none)
    (hagrees : hold.snap.Agrees newer) (aid : String) :
    (∀ w ∈ (s.shared.arm hold.snap cfg).worker aid, s.shared.worker aid ≠ some w → newer.disables aid = false) ∧
      ∀ w ∈ s.shared.worker aid, w.armedBy = newer.fetched → (s.shared.arm hold.snap cfg).worker aid = some w := by
  rw [worker_arm]
  by_cases hsame : aid = cfg.accountId
  · subst hsame
    rw [hnone]
    refine ⟨?_, by rintro _ ⟨⟩⟩
    intro w _ _
    by_contra hdisabled
    have hdisabled : newer.disables cfg.accountId = true := by simpa using hdisabled
    obtain ⟨hcovers, hunarmed⟩ := Bool.and_eq_true_iff.mp hdisabled
    rw [← hagrees.target (hknown.snap.covered cfg hcfg) hcovers, target_of_mem hknown.snap.nodup hcfg] at hunarmed
    cases hunarmed
  · rw [if_neg hsame]
    exact ⟨fun w hfound hnew => absurd hfound hnew, fun _ hfound _ => hfound⟩

private theorem newestWins_of_inv {event : EngineEvent} (h : Inv s) : NewestWins s event := by
  cases event with
  | spawn scope => trivial
  | outside event => trivial
  | advance i reply =>
    intro p hp n hn q hq newer hdone hlt next hact aid
    have hmem := List.mem_of_getElem? hp
    have hnewer : newer.Known s.shared := by
      cases q with
      | finished snap =>
        cases hdone
        exact h.known _ hq
      | _ => cases hdone
    cases p with
    | applying hold =>
      cases hn
      cases hact
      exact newest_apply h hp (h.ordered.agreed _ hmem hold rfl q hq newer hdone hlt) hnewer aid
    | starting hold cfg =>
      cases hn
      obtain ⟨hknown, hcfg, hnone⟩ := h.known _ hmem
      cases reply with
      | failed =>
        cases hact
        exact newest_of_same rfl newer aid
      | ok =>
        cases hact
        exact newest_arm hknown hcfg hnone (h.ordered.agreed _ hmem hold rfl q hq newer hdone hlt) aid
    | fetching scope => cases hn
    | raised => cases hn
    | finished snap => cases hact
    | gating scope fetched configs remaining active =>
      cases reply with
      | failed =>
        cases hact
        exact newest_of_same rfl newer aid
      | ok =>
        cases remaining with
        | nil => cases hact
        | cons aid' rest =>
          cases hact
          exact newest_of_same rfl newer aid
    | waiting snap =>
      simp only [PassCall.act] at hact
      split at hact <;> cases hact
      exact newest_of_same rfl newer aid
    | stopping hold w aid' rearm =>
      cases hact
      exact newest_of_same rfl newer aid
    | securing hold cfg =>
      cases reply with
      | failed =>
        cases hact
        exact newest_of_same rfl newer aid
      | ok =>
        simp only [PassCall.act] at hact
        split at hact
        · cases hact
          exact newest_of_same rfl newer aid
        · cases hact
          exact newest_of_same rfl newer aid
    | identifying hold cfg =>
      cases reply with
      | failed =>
        cases hact
        exact newest_of_same rfl newer aid
      | ok =>
        cases hact
        exact newest_of_same rfl newer aid

end Act

section Runs

variable {s s' : EngineState}

private theorem Ordered.spawn (h : Ordered s) (scope : PassScope) :
    Ordered ⟨s.shared, s.procs ++ [.fetching scope]⟩ := by
  have hcases (i : Nat) (p : PassCall) (hp : (s.procs ++ [.fetching scope])[i]? = some p) :
      s.procs[i]? = some p ∨ p = .fetching scope := by
    grind
  have hmem (p : PassCall) (hp : p ∈ s.procs ++ [.fetching scope]) : p ∈ s.procs ∨ p = .fetching scope :=
    (List.mem_append.mp hp).imp_right List.mem_singleton.mp
  refine ⟨?_, ?_, ?_, ?_⟩
  · intro i j p q hp hq hpheld hqheld
    rcases hcases i p hp with hp | rfl
    · rcases hcases j q hq with hq | rfl
      · exact h.lone i j p q hp hq hpheld hqheld
      · exact absurd rfl hqheld
    · exact absurd rfl hpheld
  · intro p hp hheld
    rcases hmem p hp with hp | rfl
    · exact h.locked p hp hheld
    · exact absurd rfl hheld
  · intro i j p q n hp hq hpn hqn
    rcases hcases i p hp with hp | rfl
    · rcases hcases j q hq with hq | rfl
      · exact h.numbered i j p q n hp hq hpn hqn
      · cases hqn
    · cases hpn
  · intro p hp hold hheld q hq newer hdone
    rcases hmem p hp with hp | rfl
    · rcases hmem q hq with hq | rfl
      · exact h.agreed p hp hold hheld q hq newer hdone
      · cases hdone
    · cases hheld

private theorem Inv.outside (h : Inv s) (hw : shared.workers = s.shared.workers)
    (hd : shared.digests = s.shared.digests) (hf : s.shared.fetches ≤ shared.fetches)
    (hl : shared.locked = s.shared.locked) (hsockets : shared.sockets.Sublist s.shared.sockets) :
    Inv ⟨shared, s.procs⟩ := by
  have hworker (aid : String) : shared.worker aid = s.shared.worker aid := by
    unfold EngineWorld.worker
    rw [hw]
  obtain ⟨hlone, hlocked, hnumbered, hagreed⟩ := h.ordered
  refine ⟨⟨hlone, fun p hp hheld => hl.trans (hlocked p hp hheld), hnumbered, hagreed⟩, ?_, ?_, ?_, ?_⟩
  · exact fun p hp => (h.known p hp).same hw hd hf
  · intro aid w hfound
    rw [hworker] at hfound
    exact Nat.lt_of_lt_of_le (h.earlier aid w hfound) hf
  · intro socket hsocket hlive
    rcases h.accounted socket (hsockets.subset hsocket) hlive with ⟨w, hfound, hid⟩ | hother
    · exact .inl ⟨w, (hworker _).trans hfound, hid⟩
    · exact .inr hother
  · exact h.single.sublist (hsockets.map _)

private theorem engine_step {event : EngineEvent} (h : Inv s) (hc : Orderly s event)
    (hs : engineProgram.step s event = some s') : Inv s' := by
  cases event with
  | spawn scope =>
    cases hs
    refine ⟨h.ordered.spawn scope, ?_, h.earlier, ?_, h.single⟩
    · intro p hp
      rcases List.mem_append.mp hp with hp | hp
      · exact h.known p hp
      · rw [List.mem_singleton.mp hp]
        trivial
    · intro socket hsocket hlive
      rcases h.accounted socket hsocket hlive with hfound | ⟨p, hp, hclosing⟩
      · exact .inl hfound
      · exact .inr ⟨p, List.mem_append_left _ hp, hclosing⟩
  | advance i reply =>
    obtain ⟨p, next, hp, hact, rfl⟩ := Program.advance_eq_some hs
    exact act_inv h hc hp hact
  | outside event =>
    obtain ⟨shared, ho, rfl⟩ := Program.outside_eq_some hs
    cases event with
    | configure configs accounts =>
      cases ho
      exact h.outside rfl rfl (Nat.le_refl _) rfl (List.Sublist.refl _)
    | breaks worker =>
      cases ho
      exact h.outside rfl rfl (Nat.le_refl _) rfl List.filter_sublist

def idleEngine (configs : Table FeishuConfig.accountId) (accounts : Accounts) : EngineState :=
  ⟨{ configs := configs, accounts := accounts }, []⟩

private theorem inv_idleEngine (configs : Table FeishuConfig.accountId) (accounts : Accounts) :
    Inv (idleEngine configs accounts) := by
  refine ⟨⟨?_, ?_, ?_, ?_⟩, ?_, ?_, ?_, List.nodup_nil⟩
  · rintro i j p q ⟨⟩
  · rintro p ⟨⟩
  · rintro i j p q n ⟨⟩
  · rintro p ⟨⟩
  · rintro p ⟨⟩
  · rintro aid w ⟨⟩
  · rintro socket ⟨⟩

end Runs

/-- No account has two WebSockets, and the newest snapshot wins, along every run whose sections are
orderly. -/
theorem converges_of_orderly {configs : Table FeishuConfig.accountId} {accounts : Accounts} {s' : EngineState}
    {events : List EngineEvent} (horderly : RunMeets engineProgram.step Orderly (idleEngine configs accounts) events)
    (hrun : run engineProgram.step (idleEngine configs accounts) events = some s') :
    Single s'.shared ∧ RunMeets engineProgram.step NewestWins (idleEngine configs accounts) events := by
  have hstep (s : EngineState) (event : EngineEvent) (next : EngineState) (hi : Inv s) (hc : Orderly s event)
      (hs : engineProgram.step s event = some next) : Inv next := engine_step hi hc hs
  have hinit := inv_idleEngine configs accounts
  constructor
  · exact (run_invariant hstep hinit horderly hrun).single
  · exact runMeets_of_invariant hstep (fun _ _ hi _ => newestWins_of_inv hi) hinit horderly

/-- One account, whose channel is effective with this digest. -/
def channelOf (effective : Bool) (digest : String) : Table FeishuConfig.accountId where
  rows := [{ accountId := "a", effectiveEnabled := effective, desiredDigest := some digest, appSecret := ['s'] }]

def oneAccount : Accounts where
  rows := [{ accountId := "a", username := ['a'] }]

def smallEngine : EngineState := idleEngine (channelOf true "1") oneAccount

def passes (i : Nat) (n : Nat) : List EngineEvent := List.replicate n (.advance i .ok)

/-- A pass arms the account, and the next one arms it again with a new digest. -/
def rearmedRun : List EngineEvent :=
  .spawn .everything :: passes 0 8 ++ .outside (.configure (channelOf true "2") oneAccount) ::
    .spawn (.only "a") :: passes 1 9

theorem converges_rearmedRun : RunMeets engineProgram.step Orderly smallEngine rearmedRun ∧
    ∃ s', run engineProgram.step smallEngine rearmedRun = some s' ∧ s'.shared.digest "a" = some "2" ∧
      Single s'.shared ∧ RunMeets engineProgram.step NewestWins smallEngine rearmedRun := by
  have horderly : RunMeets engineProgram.step Orderly smallEngine rearmedRun := by decide
  obtain ⟨s', hrun, hdigest⟩ := exists_run_of_map engineProgram.step smallEngine rearmedRun
    (fun s => decide (s.shared.digest "a" = some "2")) (by decide)
  exact ⟨horderly, s', hrun, of_decide_eq_true hdigest, converges_of_orderly horderly hrun⟩

/-- The administrator disables the channel after a pass has fetched it; the pass applies what it has fetched
when the push of the administrator has finished. -/
def overtakenRun : List EngineEvent :=
  .spawn .everything :: passes 0 2 ++ .outside (.configure (channelOf false "1") oneAccount) ::
    .spawn (.only "a") :: passes 1 4 ++ passes 0 4

/-- The stop of a worker leaves its socket up, and the pass starts the next worker. -/
def lingeringRun : List EngineEvent :=
  .spawn .everything :: passes 0 8 ++ .outside (.configure (channelOf true "2") oneAccount) ::
    .spawn (.only "a") :: passes 1 4 ++ .advance 1 .failed :: passes 1 3

/-- The account as both passes of the overtaken run see it. -/
def oldChannel : FeishuConfig :=
  { accountId := "a", effectiveEnabled := true, desiredDigest := some "1", appSecret := ['s'] }

theorem lateSnapshot_not_converges :
    (∃ s, run engineProgram.step smallEngine overtakenRun = some s ∧ ¬ NewestWins s (.advance 0 .ok)) ∧
      ∃ s', run engineProgram.step smallEngine lingeringRun = some s' ∧ ¬ Single s'.shared := by
  constructor
  · obtain ⟨s, hrun, htest⟩ := exists_run_of_map engineProgram.step smallEngine overtakenRun
      (fun s => decide (s.shared.worker "a" = none ∧
        s.procs = [.starting ⟨⟨.everything, 0, [oldChannel]⟩, [], []⟩ oldChannel, .finished ⟨.only "a", 1, []⟩]))
      (by decide)
    obtain ⟨hnone, hprocs⟩ := of_decide_eq_true htest
    refine ⟨s, hrun, ?_⟩
    intro hwins
    have hstarted := (hwins _ (by rw [hprocs]; rfl) 0 rfl (.finished ⟨.only "a", 1, []⟩)
      (by rw [hprocs]; simp) ⟨.only "a", 1, []⟩ rfl (by decide) _ rfl "a").1 _
      ((worker_arm s.shared _ oldChannel "a").trans (if_pos rfl)) (by rw [hnone]; rintro ⟨⟩)
    revert hstarted
    decide
  · obtain ⟨s', hrun, htest⟩ := exists_run_of_map engineProgram.step smallEngine lingeringRun
      (fun s => decide (¬ (s.shared.sockets.map Socket.account).Nodup)) (by decide)
    refine ⟨s', hrun, ?_⟩
    unfold Single
    exact of_decide_eq_true htest

end PrivaCloud.ChannelConnector
