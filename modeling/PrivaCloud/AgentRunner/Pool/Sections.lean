import PrivaCloud.AgentRunner.Pool.Ordered

/-!
# The sections of the pool keep its order

All of it rests on one condition on peer turns: none of them ends on a resident runtime that an
`acquire` has reserved and not yet got.
-/

namespace PrivaCloud.AgentRunner

open Framework

namespace PoolSystem

variable {memory : RuntimeMemorySnapshot} {now : Nat}

section Turns

variable {s : PoolSystem} {t r : Nat} {args : AcquireArgs}

theorem ne_new_of_owned (hr : (s.tasks t).owned = some r) : s.tasks t ≠ .new := by
  intro hn
  rw [hn] at hr
  cases hr

variable {fresh : Bool}

private theorem Ordered.failStart (h : s.Ordered) (ht : s.tasks t ≠ .new)
    (hh : fresh = true → (s.tasks t).held = some args.key) : (s.failStart t args r fresh).Ordered := by
  cases fresh with
  | true =>
    have hc : (s.setRuntime r (s.heap r).requestClose).Ordered :=
      h.evolves (s.heap r).evolves_requestClose
        (by rw [(s.heap r).requestClose_eq]; exact fun _ _ _ _ hs => hs)
    exact hc.letGo _ ht rfl (.inr (hh rfl).symm)
  | false => exact (h.evict r).letGo _ ht rfl (.inl rfl)

@[simp] theorem setTask_setTask (s : PoolSystem) (t : Nat) (phase phase' : TaskPhase) :
    (s.setTask t phase).setTask t phase' = s.setTask t phase' := by
  simp [PoolSystem.setTask]

private theorem Ordered.register (h : s.Ordered) (hr : (s.tasks t).owned = some r)
    (hk : (s.tasks t).held = some args.key) (hkey : (s.heap r).key = args.key)
    (hres : (s.heap r).resident = false)
    (hturn : (s.heap r).activeQueue = some t)
    (hwrite : (s.heap r).turnWriteCapable = decide (args.mode ≠ idlePermissionMode)) :
    (s.register t args r).Ordered := by
  have ht := ne_new_of_owned hr
  -- the task lets go of its key before the key leaves the tables
  have hover : (s.setTask t .ended).Ordered := h.letGo _ ht rfl (.inl rfl)
  have hnokey (t' : Nat) : ((s.setTask t .ended).tasks t').held ≠ some args.key := by
    by_cases he : t' = t
    · simp [PoolSystem.setTask, he, TaskPhase.held]
    · intro hk'
      exact he (h.holders t' t args.key (by simpa [PoolSystem.setTask, he] using hk') hk)
  have hnoowner (t' : Nat) : ((s.setTask t .ended).tasks t').owned ≠ some r := by
    by_cases he : t' = t
    · simp [PoolSystem.setTask, he, TaskPhase.owned]
    · intro hr'
      exact he (h.tenants t' t r (by simpa [PoolSystem.setTask, he] using hr') hr)
  have hfree := hover.discard hnokey
  have hlt := h.below t r hr
  have hnew : ((s.setTask t .ended).setPool
      ((s.setTask t .ended).pool.discardStarting args.key)).tasks t ≠ .new := by
    simp [PoolSystem.setPool, PoolSystem.setTask]
  simp only [PoolSystem.register]
  split
  · have hc := hfree.evolves ((s.heap r).evolves_requestClose)
      (by rw [(s.heap r).requestClose_eq]; exact fun _ _ _ _ hs => hs)
    rw [← setTask_setTask _ t .ended]
    exact hc.letGo (.closing r) hnew rfl (.inl rfl)
  · rename_i hn
    simp only [not_or, Bool.not_eq_true, Option.isSome_eq_false_iff, Option.isNone_iff_eq_none]
      at hn
    have hm (late : Bool) := hfree.moveIn late hlt hkey hres hn.2 hnoowner
    have hl (late : Bool) := (hm late).setTask (.leased r args.mode) hnew ?_ (fun _ hk => by cases hk)
    · rw [← setTask_setTask _ t .ended]
      exact hl _
    · intro r' hr'
      cases hr'
      refine ⟨hlt, ?_, fun t' _ => hnoowner t'⟩
      simp only [PoolSystem.setRuntime, Function.update_self]
      exact ⟨fun _ => hturn, fun _ => hwrite⟩

private theorem Ordered.takeTurn (h : s.Ordered) (hr : (s.tasks t).owned = some r)
    (hk : (s.tasks t).held = if fresh = true then some args.key else none)
    (hf : fresh = true → (s.heap r).resident = false ∧ (s.heap r).key = args.key)
    (hs : (s.tasks t).Suits t ((s.heap r).ownTurn t args.binding args.mode now)) :
    (s.takeTurn t args r fresh now).Ordered := by
  have ht := ne_new_of_owned hr
  have hown : (s.setRuntime r ((s.heap r).ownTurn t args.binding args.mode now)).Ordered := by
    refine h.setRuntime ?_ ?_ ?_
    · rfl
    · rfl
    · intro t' hr'
      rw [h.tenants t' t r hr' hr]
      exact hs
  have hval : (s.setRuntime r ((s.heap r).ownTurn t args.binding args.mode now)).heap r =
      (s.heap r).ownTurn t args.binding args.mode now := by
    simp [PoolSystem.setRuntime]
  simp only [PoolSystem.takeTurn]
  split
  · apply hown.failStart ht
    intro hfresh
    rw [if_pos hfresh] at hk
    exact hk
  split
  · rename_i hfresh
    rw [if_pos hfresh] at hk
    apply hown.register hr hk
    · rw [hval]
      exact (hf hfresh).2
    · rw [hval]
      exact (hf hfresh).1
    · rw [hval]
      rfl
    · rw [hval]
      rfl
  · apply hown.moveOn _ hr rfl _ (.inl rfl)
    rw [hval]
    exact ⟨fun _ => rfl, fun _ => rfl⟩

theorem takeTurn_setTask (s : PoolSystem) (t : Nat) (args : AcquireArgs) (r : Nat) (fresh : Bool)
    (now : Nat) (phase : TaskPhase) :
    (s.setTask t phase).takeTurn t args r fresh now = s.takeTurn t args r fresh now := by
  cases fresh with
  | true =>
    simp only [PoolSystem.takeTurn, PoolSystem.failStart, PoolSystem.register,
      PoolSystem.setTask, PoolSystem.setPool, PoolSystem.setRuntime, Function.update_idem]
    rfl
  | false =>
    simp [PoolSystem.takeTurn, PoolSystem.failStart, PoolSystem.evict, PoolSystem.setTask,
      PoolSystem.setPool, PoolSystem.setRuntime]

theorem beginTurn_cases {P : PoolSystem → Prop}
    (h : P (s.setTask t (.switching args r fresh)))
    (hturn : (s.setTask t (.switching args r fresh)).tasks t = .switching args r fresh →
      P ((s.setTask t (.switching args r fresh)).takeTurn t args r fresh now)) :
    P (s.beginTurn t args r fresh now) := by
  unfold PoolSystem.beginTurn
  split
  · exact h
  · rw [← takeTurn_setTask s t args r fresh now (.switching args r fresh)]
    exact hturn (by simp [PoolSystem.setTask])

private theorem Ordered.takeSwitched (h : s.Ordered)
    (ht : s.tasks t = .switching args r fresh) : (s.takeTurn t args r fresh now).Ordered := by
  have hr : (s.tasks t).owned = some r := by rw [ht]; rfl
  have hs := h.suits t r hr
  rw [ht] at hs
  cases fresh with
  | true =>
    apply h.takeTurn hr
    · rw [ht]
      rfl
    · exact fun _ => ⟨hs.1, hs.2.1⟩
    · rw [ht]
      exact hs
  | false =>
    apply h.takeTurn hr
    · rw [ht]
      rfl
    · intro hn
      cases hn
    · rw [ht]
      refine ⟨fun hres => ?_, fun _ => rfl⟩
      simp only [SessionRuntime.ownTurn]
      split
      · intro hn
        cases hn
      · exact hs.1 hres

private theorem Ordered.beginTurn (h : (s.setTask t (.switching args r fresh)).Ordered) :
    (s.beginTurn t args r fresh now).Ordered :=
  beginTurn_cases (P := PoolSystem.Ordered) h fun ht => h.takeSwitched ht

theorem Ordered.free_of_evictable (h : s.Ordered) (hres : (s.heap r).resident = true)
    (hf : (s.heap r).healthyFlag = true) (he : (s.heap r).evictable = true) (t : Nat) :
    (s.tasks t).owned ≠ some r := by
  intro hr
  have hs := h.suits t r hr
  simp only [SessionRuntime.evictable, Bool.and_eq_true, decide_eq_true_eq, Option.isNone_iff_eq_none] at he
  have hfresh {args : AcquireArgs} (hs : (s.heap r).resident = false ∧ (s.heap r).key = args.key ∧
      (s.heap r).writeScope = args.options.writeScope) : False := by
    rw [hres] at hs
    cases hs.1
  have hturn {P : Prop} (hs : ((s.heap r).healthyFlag = true → (s.heap r).activeQueue = some t) ∧
      P) : False := by
    have := hs.1 hf
    rw [he.2] at this
    cases this
  cases hp : s.tasks t with
  | connecting args r' =>
    rw [hp] at hr hs
    exact hfresh hs
  | switching args r' fresh =>
    rw [hp] at hr hs
    cases fresh with
    | true => exact hfresh hs
    | false => exact hs.1 hres he.1
  | reverting args r' fresh =>
    rw [hp] at hr hs
    cases fresh with
    | true => exact hfresh hs
    | false => exact hs.1 hres he.1
  | leased r' mode =>
    rw [hp] at hr hs
    exact hturn hs
  | releasing r' mode args =>
    rw [hp] at hr hs
    exact hturn hs
  | new | refreshing _ _ _ | evicting _ _ | connectFailing _ _ | failing _ _ | closing _
  | finishing _ _ | ended =>
    rw [hp] at hr
    cases hr

theorem Ordered.free_of_reuse (h : s.Ordered)
    (hadm : s.pool.admission s.heap args.key args.options memory = .reuse r) :
    (s.heap r).resident = true ∧ ∀ t, (s.tasks t).owned ≠ some r := by
  obtain ⟨hclear, hlookup, hh, -⟩ := SessionRuntimePool.admission_backed hadm nofun
  have hres := ((h.keyed args.key r).mp hlookup).1
  have hf : (s.heap r).healthyFlag = true := by
    simp only [SessionRuntime.healthy, Bool.and_eq_true] at hh
    exact hh.1
  exact ⟨hres, h.free_of_evictable hres hf (hclear.idle r hlookup hh)⟩

private theorem Ordered.reserve (h : s.Ordered)
    (hadm : s.pool.admission s.heap args.key args.options memory = .reuse r) (writes : Bool) :
    (s.setRuntime r ((s.heap r).reserve writes)).Ordered := by
  refine h.setRuntime ?_ ?_ ?_
  · rfl
  · rfl
  · intro t hr
    exact absurd hr ((h.free_of_reuse hadm).2 t)

/-- The task takes the runtime that it has reserved into `start_turn`. -/
theorem Ordered.reserveTurn (h : s.Ordered)
    (hadm : s.pool.admission s.heap args.key args.options memory = .reuse r)
    (ht : s.tasks t ≠ .new) :
    ((s.setRuntime r ((s.heap r).reserve (args.mode ≠ idlePermissionMode))).setTask t
      (.switching args r false)).Ordered := by
  obtain ⟨hres, hfree⟩ := h.free_of_reuse hadm
  apply (h.reserve hadm _).setTask _ ht
  · intro r' hr'
    cases hr'
    refine ⟨?_, ?_, fun t' _ => hfree t'⟩
    · by_contra hge
      have := h.made r (Nat.le_of_not_lt hge)
      rw [hres] at this
      cases this
    · simp only [PoolSystem.setRuntime, Function.update_self]
      exact ⟨(fun _ hn => by cases hn), fun _ => rfl⟩
  · intro k hk
    cases hk

private theorem Ordered.enter (h : s.Ordered) {deferred : Bool}
    (ht : s.tasks t ≠ .new) : (s.enter t args memory deferred now).Ordered := by
  have hnokey (hk : args.key ∉ s.pool.starting) (t' : Nat) :
      (s.tasks t').held ≠ some args.key := fun hh => hk (h.held t' args.key hh)
  unfold PoolSystem.enter
  split
  · exact h.letGo _ ht rfl (.inl rfl)
  · rename_i r hadm
    simp only
    split
    · exact (h.reserve hadm _).failStart ht fun hn => by cases hn
    · exact (h.reserveTurn hadm ht).beginTurn
  · rename_i victim hadm
    obtain ⟨hclear, -⟩ := SessionRuntimePool.admission_backed hadm nofun
    have hadd : ((s.evict victim).setPool
        ((s.evict victim).pool.addStarting args.key t args.options)).Ordered :=
      (h.evict victim).setPool rfl (Finset.subset_insert _ _)
    apply hadd.setTask (.evicting args victim) ht (fun _ hr => by cases hr)
    intro k hk
    cases hk
    exact ⟨Finset.mem_insert_self _ _, fun t' _ => hnokey hclear.starting t'⟩
  · rename_i hadm
    obtain ⟨hclear, -⟩ := SessionRuntimePool.admission_backed hadm nofun
    have hadd : (s.setPool (s.pool.addStarting args.key t args.options)).Ordered :=
      h.setPool rfl (Finset.subset_insert _ _)
    exact hadd.startRuntime now ht (Finset.mem_insert_self _ _)
      fun t' _ => hnokey hclear.starting t'

private theorem Ordered.remap (h : s.Ordered) {mode : PermissionMode} (ht : s.tasks t = .leased r mode)
    (sessionId : String) : (s.remap r sessionId).Ordered := by
  have hr : (s.tasks t).owned = some r := by rw [ht]; rfl
  have hs := h.suits t r hr
  have hsame (t' : Nat) (hr' : (s.tasks t').owned = some r) (v : SessionRuntime)
      (hv : v.healthyFlag = true → (s.heap r).healthyFlag = true)
      (hq : v.activeQueue = (s.heap r).activeQueue)
      (hw : v.turnWriteCapable = (s.heap r).turnWriteCapable) : (s.tasks t').Suits t' v := by
    obtain rfl := h.tenants t' t r hr' hr
    rw [ht] at hs ⊢
    exact ⟨fun hf => hq.trans (hs.1 (hv hf)), fun hq' => hw.trans (hs.2 (hq ▸ hq'))⟩
  unfold PoolSystem.remap
  split
  · exact h
  rename_i hgone
  split
  · refine h.setRuntime ?_ ?_ ?_
    · rfl
    · rfl
    · exact fun t' hr' => hsame t' hr' _ (fun hn => by cases hn) rfl rfl
  · rename_i hfree
    have hres : (s.heap r).resident = true := by
      simp only [not_or, Decidable.not_not] at hgone
      exact ((h.keyed _ r).mp hgone.2).1
    apply h.rekey hres
    · intro r' hr'
      simpa [hr'] using hfree
    · exact fun t' hr' => hsame t' hr' _ id rfl rfl

private theorem Ordered.finishRelease (h : s.Ordered) {mode : PermissionMode} {rargs : ReleaseArgs}
    (ht : s.tasks t = .releasing r mode rargs) (safe reset : Bool) (unread : List UnreadFrame)
    (now : Nat) : (s.finishRelease t r rargs safe reset unread now).Ordered := by
  have hr : (s.tasks t).owned = some r := by rw [ht]; rfl
  have hnew := ne_new_of_owned hr
  have hover : (s.setTask t .ended).Ordered := h.letGo _ hnew rfl (.inl rfl)
  have hnoowner (t' : Nat) : ((s.setTask t .ended).tasks t').owned ≠ some r := by
    by_cases he : t' = t
    · simp [PoolSystem.setTask, he, TaskPhase.owned]
    · intro hr'
      exact he (h.tenants t' t r (by simpa [PoolSystem.setTask, he] using hr') hr)
  have hfinish (v : SessionRuntime) (hv : v.resident = (s.heap r).resident)
      (hk : v.key = (s.heap r).key) (unread : List (PeerEnv × Frame)) (tainted keepWarm : Bool) :
      ((s.setTask t .ended).setRuntime r (v.finishTurn unread tainted keepWarm now)).Ordered := by
    refine hover.setRuntime ?_ ?_ fun t' hr' => absurd hr' (hnoowner t')
    · rw [SessionRuntime.finishTurn_eq]
      exact hv
    · rw [SessionRuntime.finishTurn_eq]
      exact hk
  have hsettle (v : SessionRuntime) (hv : ((s.setTask t .ended).setRuntime r v).Ordered) :
      ((s.setRuntime r v).settleRelease t r rargs.keepWarm).Ordered := by
    have hne : ((s.setTask t .ended).setRuntime r v).tasks t ≠ .new := by
      simp [PoolSystem.setRuntime, PoolSystem.setTask]
    unfold PoolSystem.settleRelease
    split
    · rw [← setTask_setTask _ t .ended]
      exact (hv.evict r).letGo _ hne rfl (.inl rfl)
    · exact hv
  simp only [PoolSystem.finishRelease]
  apply hsettle
  apply hfinish
  · split <;> rfl
  · split <;> rfl

end Turns

/-- No peer turn ends on a resident runtime that an `acquire` has reserved and not yet got. -/
def KeepsReservation (s : PoolSystem) : PoolEvent → Prop
  | .evolve r e _ => (s.heap r).endsPeer e = true → (s.heap r).resident = true →
      ∀ t < s.spawned, (s.tasks t).owned = some r → (s.tasks t).reserving = false
  | _ => True

instance (s : PoolSystem) (e : PoolEvent) : Decidable (KeepsReservation s e) := by
  cases e <;> dsimp only [KeepsReservation] <;> infer_instance

theorem endsPeer_withAdmission (v : SessionRuntime) (admits : Bool) (e : RuntimeEvent) :
    v.endsPeer (e.withAdmission admits) = v.endsPeer e := by
  cases e <;> rfl

section Steps

variable {s s' : PoolSystem}

private theorem Ordered.evolve (h : s.Ordered) {r : Nat} {e : RuntimeEvent}
    (hc : KeepsReservation s (.evolve r e memory))
    (hv : (s.heap r).evolve (e.withAdmission (s.pool.admitsPeer s.heap r memory)) = some v) :
    (s.setRuntime r v).Ordered := by
  apply h.evolves (SessionRuntime.evolves_evolve hv)
  intro t hr hreserving hres hidle
  have hspawned : t < s.spawned := by
    by_contra hge
    exact ne_new_of_owned hr (h.unspawned t (Nat.le_of_not_lt hge))
  have hres : (s.heap r).resident = true := by
    rwa [(SessionRuntime.evolves_evolve hv).resident] at hres
  apply SessionRuntime.evolve_idle hv _ hidle
  rw [endsPeer_withAdmission]
  by_contra hends
  rw [hc (by simpa using hends) hres t hspawned hr] at hreserving
  cases hreserving

private theorem Ordered.discardKey (h : s.Ordered) {t : Nat} {key : String} (hk : (s.tasks t).held = some key) :
    (s.discardKey t key).Ordered := by
  have hover : (s.setTask t .ended).Ordered := h.letGo _ (ne_new_of_held hk) rfl (.inl rfl)
  apply hover.discard
  intro t'
  by_cases he : t' = t
  · simp [PoolSystem.setTask, he, TaskPhase.held]
  · intro hk'
    exact he (h.holders t' t key (by simpa [PoolSystem.setTask, he] using hk') hk)

/-- The task takes the runtime that it has connected into `start_turn`. -/
theorem Ordered.connectedTurn (h : s.Ordered) {t r : Nat} {args : AcquireArgs} (now : Nat)
    (hp : s.tasks t = .connecting args r) :
    ((s.setRuntime r ((s.heap r).connected now)).setTask t (.switching args r true)).Ordered := by
  have hr : (s.tasks t).owned = some r := by rw [hp]; rfl
  have hsuits := h.suits t r hr
  rw [hp] at hsuits
  have hc : (s.setRuntime r ((s.heap r).connected now)).Ordered := by
    refine h.setRuntime ?_ ?_ ?_
    · rfl
    · rfl
    · intro t' hr'
      obtain rfl := h.tenants t' t r hr' hr
      rw [hp]
      exact hsuits
  apply hc.moveOn _ hr rfl _ (.inr (by simp [PoolSystem.setRuntime, hp, TaskPhase.held]))
  simp only [PoolSystem.setRuntime, Function.update_self]
  exact hsuits

private theorem Ordered.switched (h : s.Ordered) {t : Nat}
    (hs : s.step (.switched t now) = some s') : s'.Ordered := by
  simp only [step] at hs
  split at hs
  · rename_i args r fresh hp
    have hr : (s.tasks t).owned = some r := by rw [hp]; rfl
    have hm : (s.setRuntime r ((s.heap r).setPermissionMode args.mode)).Ordered :=
      h.evolves (SessionRuntime.evolves_setPermissionMode _ _) fun _ _ _ _ hs => hs
    split at hs <;> cases hs
    · have hsuits := hm.suits t r hr
      have htask : (s.setRuntime r ((s.heap r).setPermissionMode args.mode)).tasks t =
          .switching args r fresh := hp
      rw [htask] at hsuits
      apply hm.moveOn _ hr rfl
      · cases fresh <;> exact hsuits
      · rw [htask]
        cases fresh <;> exact .inr rfl
    · exact hm.takeSwitched hp
  · cases hs

theorem Ordered.step (h : s.Ordered) {e : PoolEvent} (hc : KeepsReservation s e)
    (hs : s.step e = some s') : s'.Ordered := by
  cases step_moves hs with
  | acquire args memory =>
    exact (shrinks_ordered.refresh _ (h.setPool rfl (Finset.Subset.refl _))).spawn _ _ _
  | admission t deferred now hp =>
    exact h.enter (by simp [hp])
  | @evicted t now args victim hp =>
    have hk : (s.tasks t).held = some args.key := by rw [hp]; rfl
    exact h.startRuntime now (by simp [hp]) (h.held t args.key hk)
      fun t' hne hk' => hne (h.holders t' t args.key hk' hk)
  | connected t now hp =>
    exact (h.connectedTurn now hp).beginTurn
  | @connectFails t args r hp =>
    have hv : (s.heap r).Evolves (s.heap r).poison.requestClose :=
      (SessionRuntime.evolves_poison _).trans (SessionRuntime.evolves_requestClose _)
    have hpoison : (s.setRuntime r (s.heap r).poison.requestClose).Ordered := by
      apply h.evolves hv
      intro _ _ _ _ hidle
      rw [SessionRuntime.requestClose_eq] at hidle
      cases hidle
    refine hpoison.letGo _ ?_ rfl (.inr ?_)
    · simp [PoolSystem.setRuntime, hp]
    · simp [PoolSystem.setRuntime, hp, TaskPhase.held]
  | switched t now | blocked t now => exact h.switched hs
  | @reverted t args r fresh hp =>
    have hm : (s.setRuntime r ((s.heap r).setPermissionMode idlePermissionMode)).Ordered :=
      h.evolves (SessionRuntime.evolves_setPermissionMode _ _) fun _ _ _ _ hs => hs
    refine hm.failStart ?_ ?_
    · simp [PoolSystem.setRuntime, hp]
    · rintro rfl
      simp [PoolSystem.setRuntime, hp, TaskPhase.held]
  | startFails t hp =>
    rcases hp with hp | hp
    all_goals
      refine h.failStart (by simp [hp]) ?_
      rintro rfl
      rw [hp]
      rfl
  | discarded t hk => exact h.discardKey hk
  | closed t hp | cancelFailing t hp => exact h.letGo _ (by simp [hp]) rfl (.inl rfl)
  | aborted t hn => exact h.letGo _ hn rfl (.inl rfl)
  | cancelEviction t hp | cancelConnect t hp =>
    exact h.letGo _ (by simp [hp]) rfl (.inr (by rw [hp]; rfl))
  | @unbindTurn t r _ _ =>
    apply h.evolves (SessionRuntime.evolves_dropBinding _)
    rw [SessionRuntime.dropBinding_eq]
    exact fun _ _ _ _ hs => hs
  | resetTurn t =>
    exact h.evolves (SessionRuntime.evolves_setPermissionMode _ _) fun _ _ _ _ hs => hs
  | remap t sessionId hp =>
    exact h.remap hp sessionId
  | @release t args r mode hp =>
    have hr : (s.tasks t).owned = some r := by rw [hp]; rfl
    have hd : (s.setRuntime r (s.heap r).dropBinding).Ordered := by
      apply h.evolves (SessionRuntime.evolves_dropBinding _)
      rw [SessionRuntime.dropBinding_eq]
      exact fun _ _ _ _ hs => hs
    have hsuits := hd.suits t r hr
    rw [show (s.setRuntime r (s.heap r).dropBinding).tasks t = .leased r mode from hp] at hsuits
    exact hd.moveOn _ hr rfl hsuits (.inl rfl)
  | quiesced t safe reset unread now hp =>
    exact h.finishRelease hp safe reset unread now
  | @releaseFails t r _ _ hp =>
    refine (h.evict r).letGo _ ?_ rfl (.inl rfl)
    rw [show (s.evict r).tasks t = s.tasks t from rfl, hp]
    intro hn
    cases hn
  | evolve r e memory _ hv => exact h.evolve hc hv
  | refreshCapacity memory preserve =>
    exact shrinks_ordered.refresh preserve (h.setPool rfl (Finset.Subset.refl _))
  | configure capacity =>
    exact shrinks_ordered.configure (h.setPool rfl (Finset.Subset.refl _))
  | unconfigured =>
    exact h
  | recycleAll =>
    exact shrinks_ordered.recycleAll h
  | reserveSession key live cancelActive =>
    exact shrinks_ordered.reserveSession h live cancelActive
      (h.setPool rfl (Finset.Subset.refl _))
  | reserveSweep key expired =>
    exact shrinks_ordered.reserveSweep h key expired
  | releaseMaintenance key =>
    exact h.setPool rfl (Finset.Subset.refl _)
  | retire r =>
    apply h.evolves (((s.heap r).evolves_requestClose).trans
      (SessionRuntime.evolves_setRetireTask _ .closing))
    rw [SessionRuntime.requestClose_eq]
    exact fun _ _ _ _ hs => hs
  | retired r =>
    apply Ordered.evict
    exact h.evolves (SessionRuntime.evolves_setRetireTask _ .done) fun _ _ _ _ hs => hs

end Steps

end PoolSystem

end PrivaCloud.AgentRunner
