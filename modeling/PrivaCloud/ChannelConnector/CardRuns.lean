import PrivaCloud.ChannelConnector.CardPatches

/-!
# Cards along a run

A prompt that waits on its card keeps the ticker from making patches, so that only a patch that was
made before can wipe it or follow the final card.
-/

namespace PrivaCloud.ChannelConnector

open Framework AskUser

private theorem getValue_filter_snd {d : List (String × Nat)} {k : String} {v w : Nat} (h : getValue d k = some v)
    (hne : v ≠ w) : getValue (d.filter (·.2 ≠ w)) k = some v := by
  induction d with
  | nil => cases h
  | cons e d ih =>
    rw [getValue] at h
    split at h
    · rename_i hk
      cases h
      rw [List.filter_cons_of_pos (by simpa using hne), getValue, if_pos hk]
    · rename_i hk
      by_cases he : e.2 = w
      · rw [List.filter_cons_of_neg (by simp [he])]
        exact ih h
      · rw [List.filter_cons_of_pos (by simpa using he), getValue, if_neg hk]
        exact ih h

variable {id : Nat}

namespace PromptWorld

def Waits (w : PromptWorld) (card : String) (id : Nat) : Prop :=
  ∃ prompt, w.prompts[id]? = some prompt ∧ prompt.embedded = true ∧ prompt.messageId = card ∧
    prompt.status = .pending

/-- No prompt begins to wait, and those that still do stay on their cards. -/
structure Eased (w w' : PromptWorld) : Prop where
  waits : ∀ card id, w'.Waits card id → w.Waits card id
  embeds : ∀ card id, w'.Waits card id → getValue w.embeds card = some id → getValue w'.embeds card = some id
  length : w.prompts.length ≤ w'.prompts.length
  messageIds : ∀ m ∈ w.messageIds, m ∈ w'.messageIds

private theorem Eased.refl (w : PromptWorld) : Eased w w :=
  ⟨fun _ _ h => h, fun _ _ _ h => h, Nat.le_refl _, fun _ h => h⟩

private theorem Eased.trans {w w' w'' : PromptWorld} (h : Eased w w') (h' : Eased w' w'') : Eased w w'' where
  waits card id hw := h.waits card id (h'.waits card id hw)
  embeds card id hw hv := h'.embeds card id hw (h.embeds card id (h'.waits card id hw) hv)
  length := h.length.trans h'.length
  messageIds m hm := h'.messageIds m (h.messageIds m hm)

private theorem waits_of_settleIf {w w' : PromptWorld} {gone : Nat → Bool} {status : PromptStatus}
    (hw' : w'.prompts = w.settleIf gone status) (hstatus : status ≠ .pending) {card : String}
    (h : w'.Waits card id) : w.Waits card id ∧ gone id = false := by
  obtain ⟨prompt, hprompt, hembedded, hcard, hpending⟩ := h
  rw [hw', settleIf, List.getElem?_mapIdx] at hprompt
  obtain ⟨was, hwas, hsame⟩ := Option.map_eq_some_iff.mp hprompt
  split at hsame
  · rw [← hsame] at hpending
    exact absurd hpending hstatus
  · rename_i hstays
    rw [← hsame] at hembedded hcard hpending
    refine ⟨⟨was, hwas, hembedded, hcard, hpending⟩, ?_⟩
    rw [Bool.eq_false_iff]
    exact fun hgone => hstays ⟨hgone, hpending⟩

private theorem eased_settle (w : PromptWorld) {status : PromptStatus} (hstatus : status ≠ .pending) (id : Nat) :
    Eased w (w.settle status id) := by
  unfold settle
  split
  · exact Eased.refl w
  · rename_i prompt hprompt
    refine ⟨fun card k h => (waits_of_settleIf rfl hstatus h).1, fun card k h hv => ?_, ?_, fun _ hm => hm⟩
    · have hk := (waits_of_settleIf rfl hstatus h).2
      exact getValue_filter_snd hv (of_decide_eq_false hk)
    · change w.prompts.length ≤ (w.settleIf _ status).length
      rw [settleIf, List.length_mapIdx]

private theorem eased_sweep (w : PromptWorld) (ttl now : Nat) : Eased w (w.sweep ttl now) where
  waits card id h := (waits_of_settleIf rfl (by decide) h).1
  embeds _ _ _ hv := hv
  length := by
    change w.prompts.length ≤ (w.settleIf _ .expired).length
    rw [settleIf, List.length_mapIdx]
  messageIds _ hm := hm

private theorem eased_clearPermission (w : PromptWorld) (requestId : String) :
    Eased w (w.clearPermission requestId) := by
  unfold clearPermission
  split
  · exact Eased.refl w
  · exact eased_settle w (by decide) _

private theorem eased_expirePrompts (w : PromptWorld) (issued : List Nat) : Eased w (w.expirePrompts issued) := by
  induction issued generalizing w with
  | nil => exact Eased.refl w
  | cons id issued ih => exact (eased_settle w (by decide) id).trans (ih (w.settle .expired id))

private theorem eased_index (w : PromptWorld) {prompt : PendingPrompt} (hp : prompt.embedded = false) :
    Eased w (w.index prompt) where
  waits card id h := by
    obtain ⟨found, hfound, hembedded, hrest⟩ := h
    change (w.prompts ++ [prompt])[id]? = some found at hfound
    rw [List.getElem?_append] at hfound
    split at hfound
    · exact ⟨found, hfound, hembedded, hrest⟩
    · rw [List.mem_singleton.mp (List.mem_of_getElem? hfound), hp] at hembedded
      cases hembedded
  embeds card id _ hv := by
    change getValue (if prompt.embedded then _ else w.embeds) card = some id
    rw [hp]
    exact hv
  length := by
    change w.prompts.length ≤ (w.prompts ++ [prompt]).length
    rw [List.length_append]
    exact Nat.le_add_right _ _
  messageIds _ hm := hm

private theorem eased_set (w : PromptWorld) {prompt prompt' : PendingPrompt}
    (hprompt : w.prompts[id]? = some prompt) (hsame : prompt'.embedded = prompt.embedded ∧
      prompt'.messageId = prompt.messageId ∧ prompt'.status = prompt.status) :
    Eased w { w with prompts := w.prompts.set id prompt' } where
  waits card k h := by
    obtain ⟨found, hfound, hembedded, hcard, hpending⟩ := h
    change (w.prompts.set id prompt')[k]? = some found at hfound
    by_cases hk : id = k
    · rw [← hk, List.getElem?_set_self (List.getElem?_eq_some_iff.mp hprompt).1] at hfound
      cases hfound
      rw [hsame.1] at hembedded
      rw [hsame.2.1] at hcard
      rw [hsame.2.2] at hpending
      exact ⟨prompt, hk ▸ hprompt, hembedded, hcard, hpending⟩
    · rw [List.getElem?_set_ne hk] at hfound
      exact ⟨found, hfound, hembedded, hcard, hpending⟩
  embeds _ _ _ hv := hv
  length := Nat.le_of_eq (List.length_set).symm
  messageIds _ hm := hm

private theorem eased_resolutions (w : PromptWorld) (resolutions : List Resolution) :
    Eased w { w with resolutions := resolutions } :=
  ⟨fun _ _ h => h, fun _ _ _ h => h, Nat.le_refl _, fun _ h => h⟩

private theorem eased_finish (w : PromptWorld) (id : Nat) (prompt : PendingPrompt) (tap source : Tap)
    (decision : Decision) (answer : Option Text) (toast : String) {status : PromptStatus}
    (hstatus : status ≠ .pending) (message : String) :
    Eased w (w.finish id prompt tap source decision answer toast status message).1 :=
  (eased_settle w hstatus id).trans (eased_resolutions _ _)

private theorem eased_select (w : PromptWorld) {prompt : PendingPrompt}
    (hprompt : w.prompts[id]? = some prompt) (tap : Tap) (option : Text) :
    Eased w (w.select id prompt tap option).1 := by
  unfold select
  split
  · exact eased_set w hprompt ⟨rfl, rfl, rfl⟩
  · exact eased_set w hprompt ⟨rfl, rfl, rfl⟩

private theorem eased_handle (w : PromptWorld) (tap : Tap) : Eased w (w.handle tap).1 := by
  unfold handle
  split
  · exact Eased.refl w
  · split
    · exact Eased.refl w
    · rename_i id _ _ prompt hprompt
      split
      · exact Eased.refl w
      · split
        · exact Eased.refl w
        · split
          · exact eased_finish w id prompt tap tap _ _ _ (by decide) _
          · exact eased_finish w id prompt tap tap _ _ _ (by decide) _
          · exact eased_finish w id prompt tap tap _ _ _ (by decide) _
          · dsimp only
            split
            · exact Eased.refl w
            · exact eased_finish w id prompt tap _ _ _ _ (by decide) _
          · split
            · exact eased_select w hprompt tap _
            · split
              · dsimp only
                split
                · exact Eased.refl w
                · exact eased_finish w id prompt tap tap _ _ _ (by decide) _
              · exact Eased.refl w

private theorem length_sweep (w : PromptWorld) (ttl now : Nat) :
    (w.sweep ttl now).prompts.length = w.prompts.length := by
  change (w.settleIf _ .expired).length = _
  rw [settleIf, List.length_mapIdx]

private theorem waits_register (w : PromptWorld) (ttl : Nat) (prompt : PendingPrompt) {card : String}
    (h : (w.register ttl prompt).Waits card id) :
    w.Waits card id ∨ card = prompt.messageId ∧ id = w.prompts.length := by
  obtain ⟨found, hfound, hembedded, hcard, hpending⟩ := h
  change ((w.sweep ttl prompt.registeredAt).prompts ++ [prompt])[id]? = some found at hfound
  rw [List.getElem?_append] at hfound
  split at hfound
  · exact .inl ((eased_sweep w ttl prompt.registeredAt).waits card id
      ⟨found, hfound, hembedded, hcard, hpending⟩)
  · rename_i hge
    have hlt := (List.getElem?_eq_some_iff.mp hfound).1
    rw [List.mem_singleton.mp (List.mem_of_getElem? hfound)] at hcard
    rw [List.length_singleton] at hlt
    rw [length_sweep] at hge hlt
    exact .inr ⟨hcard.symm, by omega⟩

private theorem embeds_register (w : PromptWorld) (ttl : Nat) {prompt : PendingPrompt} (hp : prompt.embedded = true)
    (card : String) : getValue (w.register ttl prompt).embeds card =
      if card = prompt.messageId then some w.prompts.length else getValue w.embeds card := by
  change getValue (if prompt.embedded then assign w.embeds _ (w.sweep ttl _).prompts.length else _) card = _
  rw [hp, if_pos rfl, getValue_assign, length_sweep]

private theorem length_register (w : PromptWorld) (ttl : Nat) (prompt : PendingPrompt) :
    (w.register ttl prompt).prompts.length = w.prompts.length + 1 := by
  change ((w.sweep ttl prompt.registeredAt).prompts ++ [prompt]).length = _
  rw [List.length_append, length_sweep, List.length_singleton]

private theorem eased_messageIds (w : PromptWorld) (m : String) : Eased w { w with messageIds := m :: w.messageIds } :=
  ⟨fun _ _ h => h, fun _ _ _ h => h, Nat.le_refl _, fun _ h => List.mem_cons_of_mem _ h⟩

end PromptWorld

def TurnCall.cardless : TurnCall → Bool
  | .opening _ | .streaming _ (some _) _ => false
  | _ => true

private theorem eased_act {w w' : PromptWorld} {call call' : TurnCall} {input : TurnInput}
    (hcall : call.cardless = true) (h : TurnCall.act w call input = some (w', call')) :
    w.Eased w' ∧ call'.cardless = true := by
  unfold TurnCall.act at h
  split at h
  · cases hcall
  · cases hcall
  · cases hcall
  · cases hcall
  · cases h
    exact ⟨PromptWorld.Eased.refl w, rfl⟩
  · cases h
    exact ⟨PromptWorld.Eased.refl w, rfl⟩
  · split at h <;> cases h
    refine ⟨?_, rfl⟩
    exact ((PromptWorld.eased_sweep w _ _).trans (PromptWorld.eased_index _ rfl)).trans
      (PromptWorld.eased_messageIds _ _)
  · cases h
    exact ⟨PromptWorld.eased_clearPermission w _, hcall⟩
  · rename_i turn card issued
    cases h
    cases card with
    | none =>
      refine ⟨⟨fun _ _ hw => hw, fun m id _ hv => ?_, Nat.le_refl _, fun _ hm => hm⟩, rfl⟩
      simpa using hv
    | some card => cases hcall
  · cases h
    exact ⟨PromptWorld.eased_expirePrompts w _, rfl⟩
  · cases h
    exact ⟨PromptWorld.eased_expirePrompts w _, rfl⟩
  · cases h

def CardTurn.Final (t : CardTurn) : Prop :=
  ∃ p, t.applied.getLast? = some p ∧ p.face = .final t.content

/-- What a turn relies on, by the prompts that wait on its card and the number of all prompts. -/
structure TurnInv (waits : Nat → Prop) (n : Nat) (t : CardTurn) : Prop where
  cardless : ∀ call, t.phase = .plain call → call.cardless = true
  fresh : t.phase = .new ∨ t.phase = .opening ∨ (∃ call, t.phase = .plain call) →
    t.card = none ∧ t.patches = [] ∧ t.applied = [] ∧ t.ticker = .none
  busy : ∀ (k : Nat) p, t.patches[k]? = some p → p.applied = false →
    (∃ d, t.ticker = .patching d k) ∨ t.phase = .embedding k ∨ t.phase = .finishing k
  ticking : ∀ d k, t.ticker = .patching d k → ∃ p, t.patches[k]? = some p ∧ p.face.embeds = none ∧
    (p.applied = false → ∀ id, ¬waits id)
  embedding : ∀ k, t.phase = .embedding k → ∃ p id, t.patches[k]? = some p ∧ p.face.embeds = some id ∧
    (p.applied = false → (∀ id', waits id' → id' = id) ∧
      ∀ q ∈ t.patches, q.applied = true → q.face.embeds ≠ some id)
  stopping : t.phase = .stopped ∨ (∃ k, t.phase = .finishing k) ∨ t.phase = .over →
    t.ticker = .cancelled ∧ ∀ id, ¬waits id
  finishing : ∀ k, t.phase = .finishing k → ∃ p, t.patches[k]? = some p ∧ p.face = .final t.content ∧
    (p.applied = true → t.Final)
  finished : t.phase = .over → t.Final
  alone : ∀ p ∈ t.applied, p.waiting = []
  faces : ∀ p ∈ t.patches, ∀ id, p.face.embeds = some id → id < n

section Turn

variable {waits waits' : Nat → Prop} {n n' k : Nat} {t : CardTurn} {p : CardPatch}

private theorem TurnInv.mono (h : TurnInv waits n t) (hw : ∀ id, waits' id → waits id) (hn : n ≤ n') :
    TurnInv waits' n' t where
  cardless := h.cardless
  fresh := h.fresh
  busy := h.busy
  ticking d k hk := by
    obtain ⟨p, hp, hface, hnone⟩ := h.ticking d k hk
    exact ⟨p, hp, hface, fun ha id hid => hnone ha id (hw id hid)⟩
  embedding k hk := by
    obtain ⟨p, id, hp, hface, honly⟩ := h.embedding k hk
    exact ⟨p, id, hp, hface, fun ha => ⟨fun id' hid' => (honly ha).1 id' (hw id' hid'), (honly ha).2⟩⟩
  stopping hs := ⟨(h.stopping hs).1, fun id hid => (h.stopping hs).2 id (hw id hid)⟩
  finishing := h.finishing
  finished := h.finished
  alone := h.alone
  faces p hp id hid := Nat.lt_of_lt_of_le (h.faces p hp id hid) hn

private theorem turnInv_new (waits : Nat → Prop) (n : Nat) : TurnInv waits n {} where
  cardless _ hc := by cases hc
  fresh _ := ⟨rfl, rfl, rfl, rfl⟩
  busy _ _ hp := by cases hp
  ticking _ _ hk := by cases hk
  embedding _ hk := by cases hk
  stopping hs := by rcases hs with hs | ⟨_, hs⟩ | hs <;> cases hs
  finishing _ hk := by cases hk
  finished ho := by cases ho
  alone _ hp := by cases hp
  faces _ hp := by cases hp

private theorem getElem?_startPatch {face : PatchFace} : (t.startPatch face).patches[k]? = some p ↔
      t.patches[k]? = some p ∨ k = t.patches.length ∧ p = { face := face } := by
  change (t.patches ++ [_])[k]? = some p ↔ _
  rw [List.getElem?_append]
  split
  · rename_i hlt
    exact ⟨.inl, fun h => h.resolve_right fun hk => absurd hlt (hk.1 ▸ Nat.lt_irrefl _)⟩
  · rename_i hge
    have hnone : t.patches[k]? = none := List.getElem?_eq_none (Nat.le_of_not_lt hge)
    rw [hnone, List.getElem?_singleton]
    split
    · rename_i hk
      have hk' : k = t.patches.length := by omega
      simp [hk', eq_comm]
    · rename_i hk
      have hk' : k ≠ t.patches.length := by omega
      simp [hk']

private theorem startPatch_self (t : CardTurn) (face : PatchFace) :
    (t.startPatch face).patches[t.patches.length]? = some { face := face } :=
  getElem?_startPatch.mpr (.inr ⟨rfl, rfl⟩)

private theorem mem_startPatch {face : PatchFace} (h : p ∈ (t.startPatch face).patches) :
    p ∈ t.patches ∨ p = { face := face } :=
  (List.mem_append.mp h).imp_right List.mem_singleton.mp

private theorem TurnInv.tick (h : TurnInv waits n t) {dots : Nat} (hticker : t.ticker = .sleeping dots)
    (hwaits : ∀ id, ¬waits id) :
    TurnInv waits n
      ({ t with ticker := .patching dots t.patches.length }.startPatch (.progress t.content dots)) where
  cardless := h.cardless
  fresh hf := by
    have hnone := (h.fresh hf).2.2.2
    rw [hticker] at hnone
    cases hnone
  busy k p hp ha := by
    rcases getElem?_startPatch.mp hp with hp | ⟨hk, rfl⟩
    · rcases h.busy k p hp ha with ⟨d, hd⟩ | hrest
      · rw [hticker] at hd
        cases hd
      · exact .inr hrest
    · exact .inl ⟨dots, by rw [hk]; rfl⟩
  ticking d k hk := by
    cases hk
    exact ⟨_, startPatch_self _ _, rfl, fun _ => hwaits⟩
  embedding k hk := by
    obtain ⟨p, id, hp, hface, honly⟩ := h.embedding k hk
    refine ⟨p, id, getElem?_startPatch.mpr (.inl hp), hface, fun ha => ⟨(honly ha).1, fun q hq hqa => ?_⟩⟩
    rcases mem_startPatch hq with hq | rfl
    · exact (honly ha).2 q hq hqa
    · cases hqa
  stopping hs := by
    have hcancelled := (h.stopping hs).1
    rw [hticker] at hcancelled
    cases hcancelled
  finishing k hk := by
    have hcancelled := (h.stopping (.inr (.inl ⟨k, hk⟩))).1
    rw [hticker] at hcancelled
    cases hcancelled
  finished := h.finished
  alone := h.alone
  faces p hp id hid := by
    rcases mem_startPatch hp with hp | rfl
    · exact h.faces p hp id hid
    · cases hid

private theorem TurnInv.tickReturn (h : TurnInv waits n t) {dots k : Nat} (hticker : t.ticker = .patching dots k)
    (hback : t.returned k = true) (next : Nat) :
    TurnInv waits n { t with ticker := .sleeping next } where
  cardless := h.cardless
  fresh hf := by
    have hnone := (h.fresh hf).2.2.2
    rw [hticker] at hnone
    cases hnone
  busy j p hp ha := by
    rcases h.busy j p hp ha with ⟨d, hd⟩ | hrest
    · -- the patch of the ticker has been applied
      rw [hticker] at hd
      cases hd
      rw [CardTurn.returned, hp] at hback
      exact absurd hback (by simp [ha])
    · exact .inr hrest
  ticking d j hj := by cases hj
  embedding := h.embedding
  stopping hs := by
    have hcancelled := (h.stopping hs).1
    rw [hticker] at hcancelled
    cases hcancelled
  finishing := h.finishing
  finished := h.finished
  alone := h.alone
  faces := h.faces

private theorem TurnInv.embed (h : TurnInv waits n t)
    (hall : ∀ p ∈ t.patches, p.applied = true) (hwaits : ∀ id, waits' id → id = n) (issued : List Nat) :
    TurnInv waits' (n + 1)
      ({ t with phase := .embedding t.patches.length, issued := issued }.startPatch (.prompt t.content n)) where
  cardless _ hc := by cases hc
  fresh hf := by rcases hf with hf | hf | ⟨_, hf⟩ <;> cases hf
  busy k p hp ha := by
    rcases getElem?_startPatch.mp hp with hp | ⟨hk, rfl⟩
    · exact absurd (hall p (List.mem_of_getElem? hp)) (by simp [ha])
    · exact .inr (.inl (by rw [hk]; rfl))
  ticking d k hk := by
    obtain ⟨p, hp, hface, -⟩ := h.ticking d k hk
    have happlied := hall p (List.mem_of_getElem? hp)
    exact ⟨p, getElem?_startPatch.mpr (.inl hp), hface, fun ha => absurd happlied (by simp [ha])⟩
  embedding k hk := by
    cases hk
    refine ⟨_, n, startPatch_self _ _, rfl, fun _ => ⟨hwaits, fun q hq hqa hid => ?_⟩⟩
    rcases mem_startPatch hq with hq | rfl
    · exact Nat.lt_irrefl n (h.faces q hq n hid)
    · cases hqa
  stopping hs := by rcases hs with hs | ⟨_, hs⟩ | hs <;> cases hs
  finishing _ hk := by cases hk
  finished ho := by cases ho
  alone := h.alone
  faces p hp id hid := by
    rcases mem_startPatch hp with hp | rfl
    · exact Nat.lt_succ_of_lt (h.faces p hp id hid)
    · cases hid
      exact Nat.lt_succ_self n

private theorem TurnInv.busy_returned (h : TurnInv waits n t) (hphase : t.phase = .embedding k ∨ t.phase = .finishing k)
    (hback : t.returned k = true) {j : Nat} (hp : t.patches[j]? = some p) (ha : p.applied = false) :
    ∃ d, t.ticker = .patching d j := by
  refine (h.busy j p hp ha).resolve_right fun hj => ?_
  have hjk : j = k := by
    rcases hphase with hphase | hphase <;> rw [hphase] at hj <;> rcases hj with hj | hj <;> cases hj <;> rfl
  rw [CardTurn.returned, ← hjk, hp] at hback
  exact absurd hback (by simp [ha])

private theorem TurnInv.embedReturn (h : TurnInv waits n t) (hphase : t.phase = .embedding k)
    (hback : t.returned k = true) : TurnInv waits n { t with phase := .streaming } where
  cardless _ hc := by cases hc
  fresh hf := by rcases hf with hf | hf | ⟨_, hf⟩ <;> cases hf
  busy _ _ hp ha := .inl (h.busy_returned (.inl hphase) hback hp ha)
  ticking := h.ticking
  embedding _ hk := by cases hk
  stopping hs := by rcases hs with hs | ⟨_, hs⟩ | hs <;> cases hs
  finishing _ hk := by cases hk
  finished ho := by cases ho
  alone := h.alone
  faces := h.faces

private theorem TurnInv.finish (h : TurnInv waits n t) (hall : ∀ p ∈ t.patches, p.applied = true)
    (hwaits : ∀ id, ¬waits id) : TurnInv waits n { t with phase := .stopped, ticker := .cancelled } where
  cardless _ hc := by cases hc
  fresh hf := by rcases hf with hf | hf | ⟨_, hf⟩ <;> cases hf
  busy k p hp ha := absurd (hall p (List.mem_of_getElem? hp)) (by simp [ha])
  ticking _ _ hk := by cases hk
  embedding _ hk := by cases hk
  stopping _ := ⟨rfl, hwaits⟩
  finishing _ hk := by cases hk
  finished ho := by cases ho
  alone := h.alone
  faces := h.faces

private theorem TurnInv.final (h : TurnInv waits n t) (hphase : t.phase = .stopped) : TurnInv waits n
      ({ t with phase := .finishing t.patches.length }.startPatch (.final t.content)) where
  cardless _ hc := by cases hc
  fresh hf := by rcases hf with hf | hf | ⟨_, hf⟩ <;> cases hf
  busy k p hp ha := by
    rcases getElem?_startPatch.mp hp with hp | ⟨hk, rfl⟩
    · rcases h.busy k p hp ha with ⟨d, hd⟩ | hembedding | hfinishing
      · exact .inl ⟨d, hd⟩
      · rw [hphase] at hembedding
        cases hembedding
      · rw [hphase] at hfinishing
        cases hfinishing
    · exact .inr (.inr (by rw [hk]; rfl))
  ticking d k hk := by
    have hcancelled := (h.stopping (.inl hphase)).1
    have hpatching : t.ticker = .patching d k := hk
    rw [hpatching] at hcancelled
    cases hcancelled
  embedding _ hk := by cases hk
  stopping _ := h.stopping (.inl hphase)
  finishing k hk := by
    cases hk
    exact ⟨_, startPatch_self _ _, rfl, fun ha => by cases ha⟩
  finished ho := by cases ho
  alone := h.alone
  faces p hp id hid := by
    rcases mem_startPatch hp with hp | rfl
    · exact h.faces p hp id hid
    · cases hid

private theorem TurnInv.finalReturn (h : TurnInv waits n t) (hphase : t.phase = .finishing k)
    (hback : t.returned k = true) : TurnInv waits n { t with phase := .over } where
  cardless _ hc := by cases hc
  fresh hf := by rcases hf with hf | hf | ⟨_, hf⟩ <;> cases hf
  busy _ _ hp ha := .inl (h.busy_returned (.inr hphase) hback hp ha)
  ticking := h.ticking
  embedding _ hk := by cases hk
  stopping _ := h.stopping (.inr (.inl ⟨k, hphase⟩))
  finishing _ hk := by cases hk
  finished _ := by
    obtain ⟨p, hp, -, hfinal⟩ := h.finishing k hphase
    rw [CardTurn.returned, hp] at hback
    exact hfinal hback
  alone := h.alone
  faces := h.faces

private theorem TurnInv.receive (h : TurnInv waits n t) (hphase : t.phase = .streaming) (content : Nat) :
    TurnInv waits n { t with content := content } where
  cardless := h.cardless
  fresh := h.fresh
  busy := h.busy
  ticking := h.ticking
  embedding := h.embedding
  stopping := h.stopping
  finishing k hk := by
    have hfinishing : t.phase = .finishing k := hk
    rw [hphase] at hfinishing
    cases hfinishing
  finished ho := by
    have hover : t.phase = .over := ho
    rw [hphase] at hover
    cases hover
  alone := h.alone
  faces := h.faces

private theorem TurnInv.unwiped (h : TurnInv waits n t) (hp : t.patches[k]? = some p)
    (ha : p.applied = false) (hid : waits id) : t.shows id = false := by
  rcases h.busy k p hp ha with ⟨d, hticker⟩ | hembedding | hfinishing
  · obtain ⟨p', hp', -, hnone⟩ := h.ticking d k hticker
    obtain rfl := Option.some.inj (hp.symm.trans hp')
    exact absurd hid (hnone ha id)
  · obtain ⟨p', id', hp', -, honly⟩ := h.embedding k hembedding
    obtain rfl := Option.some.inj (hp.symm.trans hp')
    obtain ⟨hwaits, hunshown⟩ := honly ha
    rw [hwaits id hid]
    refine List.any_eq_false.mpr fun q hq hboth => ?_
    rw [Bool.and_eq_true, decide_eq_true_eq] at hboth
    exact hunshown q hq hboth.1 hboth.2
  · exact absurd hid ((h.stopping (.inr (.inl ⟨k, hfinishing⟩))).2 id)

private theorem TurnInv.apply (h : TurnInv waits n t) (hp : t.patches[k]? = some p)
    (ha : p.applied = false) : TurnInv waits n
      { t with
        patches := t.patches.set k { p with applied := true }
        applied := t.applied ++ [{ face := p.face, waiting := [] }] } := by
  have hlt := (List.getElem?_eq_some_iff.mp hp).1
  have hself : (t.patches.set k { p with applied := true })[k]? = some { p with applied := true } :=
    List.getElem?_set_self hlt
  have hother : ∀ j, j ≠ k → (t.patches.set k { p with applied := true })[j]? = t.patches[j]? :=
    fun j hj => List.getElem?_set_ne (Ne.symm hj)
  -- a turn that is being finished has no other patch on its way
  have hlate : ∀ j, j ≠ k → t.phase ≠ .finishing j := by
    intro j hj hphase
    rcases h.busy k p hp ha with ⟨d, hticker⟩ | hembedding | hfinishing
    · rw [(h.stopping (.inr (.inl ⟨j, hphase⟩))).1] at hticker
      cases hticker
    · rw [hphase] at hembedding
      cases hembedding
    · rw [hphase] at hfinishing
      cases hfinishing
      exact hj rfl
  exact
    { cardless := h.cardless
      fresh := fun hf => by
        rw [(h.fresh hf).2.1] at hp
        cases hp
      busy := fun j q hq hqa => by
        by_cases hj : j = k
        · subst hj
          obtain rfl := Option.some.inj (hself.symm.trans hq)
          cases hqa
        · exact h.busy j q ((hother j hj).symm.trans hq) hqa
      ticking := fun d j hj => by
        obtain ⟨q, hq, hface, hnone⟩ := h.ticking d j hj
        grind
      embedding := fun j hj => by
        obtain ⟨q, id, hq, hface, honly⟩ := h.embedding j hj
        by_cases hjk : j = k
        · grind
        · refine ⟨q, id, (hother j hjk).trans hq, hface, fun hqa => ⟨(honly hqa).1, fun r hr hra => ?_⟩⟩
          rcases List.mem_or_eq_of_mem_set hr with hr | rfl
          · exact (honly hqa).2 r hr hra
          · -- the patch that is applied is one of the ticker
            rcases h.busy k p hp ha with ⟨d, hticker⟩ | hembedding | hfinishing
            · obtain ⟨p', hp', hprogress, -⟩ := h.ticking d k hticker
              grind
            · rw [hj] at hembedding
              cases hembedding
              exact absurd rfl hjk
            · rw [hj] at hfinishing
              cases hfinishing
      stopping := h.stopping
      finishing := fun j hj => by
        by_cases hjk : j = k
        · subst hjk
          obtain ⟨q, hq, hface, -⟩ := h.finishing j hj
          obtain rfl := Option.some.inj (hp.symm.trans hq)
          exact ⟨_, hself, hface, fun _ => ⟨_, List.getLast?_concat, hface⟩⟩
        · exact absurd hj (hlate j hjk)
      finished := fun ho => by
        rcases h.busy k p hp ha with ⟨d, hticker⟩ | hembedding | hfinishing
        · rw [(h.stopping (.inr (.inr ho))).1] at hticker
          cases hticker
        · have hover : t.phase = .over := ho
          rw [hover] at hembedding
          cases hembedding
        · have hover : t.phase = .over := ho
          rw [hover] at hfinishing
          cases hfinishing
      alone := fun q hq => by
        rcases List.mem_append.mp hq with hq | hq
        · exact h.alone q hq
        · rw [List.mem_singleton.mp hq]
      faces := fun q hq id hid => by
        rcases List.mem_or_eq_of_mem_set hq with hq | rfl
        · exact h.faces q hq id hid
        · exact h.faces p (List.mem_of_getElem? hp) id hid }

end Turn

namespace CardSystem

def Waiting (s : CardSystem) (c id : Nat) : Prop :=
  ∃ card, (s.turns c).card = some card ∧ s.world.Waits card id ∧ id ∉ s.answered

structure Inv (s : CardSystem) : Prop where
  turns : ∀ c, TurnInv (s.Waiting c) s.world.prompts.length (s.turns c)
  cards : ∀ c card, (s.turns c).card = some card → card ∈ s.world.messageIds
  apart : ∀ c c' card, (s.turns c).card = some card → (s.turns c').card = some card → c = c'
  embeds : ∀ card id, s.world.Waits card id → id ∉ s.answered → getValue s.world.embeds card = some id

variable {s : CardSystem} {c : Nat} {t : CardTurn} {world : PromptWorld}

private theorem mem_waitingOn : id ∈ s.waitingOn c ↔ s.Waiting c id := by
  unfold waitingOn Waiting
  cases hcard : (s.turns c).card with
  | none => simp
  | some card =>
    simp only [Option.elim_some, waiting, List.mem_filter, List.mem_range, decide_eq_true_eq,
      Option.any_eq_true, Bool.and_eq_true, Option.some.injEq, exists_eq_left', PromptWorld.Waits]
    grind

private theorem setTurn_turns (s : CardSystem) (c c' : Nat) (t : CardTurn) :
    (s.setTurn c t).turns c' = if c' = c then t else s.turns c' :=
  Function.update_apply s.turns c t c'

private theorem Inv.ease (h : s.Inv) (hw : s.world.Eased world) : ({ s with world := world } : CardSystem).Inv where
  turns c := (h.turns c).mono
    (fun id => fun ⟨card, hcard, hwaits, hid⟩ => ⟨card, hcard, hw.waits card id hwaits, hid⟩) hw.length
  cards c card hcard := hw.messageIds card (h.cards c card hcard)
  apart := h.apart
  embeds card id hwaits hid := hw.embeds card id hwaits (h.embeds card id (hw.waits card id hwaits) hid)

private theorem Inv.setTurn (h : s.Inv) (hcard : t.card = (s.turns c).card)
    (ht : TurnInv (s.Waiting c) s.world.prompts.length t) : (s.setTurn c t).Inv := by
  have hcards : ∀ c', ((s.setTurn c t).turns c').card = (s.turns c').card := by
    intro c'
    rw [setTurn_turns]
    split
    · rename_i hc
      rw [hc, hcard]
    · rfl
  have hwaiting : ∀ c' id, (s.setTurn c t).Waiting c' id ↔ s.Waiting c' id := by
    intro c' id
    unfold Waiting
    rw [hcards]
    exact Iff.rfl
  refine ⟨fun c' => ?_, fun c' card hc' => ?_, fun c₁ c₂ card h₁ h₂ => ?_, h.embeds⟩
  · refine TurnInv.mono ?_ (fun id => (hwaiting c' id).mp) (Nat.le_refl _)
    rw [setTurn_turns]
    split
    · rename_i hc
      rw [hc]
      exact ht
    · exact h.turns c'
  · rw [hcards] at hc'
    exact h.cards c' card hc'
  · rw [hcards] at h₁ h₂
    exact h.apart c₁ c₂ card h₁ h₂

private theorem Inv.move (h : s.Inv) (hwaits : ∀ card id, world.Waits card id → s.world.Waits card id)
    (hlength : s.world.prompts.length ≤ world.prompts.length)
    (hids : ∀ m ∈ s.world.messageIds, m ∈ world.messageIds)
    (hembeds : ∀ card id, world.Waits card id → id ∉ s.answered → getValue world.embeds card = some id) :
    ({ s with world := world } : CardSystem).Inv where
  turns c := (h.turns c).mono
    (fun id => fun ⟨card, hcard, hw, hid⟩ => ⟨card, hcard, hwaits card id hw, hid⟩) hlength
  cards c card hcard := hids card (h.cards c card hcard)
  apart := h.apart
  embeds := hembeds

private theorem Inv.card (h : s.Inv) (hphase : (s.turns c).phase = .opening) {messageId : String}
    (hnew : messageId ∉ s.world.messageIds) :
    (CardSystem.setTurn { s with world := { s.world with messageIds := messageId :: s.world.messageIds } } c
      { s.turns c with phase := .streaming, card := some messageId, ticker := .sleeping 1 }).Inv := by
  obtain ⟨-, hpatches, happlied, -⟩ := (h.turns c).fresh (.inr (.inl hphase))
  have hself : ∀ waits n, TurnInv waits n
      { s.turns c with phase := .streaming, card := some messageId, ticker := .sleeping 1 } := by
    intro waits n
    exact
      { cardless := fun _ hc => by cases hc
        fresh := fun hf => by rcases hf with hf | hf | ⟨_, hf⟩ <;> cases hf
        busy := fun k p hp => by
          rw [hpatches] at hp
          cases hp
        ticking := fun _ _ hk => by cases hk
        embedding := fun _ hk => by cases hk
        stopping := fun hs => by rcases hs with hs | ⟨_, hs⟩ | hs <;> cases hs
        finishing := fun _ hk => by cases hk
        finished := fun ho => by cases ho
        alone := fun p hp => by
          rw [happlied] at hp
          cases hp
        faces := fun p hp => by
          rw [hpatches] at hp
          cases hp }
  refine ⟨fun c' => ?_, fun c' card hcard => ?_, fun c₁ c₂ card h₁ h₂ => ?_, h.embeds⟩
  · rw [setTurn_turns]
    split
    · exact hself _ _
    · rename_i hc
      refine (h.turns c').mono (fun id hid => ?_) (Nat.le_refl _)
      obtain ⟨card, hcard, hrest⟩ := hid
      rw [setTurn_turns, if_neg hc] at hcard
      exact ⟨card, hcard, hrest⟩
  · rw [setTurn_turns] at hcard
    split at hcard
    · cases hcard
      exact List.mem_cons_self
    · exact List.mem_cons_of_mem _ (h.cards c' card hcard)
  · rw [setTurn_turns] at h₁ h₂
    split at h₁ <;> split at h₂
    · rename_i hc₁ hc₂
      rw [hc₁, hc₂]
    · cases h₁
      exact absurd (h.cards c₂ _ h₂) hnew
    · cases h₂
      exact absurd (h.cards c₁ _ h₁) hnew
    · exact h.apart c₁ c₂ card h₁ h₂

private theorem Inv.embed (h : s.Inv) {card : String} (hcard : (s.turns c).card = some card)
    (hnone : ∀ id, ¬s.Waiting c id) (hall : ∀ p ∈ (s.turns c).patches, p.applied = true)
    {prompt : PendingPrompt} (hembedded : prompt.embedded = true) (hmessage : prompt.messageId = card)
    (issued : List Nat) :
    (CardSystem.setTurn { s with world := s.world.register promptTtl prompt } c
      ({ s.turns c with phase := .embedding (s.turns c).patches.length, issued := issued }.startPatch
        (.prompt (s.turns c).content s.world.prompts.length))).Inv := by
  have hwaits : ∀ m id, (s.world.register promptTtl prompt).Waits m id → id ∉ s.answered →
      m ≠ card ∧ s.world.Waits m id ∨ m = card ∧ id = s.world.prompts.length := by
    intro m id hw hid
    rcases PromptWorld.waits_register s.world promptTtl prompt hw with hw | ⟨hm, hlast⟩
    · refine .inl ⟨?_, hw⟩
      rintro rfl
      exact hnone id ⟨m, hcard, hw, hid⟩
    · exact .inr ⟨hm.trans hmessage, hlast⟩
  have hcards : ∀ c', (((CardSystem.setTurn { s with world := s.world.register promptTtl prompt } c
      ({ s.turns c with phase := .embedding (s.turns c).patches.length, issued := issued }.startPatch
        (.prompt (s.turns c).content s.world.prompts.length))).turns c').card = (s.turns c').card) := by
    intro c'
    rw [setTurn_turns]
    split
    · rename_i hc
      rw [hc]
      rfl
    · rfl
  refine ⟨fun c' => ?_, fun c' m hm => ?_, fun c₁ c₂ m h₁ h₂ => ?_, fun m id hw hid => ?_⟩
  · unfold Waiting
    simp only [hcards]
    change TurnInv _ (s.world.register promptTtl prompt).prompts.length _
    rw [setTurn_turns, PromptWorld.length_register]
    split
    · rename_i hc
      refine (h.turns c).embed hall ?_ issued
      rintro id ⟨m, hm, hw, hid⟩
      rw [hc, hcard] at hm
      rcases hwaits m id hw hid with ⟨hne, -⟩ | ⟨-, hlast⟩
      · exact absurd (Option.some.inj hm).symm hne
      · exact hlast
    · rename_i hc
      refine (h.turns c').mono ?_ (Nat.le_succ _)
      rintro id ⟨m, hm, hw, hid⟩
      rcases hwaits m id hw hid with ⟨-, hw⟩ | ⟨rfl, -⟩
      · exact ⟨m, hm, hw, hid⟩
      · exact absurd (h.apart c' c m hm hcard) hc
  · rw [hcards] at hm
    exact h.cards c' m hm
  · rw [hcards] at h₁ h₂
    exact h.apart c₁ c₂ m h₁ h₂
  · change getValue (s.world.register promptTtl prompt).embeds m = some id
    rw [PromptWorld.embeds_register s.world promptTtl hembedded, hmessage]
    rcases hwaits m id hw hid with ⟨hne, hw⟩ | ⟨hm, hlast⟩
    · rw [if_neg hne]
      exact h.embeds m id hw hid
    · rw [if_pos hm, hlast]

private theorem none_waiting (h : s.waitingOn c = []) (id : Nat) : ¬s.Waiting c id := by
  intro hid
  have hmem := mem_waitingOn.mpr hid
  rw [h] at hmem
  cases hmem

private theorem Inv.frame (h : s.Inv) {f : CardFrame} (hc : s.Careful (.frame c f)) {card : String}
    (hphase : (s.turns c).phase = .streaming) (hcard : (s.turns c).card = some card) {s' : CardSystem}
    (hs : s.frame c card f = some s') : s'.Inv := by
  cases f with
  | permissionRequest request now =>
    simp only [CardSystem.frame] at hs
    split at hs <;> cases hs
    simp only [Careful, Bool.and_eq_true, decide_eq_true_eq, List.all_eq_true] at hc
    exact h.embed hcard (none_waiting hc.1) hc.2 rfl rfl _
  | permissionTimeout requestId =>
    cases hs
    exact h.ease (PromptWorld.eased_clearPermission s.world requestId)
  | idle =>
    cases hs
    exact h
  | content =>
    cases hs
    have hnone := none_waiting (of_decide_eq_true hc)
    have hworld : ({ s with world := { s.world with embeds := s.world.embeds.filter (·.1 ≠ card) } } :
        CardSystem).Inv := by
      refine h.move (fun _ _ hw => hw) (Nat.le_refl _) (fun _ hm => hm) fun m id hw hid => ?_
      change getValue (s.world.embeds.filter (·.1 ≠ card)) m = some id
      rw [getValue_filter_ne, if_neg]
      · exact h.embeds m id hw hid
      · rintro rfl
        exact hnone id ⟨m, hcard, hw, hid⟩
    exact hworld.setTurn rfl ((hworld.turns c).receive hphase _)

private theorem Inv.step (h : s.Inv) {e : CardEvent} (hc : s.Careful e) {s' : CardSystem}
    (hs : s.step e = some s') : s'.Inv := by
  cases e with
  | start c turn =>
    simp only [CardSystem.step] at hs
    split at hs <;> cases hs
    rename_i hphase
    obtain ⟨hcard, -⟩ := (h.turns c).fresh (.inl hphase)
    refine h.setTurn hcard.symm ?_
    have hnew := turnInv_new (s.Waiting c) s.world.prompts.length
    exact
      { hnew with
        cardless := fun _ hc => by cases hc
        fresh := fun _ => ⟨rfl, rfl, rfl, rfl⟩
        stopping := fun hs => by rcases hs with hs | ⟨_, hs⟩ | hs <;> cases hs
        finishing := fun _ hk => by cases hk
        finished := fun ho => by cases ho
        embedding := fun _ hk => by cases hk
        busy := fun _ _ hp => by cases hp }
  | card c messageId =>
    simp only [CardSystem.step] at hs
    split at hs
    · rename_i hphase
      cases hs
      obtain ⟨hcard, hpatches, happlied, hticker⟩ := (h.turns c).fresh (.inr (.inl hphase))
      refine h.setTurn rfl ?_
      exact
        { cardless := fun call hcall => by
            cases hcall
            rfl
          fresh := fun _ => ⟨hcard, hpatches, happlied, hticker⟩
          busy := fun k p hp => by
            rw [hpatches] at hp
            cases hp
          ticking := (h.turns c).ticking
          embedding := fun _ hk => by cases hk
          stopping := fun hs => by rcases hs with hs | ⟨_, hs⟩ | hs <;> cases hs
          finishing := fun _ hk => by cases hk
          finished := fun ho => by cases ho
          alone := (h.turns c).alone
          faces := (h.turns c).faces }
    · rename_i messageId hphase
      split at hs <;> cases hs
      rename_i hnew
      simp only [TurnCall.newMessage, Bool.and_eq_true, Bool.not_eq_true'] at hnew
      refine h.card hphase fun hmem => ?_
      have hcontains := List.contains_iff_mem.mpr hmem
      rw [hnew.2] at hcontains
      cases hcontains
    · cases hs
  | tick c =>
    simp only [CardSystem.step] at hs
    split at hs
    · rename_i dots card hticker hcard
      split at hs
      · cases hs
        exact h
      · rename_i hpending
        cases hs
        refine h.setTurn rfl ((h.turns c).tick hticker ?_)
        rintro id ⟨m, hm, hw, hid⟩
        rw [hcard] at hm
        cases hm
        rw [h.embeds _ id hw hid] at hpending
        cases hpending
    · cases hs
  | tickReturn c =>
    simp only [CardSystem.step] at hs
    split at hs
    · rename_i dots patch hticker
      split at hs <;> cases hs
      rename_i hback
      exact h.setTurn rfl ((h.turns c).tickReturn hticker hback _)
    · cases hs
  | frame c f =>
    simp only [CardSystem.step] at hs
    split at hs
    · rename_i card hphase hcard
      exact h.frame hc hphase hcard hs
    · cases hs
  | embedReturn c =>
    simp only [CardSystem.step] at hs
    split at hs
    · rename_i patch hphase
      split at hs <;> cases hs
      rename_i hback
      exact h.setTurn rfl ((h.turns c).embedReturn hphase hback)
    · cases hs
  | finish c =>
    simp only [CardSystem.step] at hs
    split at hs <;> cases hs
    simp only [Careful, Bool.and_eq_true, decide_eq_true_eq, List.all_eq_true] at hc
    exact h.setTurn rfl ((h.turns c).finish hc.2 (none_waiting hc.1))
  | final c =>
    simp only [CardSystem.step] at hs
    split at hs <;> cases hs
    rename_i hphase
    exact h.setTurn rfl ((h.turns c).final hphase)
  | finalReturn c =>
    simp only [CardSystem.step] at hs
    split at hs
    · rename_i patch hphase
      split at hs <;> cases hs
      rename_i hback
      have hworld := h.ease (PromptWorld.eased_expirePrompts s.world (s.turns c).issued)
      exact hworld.setTurn rfl ((hworld.turns c).finalReturn hphase hback)
    · cases hs
  | apply c patch =>
    simp only [CardSystem.step] at hs
    split at hs
    · rename_i p hp
      split at hs <;> cases hs
      rename_i ha
      have happlied : p.applied = false := Bool.eq_false_iff.mpr ha
      have hunwiped : (s.waitingOn c).filter (s.turns c).shows = [] := by
        refine List.filter_eq_nil_iff.mpr fun id hid => ?_
        rw [(h.turns c).unwiped hp happlied (mem_waitingOn.mp hid)]
        exact Bool.false_ne_true
      rw [hunwiped]
      exact h.setTurn rfl ((h.turns c).apply hp happlied)
    · cases hs
  | plain c input =>
    simp only [CardSystem.step] at hs
    split at hs
    · rename_i call hphase
      obtain ⟨⟨world, call'⟩, hact, rfl⟩ := Option.map_eq_some_iff.mp hs
      obtain ⟨hw, hcardless⟩ := eased_act ((h.turns c).cardless call hphase) hact
      have hworld := h.ease hw
      obtain ⟨hcard, hpatches, happlied, hticker⟩ := (h.turns c).fresh (.inr (.inr ⟨call, hphase⟩))
      refine hworld.setTurn rfl ?_
      exact
        { cardless := fun call hcall => by
            cases hcall
            exact hcardless
          fresh := fun _ => ⟨hcard, hpatches, happlied, hticker⟩
          busy := fun k p hp => by
            rw [show (s.turns c).patches = [] from hpatches] at hp
            cases hp
          ticking := (hworld.turns c).ticking
          embedding := fun _ hk => by cases hk
          stopping := fun hs => by rcases hs with hs | ⟨_, hs⟩ | hs <;> cases hs
          finishing := fun _ hk => by cases hk
          finished := fun ho => by cases ho
          alone := (hworld.turns c).alone
          faces := (hworld.turns c).faces }
    · cases hs
  | tap tap =>
    cases hs
    exact h.ease (PromptWorld.eased_handle s.world tap)
  | respond id =>
    cases hs
    refine ⟨fun c => (h.turns c).mono ?_ (Nat.le_refl _), h.cards, h.apart, fun card k hw hk => ?_⟩
    · rintro k ⟨card, hcard, hw, hk⟩
      exact ⟨card, hcard, hw, fun hmem => hk (List.mem_cons_of_mem _ hmem)⟩
    · exact h.embeds card k hw fun hmem => hk (List.mem_cons_of_mem _ hmem)

private theorem inv_init : ({} : CardSystem).Inv where
  turns _ := turnInv_new _ _
  cards _ _ hcard := by cases hcard
  apart _ _ _ hcard := by cases hcard
  embeds _ _ hw := by
    obtain ⟨_, hprompt, -⟩ := hw
    cases hprompt

/-- The cards are right after every run of turns, patches, taps and answers that meets the condition. -/
theorem cardsRight_of_careful (es : List CardEvent) (s : CardSystem) (hc : RunMeets step Careful {} es)
    (hr : run step {} es = some s) : s.CardsRight := by
  have hinv : s.Inv := run_invariant (fun _ _ _ hi hcond hs => hi.step hcond hs) inv_init hc hr
  exact ⟨fun c => (hinv.turns c).finished, fun c => (hinv.turns c).alone⟩

def sampleRequest : PermissionRequest := { requestId := "r" }

/-- A prompt is answered by a tap, and the ticker goes on until the run returns. -/
def orderlyCard : List CardEvent :=
  [.start 0 ⟨"acc", "ou_1"⟩, .card 0 (some "m"), .tick 0, .apply 0 0, .tickReturn 0, .frame 0 .content,
    .frame 0 (.permissionRequest sampleRequest 0), .tick 0, .apply 0 1, .embedReturn 0, .tick 0,
    .tap { messageId := "m", openId := "ou_1", act := some .skip, person := "ou_1", shown := 0 },
    .tick 0, .frame 0 .content, .apply 0 2, .tickReturn 0, .finish 0, .final 0, .apply 0 3, .finalReturn 0]

theorem cardsRight_orderlyCard : ∃ s, run step {} orderlyCard = some s ∧ (s.turns 0).phase = .over ∧
    s.CardsRight := by
  obtain ⟨s, hr, ht⟩ := exists_run_of_map step {} orderlyCard (fun s => (s.turns 0).phase = .over)
    (by decide)
  exact ⟨s, hr, of_decide_eq_true ht, cardsRight_of_careful orderlyCard s (by decide) hr⟩

/-- The run returns while a patch of the ticker is on its way. -/
def lateTick : List CardEvent :=
  [.start 0 ⟨"acc", "ou_1"⟩, .card 0 (some "m"), .tick 0, .finish 0, .final 0, .apply 0 1, .finalReturn 0,
    .apply 0 0]

/-- The last patch of a finished turn shows the running card. -/
theorem not_cardsRight_lateTick : ∃ s, run step {} lateTick = some s ∧ ¬s.CardsRight := by
  obtain ⟨s, hr, ht⟩ := exists_run_of_map step {} lateTick
    (fun s => (s.turns 0).phase = .over ∧ (s.turns 0).applied.getLast? = some ⟨.progress 0 1, []⟩)
    (by decide)
  obtain ⟨hover, hlast⟩ := of_decide_eq_true ht
  refine ⟨s, hr, fun h => ?_⟩
  obtain ⟨p, hp, hface⟩ := h.final 0 hover
  rw [hlast] at hp
  cases hp
  cases hface

end CardSystem

end PrivaCloud.ChannelConnector
