import PrivaCloud.DataSpine.ChannelConfig

/-!
# The digest of a channel row

A row whose digest is stale is one that a recomputation has still to rewrite. This holds along every
run in which a digest is written from values that are still current, or before a recomputation lists
the rows.
-/

namespace PrivaCloud.DataSpine

open Framework

/-- `desired_digest` is the digest of the row under the current switch. -/
def Described (s : ChannelStore) (row : FeishuRow) : Prop :=
  row.desiredDigest = some (digest row.digestCols s.groupGloballyDisabled)

instance (s : ChannelStore) (row : FeishuRow) : Decidable (Described s row) :=
  inferInstanceAs (Decidable (_ = _))

def Idle (s : Processes ChannelStore ChannelCall) : Prop := ∀ call ∈ s.procs, call = .ended

instance (s : Processes ChannelStore ChannelCall) : Decidable (Idle s) :=
  inferInstanceAs (Decidable (∀ call ∈ s.procs, _))

/-- A recomputation has still to list the rows, and will do so under the current switch. -/
def StillToList (s : Processes ChannelStore ChannelCall) : Prop :=
  ∃ call ∈ s.procs, call = .recomputing ∨ call = .listing s.shared.groupGloballyDisabled

instance (s : Processes ChannelStore ChannelCall) : Decidable (StillToList s) :=
  inferInstanceAs (Decidable (∃ call ∈ s.procs, _))

/-- A call that writes a digest finds the switch and the columns of the digest, those that it writes
itself apart, as it has read them. -/
def Current (s : ChannelStore) : ChannelCall → Prop
  | .upserting accountId fields merged groupDisabled =>
    merged.digestCols = (fields.over (s.current accountId)).digestCols ∧ groupDisabled = s.groupGloballyDisabled
  | .rewriting groupDisabled (row :: _) =>
    digest row.digestCols groupDisabled ≠ row.desiredDigest.getD "" →
      row.digestCols = (s.current row.accountId).digestCols ∧ groupDisabled = s.groupGloballyDisabled
  | _ => True

instance (s : ChannelStore) : (call : ChannelCall) → Decidable (Current s call)
  | .upserting .. => inferInstanceAs (Decidable (_ ∧ _))
  | .rewriting _ (_ :: _) => inferInstanceAs (Decidable (_ → _))
  | .rewriting _ [] | .checking .. | .writeDesired .. | .merging .. | .setting .. | .recomputing
  | .listing _ | .ended => .isTrue trivial

def Careful (s : Processes ChannelStore ChannelCall) : ProcessEvent ChannelRequest Nat Empty → Prop
  | .advance i _ => ∀ call ∈ s.procs[i]?, Current s.shared call ∨ StillToList s
  | _ => True

instance (s : Processes ChannelStore ChannelCall) (event : ProcessEvent ChannelRequest Nat Empty) :
    Decidable (Careful s event) :=
  match event with
  | .advance i _ => inferInstanceAs (Decidable (∀ call ∈ s.procs[i]?, _))
  | .spawn _ => .isTrue trivial
  | .outside event => nomatch event

variable {row : FeishuRow}

namespace ChannelStore

variable {s s' : ChannelStore} {accountId : String} {fields : FeishuFields}

@[simp] theorem current_accountId : (s.current accountId).accountId = accountId := by
  unfold current feishuGet
  cases h : s.rows.find? accountId with
  | none => rfl
  | some row => exact Table.key_of_find? h

theorem mem_feishuUpsert (h : s.feishuUpsert accountId fields = some s') :
    row ∈ s'.rows.rows ↔ row = fields.over (s.current accountId) ∨
      row ∈ s.rows.rows ∧ row.accountId ≠ accountId := by
  unfold feishuUpsert at h
  split at h <;> cases h
  have hkey : (fields.over (s.current accountId)).accountId = accountId := current_accountId
  rw [Table.mem_upsert, hkey]

theorem feishuUpsert_platform (h : s.feishuUpsert accountId fields = some s') :
    s'.groupGloballyDisabled = s.groupGloballyDisabled := by
  unfold feishuUpsert at h
  split at h <;> cases h
  rfl

theorem feishuUpsert_keeps (h : s.feishuUpsert accountId fields = some s')
    (hrow : row ∈ s.rows.rows) : ∃ row' ∈ s'.rows.rows, row'.accountId = row.accountId := by
  by_cases he : row.accountId = accountId
  · have hkey : (fields.over (s.current accountId)).accountId = accountId := current_accountId
    exact ⟨_, (mem_feishuUpsert h).mpr (.inl rfl), hkey.trans he.symm⟩
  · exact ⟨row, (mem_feishuUpsert h).mpr (.inr ⟨hrow, he⟩), rfl⟩

theorem mem_feishuList : row ∈ s.feishuList ↔ row ∈ s.rows.rows :=
  List.mem_insertionSort _

theorem feishuUpsert_digest (h : ∃ row ∈ s.rows.rows, row.accountId = accountId) (fresh : String) :
    ∃ s', s.feishuUpsert accountId { desiredDigest := some fresh } = some s' := by
  obtain ⟨row, hrow, rfl⟩ := h
  have hthere : (s.feishuGet row.accountId).isSome := by
    unfold feishuGet
    rw [Table.find?_of_mem hrow]
    rfl
  have hok : admissible { desiredDigest := some fresh } := rfl
  exact ⟨_, if_pos ⟨hok, .inl hthere⟩⟩

end ChannelStore

/-- The call will bring the digest of the row up to date. -/
def Covers (s : ChannelStore) (row : FeishuRow) : ChannelCall → Prop
  | .recomputing => True
  | .listing groupDisabled => groupDisabled = s.groupGloballyDisabled
  | .rewriting groupDisabled rest => groupDisabled = s.groupGloballyDisabled ∧ row ∈ rest
  | _ => False

def Tracked (s : Processes ChannelStore ChannelCall) : Prop :=
  ∀ row ∈ s.shared.rows.rows, Described s.shared row ∨ ∃ call ∈ s.procs, Covers s.shared row call

section Steps

variable {s : Processes ChannelStore ChannelCall} {i : Nat}

variable {call call' : ChannelCall} {fields : FeishuFields} {accountId : String}

theorem Tracked.move (h : Tracked s) (hi : s.procs[i]? = some call)
    (hkeep : ∀ row ∈ s.shared.rows.rows, Covers s.shared row call →
      Described s.shared row ∨ Covers s.shared row call') :
    Tracked ⟨s.shared, s.procs.set i call'⟩ := by
  intro row hrow
  rcases h row hrow with hd | ⟨other, hm, hc⟩
  · exact .inl hd
  · by_cases he : other = call
    · subst he
      rcases hkeep row hrow hc with hd | hc'
      · exact .inl hd
      · exact .inr ⟨call', Program.self_mem_set hi, hc'⟩
    · exact .inr ⟨other, Program.mem_set_of_ne hi hm he, hc⟩

theorem Tracked.write (h : Tracked s) (hi : s.procs[i]? = some call)
    {s' : ChannelStore} (hw : s.shared.feishuUpsert accountId fields = some s')
    (hnew : Described s.shared (fields.over (s.shared.current accountId)) ∨ StillToList s)
    (hlists : ¬ (call = .recomputing ∨ ∃ groupDisabled, call = .listing groupDisabled))
    (hkeep : ∀ row ∈ s.shared.rows.rows, row.accountId ≠ accountId → Covers s.shared row call →
      Covers s.shared row call') :
    Tracked ⟨s', s.procs.set i call'⟩ := by
  have hswitch := ChannelStore.feishuUpsert_platform hw
  have hsame (row : FeishuRow) : Covers s' row = Covers s.shared row := by
    funext other
    unfold Covers
    rw [hswitch]
  have hdesc (row : FeishuRow) : Described s' row = Described s.shared row := by
    unfold Described
    rw [hswitch]
  intro row hrow
  simp only [hdesc, hsame]
  rcases (ChannelStore.mem_feishuUpsert hw).mp hrow with rfl | ⟨hrow, hother⟩
  · rcases hnew with hd | ⟨other, hm, hlist⟩
    · exact .inl hd
    · refine .inr ⟨other, Program.mem_set_of_ne hi hm ?_, ?_⟩
      · intro he
        apply hlists
        rw [← he]
        exact hlist.imp id fun hl => ⟨_, hl⟩
      · rcases hlist with rfl | rfl
        · trivial
        · rfl
  · rcases h row hrow with hd | ⟨other, hm, hc⟩
    · exact .inl hd
    · by_cases he : other = call
      · subst he
        exact .inr ⟨call', Program.self_mem_set hi, hkeep row hrow hother hc⟩
      · exact .inr ⟨other, Program.mem_set_of_ne hi hm he, hc⟩

def Listed (s : ChannelStore) : ChannelCall → Prop
  | .rewriting _ rest => ∀ row ∈ rest, ∃ row' ∈ s.rows.rows, row'.accountId = row.accountId
  | _ => True

theorem Listed.write {s s' : ChannelStore}
    (hw : s.feishuUpsert accountId fields = some s') (h : Listed s call) : Listed s' call := by
  unfold Listed at h ⊢
  split at h
  · intro row hrow
    obtain ⟨row', hm, hk⟩ := h row hrow
    obtain ⟨row'', hm', hk'⟩ := ChannelStore.feishuUpsert_keeps hw hm
    exact ⟨row'', hm', hk'.trans hk⟩
  · trivial

/-- Every stale row is covered by a call, and the covering calls can write it. -/
structure Inv (s : Processes ChannelStore ChannelCall) : Prop where
  tracked : Tracked s
  listed : ∀ call ∈ s.procs, Listed s.shared call

theorem Inv.move (h : Inv s) (hi : s.procs[i]? = some call)
    (hkeep : ∀ row ∈ s.shared.rows.rows, Covers s.shared row call →
      Described s.shared row ∨ Covers s.shared row call')
    (hlisted : Listed s.shared call') : Inv ⟨s.shared, s.procs.set i call'⟩ := by
  refine ⟨h.tracked.move hi hkeep, ?_⟩
  intro other hm
  rcases Program.mem_set_cases hm with rfl | hm
  · exact hlisted
  · exact h.listed other hm

theorem Inv.write (h : Inv s) (hi : s.procs[i]? = some call)
    {s' : ChannelStore} (hw : s.shared.feishuUpsert accountId fields = some s')
    (hnew : Described s.shared (fields.over (s.shared.current accountId)) ∨ StillToList s)
    (hlists : ¬ (call = .recomputing ∨ ∃ groupDisabled, call = .listing groupDisabled))
    (hkeep : ∀ row ∈ s.shared.rows.rows, row.accountId ≠ accountId → Covers s.shared row call →
      Covers s.shared row call')
    (hlisted : Listed s.shared call') : Inv ⟨s', s.procs.set i call'⟩ := by
  refine ⟨h.tracked.write hi hw hnew hlists hkeep, ?_⟩
  intro other hm
  rcases Program.mem_set_cases hm with rfl | hm
  · exact hlisted.write hw
  · exact (h.listed other hm).write hw

theorem Inv.upsert (h : Inv s) {merged : FeishuRow}
    {groupDisabled : Bool} (hi : s.procs[i]? = some (.upserting accountId fields merged groupDisabled))
    (hc : Current s.shared (.upserting accountId fields merged groupDisabled) ∨ StillToList s) :
    Inv ⟨(s.shared.feishuUpsert accountId { fields with
        desiredDigest := some (digest merged.digestCols groupDisabled) }).getD s.shared,
      s.procs.set i .ended⟩ := by
  cases hw : s.shared.feishuUpsert accountId { fields with
      desiredDigest := some (digest merged.digestCols groupDisabled) } with
  | none => exact h.move hi (fun _ _ hcov => hcov.elim) trivial
  | some s' =>
    refine h.write hi hw ?_ (by simp) (fun _ _ _ hcov => hcov.elim) trivial
    refine hc.imp_left ?_
    rintro ⟨hcols, rfl⟩
    have hwritten : ({ fields with
        desiredDigest := some (digest merged.digestCols s.shared.groupGloballyDisabled) }.over
          (s.shared.current accountId)).digestCols =
        (fields.over (s.shared.current accountId)).digestCols := rfl
    unfold Described
    rw [hwritten, ← hcols]
    rfl

/-- One row of `recompute_digests`. -/
theorem Inv.rewrite (h : Inv s) {groupDisabled : Bool} {rest : List FeishuRow}
    (hi : s.procs[i]? = some (.rewriting groupDisabled (row :: rest)))
    (hc : Current s.shared (.rewriting groupDisabled (row :: rest)) ∨ StillToList s)
    (hstale : digest row.digestCols groupDisabled ≠ row.desiredDigest.getD "") {s' : ChannelStore}
    (hw : s.shared.feishuUpsert row.accountId
      { desiredDigest := some (digest row.digestCols groupDisabled) } = some s') :
    Inv ⟨s', s.procs.set i (.rewriting groupDisabled rest)⟩ := by
  have hlisted := h.listed _ (List.mem_of_getElem? hi)
  refine h.write hi hw ?_ (by simp) ?_ fun row' hm => hlisted row' (List.mem_cons_of_mem _ hm)
  · refine hc.imp_left ?_
    intro hcur
    obtain ⟨hcols, hswitch⟩ := hcur hstale
    have hwritten : ({ desiredDigest := some (digest row.digestCols groupDisabled) : FeishuFields }.over
        (s.shared.current row.accountId)).digestCols = (s.shared.current row.accountId).digestCols := rfl
    unfold Described
    rw [hwritten, ← hcols, ← hswitch]
    rfl
  · rintro row' - hother ⟨hswitch, hm⟩
    refine ⟨hswitch, ?_⟩
    rcases List.mem_cons.mp hm with rfl | hm
    · exact absurd rfl hother
    · exact hm

theorem described_of_fresh {s : ChannelStore}
    (h : digest row.digestCols s.groupGloballyDisabled = row.desiredDigest.getD "") :
    Described s row := by
  cases hd : row.desiredDigest with
  | none =>
    rw [hd] at h
    exact absurd h (digest_ne_empty _ _)
  | some d =>
    rw [hd] at h
    unfold Described
    rw [hd, h]
    rfl

/-- A flip of the switch, or a write of `updated_by`. -/
theorem Inv.set (h : Inv s) {groupChatDisabled : Option Bool} {updatedBy : String}
    (hi : s.procs[i]? = some (.setting groupChatDisabled updatedBy)) :
    Inv ⟨s.shared.channelPlatformUpsert groupChatDisabled updatedBy,
      s.procs.set i (if groupChatDisabled = none then .ended else .recomputing)⟩ := by
  constructor
  · cases groupChatDisabled with
    | some value =>
      intro row hrow
      exact .inr ⟨.recomputing, Program.self_mem_set hi, trivial⟩
    | none =>
      have hswitch : (s.shared.channelPlatformUpsert none updatedBy).groupGloballyDisabled =
          s.shared.groupGloballyDisabled := by
        unfold ChannelStore.channelPlatformUpsert ChannelStore.groupGloballyDisabled
        cases s.shared.platform <;> rfl
      have hmoved : Tracked ⟨s.shared, s.procs.set i .ended⟩ :=
        h.tracked.move hi fun _ _ hcov => hcov.elim
      intro row hrow
      have hrow' := hmoved row hrow
      unfold Described Covers at hrow' ⊢
      rw [hswitch]
      exact hrow'
  · intro call hm
    rcases Program.mem_set_cases hm with rfl | hm
    · split <;> trivial
    · exact h.listed call hm

theorem Inv.advance (h : Inv s) {now : Nat} {s' : Processes ChannelStore ChannelCall}
    (hc : Careful s (.advance i now)) (hs : channelProgram.step s (.advance i now) = some s') : Inv s' := by
  obtain ⟨call, next, hi, hact, rfl⟩ := Program.advance_eq_some hs
  have hcur := hc call hi
  have hact' : ChannelCall.act s.shared call now = some next := hact
  cases call with
  | checking accountId code unionId openId =>
    simp only [ChannelCall.act] at hact'
    split at hact'
    · cases hact'
      exact h.move hi (fun _ _ hcov => hcov.elim) trivial
    · split at hact' <;> cases hact' <;> exact h.move hi (fun _ _ hcov => hcov.elim) trivial
  | writeDesired accountId fields =>
    cases hact'
    exact h.move hi (fun _ _ hcov => hcov.elim) trivial
  | merging accountId fields groupDisabled =>
    simp only [ChannelCall.act] at hact'
    split at hact' <;> cases hact' <;> exact h.move hi (fun _ _ hcov => hcov.elim) trivial
  | upserting accountId fields merged groupDisabled =>
    cases hact'
    exact h.upsert hi hcur
  | setting groupChatDisabled updatedBy =>
    simp only [ChannelCall.act] at hact'
    split at hact'
    · cases hact'
      exact h.move hi (fun _ _ hcov => hcov.elim) trivial
    · cases hact'
      exact h.set hi
  | recomputing =>
    cases hact'
    exact h.move hi (fun _ _ _ => .inr rfl) trivial
  | listing groupDisabled =>
    cases hact'
    refine h.move hi ?_ ?_
    · intro row hrow hswitch
      exact .inr ⟨hswitch, ChannelStore.mem_feishuList.mpr hrow⟩
    · intro row hrow
      exact ⟨row, ChannelStore.mem_feishuList.mp hrow, rfl⟩
  | rewriting groupDisabled rest =>
    cases rest with
    | nil =>
      cases hact'
      exact h.move hi (fun _ _ hcov => absurd hcov.2 (by simp)) trivial
    | cons row rest =>
      have hlisted := h.listed _ (List.mem_of_getElem? hi)
      simp only [ChannelCall.act] at hact'
      split at hact'
      · rename_i hstale
        obtain ⟨s', hw⟩ := ChannelStore.feishuUpsert_digest (hlisted row List.mem_cons_self)
          (digest row.digestCols groupDisabled)
        rw [hw] at hact'
        cases hact'
        exact h.rewrite hi hcur hstale hw
      · rename_i hfresh
        cases hact'
        refine h.move hi ?_ fun row' hm => hlisted row' (List.mem_cons_of_mem _ hm)
        rintro row' - ⟨hswitch, hm⟩
        rcases List.mem_cons.mp hm with rfl | hm
        · rw [hswitch, ne_eq, not_not] at hfresh
          exact .inl (described_of_fresh hfresh)
        · exact .inr ⟨hswitch, hm⟩
  | ended => cases hact'

theorem Inv.step (h : Inv s) {event : ProcessEvent ChannelRequest Nat Empty}
    {s' : Processes ChannelStore ChannelCall} (hc : Careful s event)
    (hs : channelProgram.step s event = some s') : Inv s' := by
  cases event with
  | advance i now => exact h.advance hc hs
  | outside event => cases event
  | spawn request =>
    cases hs
    constructor
    · intro row hrow
      refine (h.tracked row hrow).imp_right ?_
      rintro ⟨call, hm, hcov⟩
      exact ⟨call, List.mem_append_left _ hm, hcov⟩
    · intro call hm
      rcases List.mem_append.mp hm with hm | hm
      · exact h.listed call hm
      · rw [List.mem_singleton.mp hm]
        cases request <;> trivial

end Steps

end PrivaCloud.DataSpine
