import Mathlib.Data.List.Sort
import Mathlib.Tactic.Common
import Mathlib.Tactic.Ring

/-!
# Keyset pages of an unsorted stream

A reader takes the first `limit + 1` records of a stream beyond a cursor, sorts them and returns the first
`limit`; the last key is the next cursor. The pages are the slices of the sorted stream exactly when no
record stands too far behind in the stream. Nothing here names a particular program.
-/

namespace PrivaCloud.Framework

variable {α κ : Type*} [LinearOrder κ] (key : α → κ) {l : List α}

def descending (l : List α) : List α := l.insertionSort (fun a b => key b ≤ key a)

def Descending (l : List α) : Prop := l.Pairwise (fun a b => key b < key a)

section Descending

variable {key}

theorem perm_descending (l : List α) : (descending key l).Perm l := List.perm_insertionSort _ l

@[simp] theorem mem_descending {x : α} : x ∈ descending key l ↔ x ∈ l :=
  (perm_descending l).mem_iff

theorem descending_sorted (hl : (l.map key).Nodup) : Descending key (descending key l) := by
  have htotal : Std.Total (fun a b : α => key b ≤ key a) := ⟨fun a b => le_total (key b) (key a)⟩
  have htrans : IsTrans α (fun a b => key b ≤ key a) := ⟨fun _ _ _ hab hbc => hbc.trans hab⟩
  have hle := List.pairwise_insertionSort (fun a b : α => key b ≤ key a) l
  have hne : (descending key l).Pairwise (fun a b => key a ≠ key b) :=
    List.pairwise_map.mp (((perm_descending l).map key).nodup_iff.mpr hl)
  exact (hle.and hne).imp fun h => lt_of_le_of_ne h.1 h.2.symm

theorem Descending.nodup (h : Descending key l) : l.Nodup := by
  refine List.Pairwise.imp ?_ h
  rintro a b hlt rfl
  exact lt_irrefl _ hlt

theorem Descending.eq_of_perm {l l' : List α} (h : Descending key l) (h' : Descending key l')
    (hp : l.Perm l') : l = l' :=
  List.Perm.eq_of_pairwise (fun _ _ _ _ hab hba => absurd hba (lt_asymm hab)) h h' hp

theorem Descending.drop (h : Descending key l) (n : Nat) : Descending key (l.drop n) :=
  List.Pairwise.drop h

theorem descending_filter (hl : (l.map key).Nodup) (p : α → Bool) :
    descending key (l.filter p) = (descending key l).filter p := by
  have hsub : ((l.filter p).map key).Nodup := hl.sublist (List.filter_sublist.map key)
  refine (descending_sorted hsub).eq_of_perm ((descending_sorted hl).filter p) ?_
  exact (perm_descending _).trans ((perm_descending l).symm.filter p)

theorem descending_toDual (hl : (l.map key).Nodup) :
    descending (fun x => OrderDual.toDual (key x)) l = (descending key l).reverse := by
  have hdual : (l.map fun x => OrderDual.toDual (key x)).Nodup := hl
  refine (descending_sorted hdual).eq_of_perm ?_ ((perm_descending l).trans
    ((List.reverse_perm _).trans (perm_descending l)).symm)
  exact List.pairwise_reverse.mpr (descending_sorted hl)

section Around

variable {front rest : List α} {x : α} (h : Descending key (front ++ x :: rest))

include h

theorem Descending.lt_of_mem_front : ∀ y ∈ front, key x < key y := fun y hy =>
  (List.pairwise_append.mp h).2.2 y hy x List.mem_cons_self

theorem Descending.lt_of_mem_rest : ∀ y ∈ rest, key y < key x := fun y hy =>
  (List.pairwise_cons.mp (List.pairwise_append.mp h).2.1).1 y hy

theorem Descending.filter_lt : (front ++ x :: rest).filter (fun y => key y < key x) = rest := by
  have hfront : front.filter (fun y => key y < key x) = [] :=
    List.filter_eq_nil_iff.mpr fun y hy => by simpa using (h.lt_of_mem_front y hy).le
  have hrest : rest.filter (fun y => key y < key x) = rest :=
    List.filter_eq_self.mpr fun y hy => by simpa using h.lt_of_mem_rest y hy
  rw [List.filter_append, List.filter_cons_of_neg (by simp), hfront, hrest, List.nil_append]

theorem Descending.filter_gt : (front ++ x :: rest).filter (fun y => key x < key y) = front := by
  have hfront : front.filter (fun y => key x < key y) = front :=
    List.filter_eq_self.mpr fun y hy => by simpa using h.lt_of_mem_front y hy
  have hrest : rest.filter (fun y => key x < key y) = [] :=
    List.filter_eq_nil_iff.mpr fun y hy => by simpa using (h.lt_of_mem_rest y hy).le
  rw [List.filter_append, List.filter_cons_of_neg (by simp), hfront, hrest, List.append_nil]

end Around

theorem Descending.take_lt_drop (h : Descending key l) {n : Nat} {x y : α}
    (hx : x ∈ l.take n) (hy : y ∈ l.drop n) : key y < key x := by
  have hsplit : Descending key (l.take n ++ l.drop n) := by rwa [List.take_append_drop]
  exact (List.pairwise_append.mp hsplit).2.2 x hx y hy

end Descending

/-- The records beyond the cursor, as the stream has them. -/
def beyond (cursor : Option κ) (l : List α) : List α :=
  l.filter fun x => cursor.all fun c => key x < c

def readPage (limit : Nat) (rest : List α) : List α :=
  (descending key (rest.take (limit + 1))).take limit

variable {s : List α}

section ReadPage

variable {key} [DecidableEq α]

/-- A page is the first slice exactly when the whole slice stands within the first `limit + 1`. -/
theorem readPage_eq_take_iff {limit : Nat} (hs : Descending key s) (hp : l.Perm s) :
    readPage key limit l = s.take limit ↔ ∀ x ∈ s.take limit, l.idxOf x ≤ limit := by
  constructor
  · intro heq x hx
    have hmem : x ∈ l := hp.mem_iff.mpr (List.mem_of_mem_take hx)
    rw [← heq] at hx
    have hread : x ∈ l.take (limit + 1) := mem_descending.mp (List.mem_of_mem_take hx)
    exact Nat.lt_succ_iff.mp ((List.mem_take_iff_idxOf_lt hmem).mp hread)
  · intro hplaced
    -- what is read holds the slice and, behind it, only records of later slices
    have hnodup : (l.take (limit + 1)).Nodup :=
      (hp.nodup_iff.mpr hs.nodup).sublist (List.take_sublist _ _)
    have hin : ∀ x ∈ s.take limit, x ∈ l.take (limit + 1) := by
      intro x hx
      have hmem : x ∈ l := hp.mem_iff.mpr (List.mem_of_mem_take hx)
      exact (List.mem_take_iff_idxOf_lt hmem).mpr (Nat.lt_succ_iff.mpr (hplaced x hx))
    have hbehind : ∀ y ∈ (l.take (limit + 1)).filter (· ∉ s.take limit), y ∈ s.drop limit := by
      intro y hy
      obtain ⟨hread, hnot⟩ := List.mem_filter.mp hy
      have hmem : y ∈ s := hp.mem_iff.mp (List.mem_of_mem_take hread)
      rw [← List.take_append_drop limit s, List.mem_append] at hmem
      exact hmem.resolve_left (by simpa using hnot)
    have hkeys : ∀ l' : List α, l'.Sublist (l.take (limit + 1)) → Descending key (descending key l') := by
      intro l' hsub
      refine descending_sorted (List.Nodup.sublist ((hsub.trans (List.take_sublist _ _)).map key) ?_)
      refine ((hp.map key).nodup_iff).mpr (List.pairwise_map.mpr (hs.imp fun h => ?_))
      exact (ne_of_lt h).symm
    have hdesc : Descending key
        (s.take limit ++ descending key ((l.take (limit + 1)).filter (· ∉ s.take limit))) := by
      refine List.pairwise_append.mpr ⟨hs.sublist (List.take_sublist _ _), hkeys _ List.filter_sublist, ?_⟩
      intro x hx y hy
      exact hs.take_lt_drop hx (hbehind y (mem_descending.mp hy))
    have hperm : (descending key (l.take (limit + 1))).Perm
        (s.take limit ++ descending key ((l.take (limit + 1)).filter (· ∉ s.take limit))) := by
      refine (List.perm_ext_iff_of_nodup ?_ hdesc.nodup).mpr ?_
      · exact (hkeys _ (List.Sublist.refl _)).nodup
      · intro x
        rw [mem_descending, List.mem_append, mem_descending, List.mem_filter]
        constructor
        · intro hx
          by_cases hslice : x ∈ s.take limit
          · exact .inl hslice
          · exact .inr ⟨hx, by simpa using hslice⟩
        · rintro (hx | ⟨hx, -⟩)
          · exact hin x hx
          · exact hx
    rw [readPage, (hkeys _ (List.Sublist.refl _)).eq_of_perm hdesc hperm]
    by_cases hlen : limit ≤ s.length
    · rw [List.take_append_of_le_length (by rw [List.length_take]; omega), List.take_take, min_self]
    · -- the slice is the whole stream and nothing stands behind it
      have hnone : (l.take (limit + 1)).filter (· ∉ s.take limit) = [] := by
        rw [List.eq_nil_iff_forall_not_mem]
        intro y hy
        have hdrop := hbehind y hy
        rw [List.drop_of_length_le (by omega)] at hdrop
        cases hdrop
      rw [hnone]
      simp [descending, List.take_take]

end ReadPage

section Walk

variable (accepted : α → Bool) (limit : Nat) (l : List α)

/-- Read page after page until there is no next cursor; a cursor that is not accepted ends the walk
without a result. -/
def walk : Nat → Option κ → Option (List (List α))
  | 0, _ => none
  | fuel + 1, cursor =>
    if limit < (beyond key cursor l).length then
      match (readPage key limit (beyond key cursor l)).getLast? with
      | none => some [readPage key limit (beyond key cursor l)]
      | some x =>
        if accepted x then
          (walk fuel (some (key x))).map (readPage key limit (beyond key cursor l) :: ·)
        else none
    else some [readPage key limit (beyond key cursor l)]

def Slices (s : List α) (pages : List (List α)) : Prop :=
  pages.flatten = s ∧ ∀ p page, pages[p]? = some page → page = (s.drop (p * limit)).take limit

/-- Each record stands, among the records of its own slice and the later ones, within the first
`limit + 1` of the stream. -/
def Placed [DecidableEq α] (s : List α) : Prop :=
  ∀ p, ∀ x ∈ (s.drop (p * limit)).take limit, (l.filter (· ∈ s.drop (p * limit))).idxOf x ≤ limit

/-- The records that end a slice with more to come are accepted as cursors. -/
def EndsAccepted (s : List α) : Prop :=
  ∀ p x, (p + 1) * limit < s.length → s[(p + 1) * limit - 1]? = some x → accepted x = true

/-- The cursor stands right before `rest`. -/
structure At (cursor : Option κ) (rest : List α) : Prop where
  sorted : Descending key rest
  mem : ∀ x ∈ rest, x ∈ l
  iff : ∀ x ∈ l, x ∈ rest ↔ (cursor.all fun c => key x < c) = true

variable {key accepted limit l}

theorem At.start (hl : (l.map key).Nodup) : At key l none (descending key l) where
  sorted := descending_sorted hl
  mem _ hx := mem_descending.mp hx
  iff x hx := by simp [hx]

variable {cursor : Option κ}

theorem At.beyond_eq [DecidableEq α] {rest : List α} (h : At key l cursor rest) :
    beyond key cursor l = l.filter (· ∈ rest) := by
  apply List.filter_congr
  intro x hx
  rw [Bool.eq_iff_iff, decide_eq_true_iff]
  exact (h.iff x hx).symm

theorem At.perm [DecidableEq α] {rest : List α} (h : At key l cursor rest)
    (hl : (l.map key).Nodup) : (beyond key cursor l).Perm rest := by
  rw [h.beyond_eq]
  refine (List.perm_ext_iff_of_nodup (hl.of_map.sublist List.filter_sublist) h.sorted.nodup).mpr ?_
  intro x
  rw [List.mem_filter, decide_eq_true_iff]
  exact ⟨fun hx => hx.2, fun hx => ⟨h.mem x hx, hx⟩⟩

theorem At.next {rest : List α} (h : At key l cursor rest) {x : α}
    (hx : (rest.take limit).getLast? = some x) : At key l (some (key x)) (rest.drop limit) where
  sorted := h.sorted.drop limit
  mem y hy := h.mem y (List.mem_of_mem_drop hy)
  iff y hy := by
    have hxmem : x ∈ rest.take limit := List.mem_of_getLast? hx
    rw [Option.all_some, decide_eq_true_iff]
    constructor
    · exact fun hdrop => h.sorted.take_lt_drop hxmem hdrop
    · intro hlt
      -- the record is beyond the old cursor too, and not in the slice, whose keys end with `x`
      have hrest : y ∈ rest := by
        rw [h.iff y hy]
        have hold := (h.iff x (h.mem x (List.mem_of_mem_take hxmem))).mp (List.mem_of_mem_take hxmem)
        cases cursor with
        | none => rfl
        | some c =>
          rw [Option.all_some, decide_eq_true_iff] at hold ⊢
          exact hlt.trans hold
      rw [← List.take_append_drop limit rest, List.mem_append] at hrest
      refine hrest.resolve_left fun htake => ?_
      obtain ⟨front, hfront⟩ := List.getLast?_eq_some_iff.mp hx
      have hslice : Descending key (front ++ [x]) := hfront ▸ h.sorted.sublist (List.take_sublist _ _)
      rw [hfront, List.mem_append, List.mem_singleton] at htake
      rcases htake with hbefore | rfl
      · have := (List.pairwise_append.mp hslice).2.2 y hbefore x List.mem_cons_self
        exact lt_asymm hlt this
      · exact lt_irrefl _ hlt

theorem drop_drop_mul (s : List α) (p : Nat) : (s.drop limit).drop (p * limit) = s.drop ((p + 1) * limit) := by
  rw [List.drop_drop, Nat.succ_mul, Nat.add_comm]

theorem placed_iff [DecidableEq α] : Placed limit l s ↔
    (∀ x ∈ s.take limit, (l.filter (· ∈ s)).idxOf x ≤ limit) ∧ Placed limit l (s.drop limit) := by
  constructor
  · intro h
    refine ⟨by simpa using h 0, fun p x hx => ?_⟩
    rw [drop_drop_mul] at hx ⊢
    exact h (p + 1) x hx
  · rintro ⟨hfirst, hrest⟩ p x hx
    cases p with
    | zero =>
      rw [Nat.zero_mul, List.drop_zero] at hx ⊢
      exact hfirst x hx
    | succ p =>
      rw [← drop_drop_mul] at hx ⊢
      exact hrest p x hx

theorem placed_self [DecidableEq α] (limit : Nat) (hs : s.Nodup) : Placed limit s s := by
  intro p x hx
  have hrest : s.filter (· ∈ s.drop (p * limit)) = s.drop (p * limit) := by
    conv_lhs => rw [← List.take_append_drop (p * limit) s, List.filter_append]
    have hdisjoint := List.disjoint_take_drop hs (Nat.le_refl (p * limit))
    rw [List.filter_eq_nil_iff.mpr fun y hy => by simpa using hdisjoint hy, List.nil_append]
    conv_lhs => rw [List.take_append_drop]
    exact List.filter_eq_self.mpr fun y hy => by simpa using hy
  rw [hrest]
  exact ((List.mem_take_iff_idxOf_lt (List.mem_of_mem_take hx)).mp hx).le

variable {pages : List (List α)}

theorem slices_cons {page : List α} :
    Slices limit s (page :: pages) ↔ page = s.take limit ∧ Slices limit (s.drop limit) pages := by
  constructor
  · rintro ⟨hflat, hpages⟩
    have hpage : page = s.take limit := by simpa using hpages 0 page rfl
    refine ⟨hpage, ?_, fun p q hq => ?_⟩
    · rw [List.flatten_cons, hpage] at hflat
      exact List.append_cancel_left (hflat.trans (List.take_append_drop limit s).symm)
    · rw [drop_drop_mul]
      exact hpages (p + 1) q hq
  · rintro ⟨rfl, hflat, hpages⟩
    refine ⟨by rw [List.flatten_cons, hflat, List.take_append_drop], fun p q hq => ?_⟩
    cases p with
    | zero =>
      rw [Nat.zero_mul, List.drop_zero]
      exact (Option.some.inj hq).symm
    | succ p =>
      rw [← drop_drop_mul]
      exact hpages p q hq

theorem endsAccepted_iff {x : α} (hlimit : 0 < limit) (hmore : limit < s.length)
    (hx : (s.take limit).getLast? = some x) :
    EndsAccepted accepted limit s ↔ accepted x = true ∧ EndsAccepted accepted limit (s.drop limit) := by
  have hget : s[limit - 1]? = some x := by
    rw [List.getLast?_eq_getElem?, List.length_take, Nat.min_eq_left hmore.le,
      List.getElem?_take_of_lt (by omega)] at hx
    exact hx
  have hshift : ∀ p, (s.drop limit)[(p + 1) * limit - 1]? = s[(p + 1 + 1) * limit - 1]? := by
    intro p
    rw [List.getElem?_drop]
    congr 1
    have : (p + 1 + 1) * limit = limit + (p + 1) * limit := by ring
    have : limit ≤ (p + 1) * limit := Nat.le_mul_of_pos_left _ (Nat.succ_pos p)
    omega
  constructor
  · intro h
    refine ⟨h 0 x (by simpa using hmore) (by simpa using hget), fun p y hlen hy => ?_⟩
    rw [hshift] at hy
    refine h (p + 1) y ?_ hy
    rw [List.length_drop] at hlen
    have : (p + 1 + 1) * limit = limit + (p + 1) * limit := by ring
    omega
  · rintro ⟨haccepted, hrest⟩ p y hlen hy
    cases p with
    | zero =>
      rw [Nat.zero_add, Nat.one_mul, hget] at hy
      cases hy
      exact haccepted
    | succ p =>
      rw [← hshift] at hy
      refine hrest p y ?_ hy
      rw [List.length_drop]
      have : (p + 1 + 1) * limit = limit + (p + 1) * limit := by ring
      omega

theorem walk_head {fuel : Nat}
    (h : walk key accepted limit l (fuel + 1) cursor = some pages) :
    ∃ tail, pages = readPage key limit (beyond key cursor l) :: tail := by
  rw [walk] at h
  split at h
  · split at h
    · cases h
      exact ⟨[], rfl⟩
    · split at h
      · obtain ⟨tail, -, rfl⟩ := Option.map_eq_some_iff.mp h
        exact ⟨tail, rfl⟩
      · cases h
  · cases h
    exact ⟨[], rfl⟩

theorem mem_of_mem_readPage {x : α} (h : x ∈ readPage key limit (beyond key cursor l)) : x ∈ l :=
  List.mem_of_mem_filter (List.mem_of_mem_take (mem_descending.mp (List.mem_of_mem_take h)))

theorem mem_of_walk {fuel : Nat}
    (h : walk key accepted limit l fuel cursor = some pages) : ∀ x ∈ pages.flatten, x ∈ l := by
  induction fuel generalizing cursor pages with
  | zero => cases h
  | succ fuel ih =>
    have hpage : ∀ x ∈ [readPage key limit (beyond key cursor l)].flatten, x ∈ l := by
      intro x hx
      rw [List.flatten_singleton] at hx
      exact mem_of_mem_readPage hx
    rw [walk] at h
    split at h
    · split at h
      · exact Option.some.inj h ▸ hpage
      · obtain ⟨-, hmap⟩ := Option.ite_none_right_eq_some.mp h
        obtain ⟨rest, hrest, rfl⟩ := Option.map_eq_some_iff.mp hmap
        intro x hx
        rcases List.mem_append.mp hx with hx | hx
        · exact mem_of_mem_readPage hx
        · exact ih hrest x hx
    · exact Option.some.inj h ▸ hpage

variable [DecidableEq α]

theorem At.readPage_iff {rest : List α} (h : At key l cursor rest)
    (hl : (l.map key).Nodup) : readPage key limit (beyond key cursor l) = rest.take limit ↔
      ∀ x ∈ rest.take limit, (l.filter (· ∈ rest)).idxOf x ≤ limit := by
  rw [readPage_eq_take_iff h.sorted (h.perm hl), h.beyond_eq]

/-- The walk returns the slices of what lies beyond the cursor exactly when these are placed and their
ends are accepted as cursors. -/
theorem At.walk_iff (accepted : α → Bool) (hlimit : 0 < limit) (hl : (l.map key).Nodup) {rest : List α}
    (h : At key l cursor rest) :
    (∃ fuel pages, walk key accepted limit l fuel cursor = some pages ∧ Slices limit rest pages) ↔
      Placed limit l rest ∧ EndsAccepted accepted limit rest := by
  induction hn : rest.length using Nat.strong_induction_on generalizing cursor rest with
  | _ n ih =>
    subst hn
    have hlen := (h.perm hl).length_eq
    by_cases hmore : limit < rest.length
    · obtain ⟨x, hx⟩ : ∃ x, (rest.take limit).getLast? = some x := by
        rw [← Option.isSome_iff_exists, List.getLast?_isSome]
        exact fun hnil => by
          have := congrArg List.length hnil
          rw [List.length_take, List.length_nil] at this
          omega
      have hnext := ih _ (by rw [List.length_drop]; omega) (h.next hx) rfl
      rw [placed_iff, endsAccepted_iff hlimit hmore hx]
      have hrec : ∀ fuel, readPage key limit (beyond key cursor l) = rest.take limit →
          walk key accepted limit l (fuel + 1) cursor = if accepted x then
            (walk key accepted limit l fuel (some (key x))).map (rest.take limit :: ·) else none := by
        intro fuel hpage
        rw [walk, if_pos (by omega), hpage, hx]
      constructor
      · rintro ⟨fuel, pages, hwalk, hslices⟩
        cases fuel with
        | zero => cases hwalk
        | succ fuel =>
          obtain ⟨tail, rfl⟩ := walk_head hwalk
          have hpage := (slices_cons.mp hslices).1
          rw [hrec fuel hpage] at hwalk
          split at hwalk
          · rename_i haccepted
            obtain ⟨tail', htail, heq⟩ := Option.map_eq_some_iff.mp hwalk
            obtain rfl := (List.cons.inj heq).2
            obtain ⟨hplaced, hends⟩ := hnext.mp ⟨fuel, tail', htail, (slices_cons.mp hslices).2⟩
            exact ⟨⟨(h.readPage_iff hl).mp hpage, hplaced⟩, haccepted, hends⟩
          · cases hwalk
      · rintro ⟨⟨hfirst, hplaced⟩, haccepted, hends⟩
        obtain ⟨fuel, tail, htail, hslices⟩ := hnext.mpr ⟨hplaced, hends⟩
        refine ⟨fuel + 1, rest.take limit :: tail, ?_, slices_cons.mpr ⟨rfl, hslices⟩⟩
        rw [hrec fuel ((h.readPage_iff hl).mpr hfirst), if_pos haccepted, htail]
        rfl
    · have hdrop : rest.drop limit = [] := List.drop_of_length_le (by omega)
      have hlast : ∀ fuel, walk key accepted limit l (fuel + 1) cursor =
          some [readPage key limit (beyond key cursor l)] := by
        intro fuel
        rw [walk, if_neg (by omega)]
      rw [placed_iff, ← h.readPage_iff hl, hdrop]
      constructor
      · rintro ⟨fuel, pages, hwalk, hslices⟩
        cases fuel with
        | zero => cases hwalk
        | succ fuel =>
          rw [hlast] at hwalk
          cases hwalk
          refine ⟨⟨(slices_cons.mp hslices).1, fun p x hx => by simp at hx⟩, fun p x hp => ?_⟩
          have : limit ≤ (p + 1) * limit := Nat.le_mul_of_pos_left _ (Nat.succ_pos p)
          omega
      · rintro ⟨⟨hpage, -⟩, -⟩
        refine ⟨1, _, hlast 0, slices_cons.mpr ⟨hpage, ?_⟩⟩
        rw [hdrop]
        exact ⟨rfl, fun p page hp => by simp at hp⟩

end Walk

end PrivaCloud.Framework
