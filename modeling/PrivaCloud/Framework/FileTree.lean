import Mathlib.Data.List.Infix
import Mathlib.Tactic.Common

/-!
# File trees

Directories, regular files and symbolic links at paths, and the operations on them that a program uses to
write below a directory. Nothing here names a particular program.
-/

namespace PrivaCloud.Framework

/-- A link is kept with the place where it leads. -/
inductive Node (Name Content : Type)
  | dir
  | file (content : Content)
  | link (target : List Name)
  deriving DecidableEq

abbrev FileTree (Name Content : Type) := List Name → Option (Node Name Content)

namespace FileTree

variable {Name Content : Type} [DecidableEq Name] (tree : FileTree Name Content)

/-- The place of a path that is followed from a directory, links and `up` steps resolved. -/
def resolve (up : Name) : List Name → List Name → List Name
  | done, [] => done
  | done, name :: todo =>
    if name = up then resolve up done.dropLast todo
    else
      match tree (done ++ [name]) with
      | some (.link target) => resolve up target todo
      | _ => resolve up (done ++ [name]) todo

def set (path : List Name) (node : Node Name Content) : FileTree Name Content :=
  fun other => if other = path then some node else tree other

def removeTree (path : List Name) : FileTree Name Content :=
  fun other => if path <+: other then none else tree other

/-- Create the directories of a resolved path that are missing, below one that is there. -/
def makeDirs (tree : FileTree Name Content) : List Name → List Name → Option (FileTree Name Content)
  | _, [] => some tree
  | done, name :: todo =>
    match tree (done ++ [name]) with
    | none => makeDirs (tree.set (done ++ [name]) .dir) (done ++ [name]) todo
    | some .dir => makeDirs tree (done ++ [name]) todo
    | some _ => none

def writeFile (path : List Name) (content : Content) : Option (FileTree Name Content) :=
  match tree path with
  | some .dir => none
  | some (.link _) => none
  | _ => some (tree.set path (.file content))

variable {tree}

@[simp] theorem set_self (path : List Name) (node : Node Name Content) :
    tree.set path node path = some node := if_pos rfl

theorem set_ne {path other : List Name} (h : other ≠ path) (node : Node Name Content) :
    tree.set path node other = tree other := if_neg h

/-- Where there are no links and no `up` steps, a path is its own place. -/
theorem resolve_eq {up : Name} {done todo : List Name} (hup : up ∉ todo)
    (hlinks : ∀ names target, tree (done ++ names) ≠ some (.link target)) :
    tree.resolve up done todo = done ++ todo := by
  induction todo generalizing done with
  | nil => rw [resolve, List.append_nil]
  | cons name todo ih =>
    rw [List.mem_cons, not_or] at hup
    have hnext : tree.resolve up (done ++ [name]) todo = done ++ name :: todo := by
      rw [ih hup.2 fun names target => by rw [List.append_assoc]; exact hlinks _ target,
        List.append_assoc, List.singleton_append]
    rw [resolve, if_neg (Ne.symm hup.1)]
    split
    · rename_i target hlink
      exact absurd hlink (hlinks [name] target)
    · exact hnext

theorem makeDirs_eq_some {tree' : FileTree Name Content} {done todo : List Name}
    (h : makeDirs tree done todo = some tree') :
    (∀ path, tree' path = tree path ∨
      tree path = none ∧ tree' path = some .dir ∧ done <+: path ∧ path ≠ done ∧ path <+: done ++ todo) ∧
    ∀ names, names ≠ [] → names <+: todo → tree' (done ++ names) = some .dir := by
  induction todo generalizing tree done with
  | nil =>
    cases h
    refine ⟨fun path => Or.inl rfl, fun names hne hprefix => absurd (List.prefix_nil.mp hprefix) hne⟩
  | cons name todo ih =>
    have hdone : done ++ name :: todo = done ++ [name] ++ todo := by simp
    -- what the rest of the path gives, once `done ++ [name]` is a directory of `mid`
    have hrest : ∀ mid, mid (done ++ [name]) = some Node.dir → makeDirs mid (done ++ [name]) todo = some tree' →
        (∀ path, tree' path = mid path ∨
          mid path = none ∧ tree' path = some .dir ∧ done <+: path ∧ path ≠ done ∧ path <+: done ++ name :: todo) ∧
        ∀ names, names ≠ [] → names <+: name :: todo → tree' (done ++ names) = some .dir := by
      intro mid hmid hmake
      obtain ⟨hpaths, hdirs⟩ := ih hmake
      refine ⟨fun path => (hpaths path).imp_right ?_, ?_⟩
      · rintro ⟨hnone, hdir, hbelow, -, habove⟩
        refine ⟨hnone, hdir, (List.prefix_append _ _).trans hbelow, ?_, hdone ▸ habove⟩
        rintro rfl
        have hlen := hbelow.length_le
        rw [List.length_append, List.length_singleton] at hlen
        omega
      · intro names hne hprefix
        cases names with
        | nil => exact absurd rfl hne
        | cons first names =>
          obtain ⟨rfl, hnames⟩ := List.cons_prefix_cons.mp hprefix
          by_cases hnil : names = []
          · rw [hnil]
            rcases hpaths (done ++ [first]) with hsame | ⟨hnone, -⟩
            · rw [hsame, hmid]
            · rw [hmid] at hnone
              cases hnone
          · have hdir := hdirs names hnil hnames
            rwa [List.append_assoc, List.singleton_append] at hdir
    rw [makeDirs] at h
    split at h
    · rename_i hnone
      obtain ⟨hpaths, hdirs⟩ := hrest _ (set_self _ _) h
      refine ⟨fun path => ?_, hdirs⟩
      by_cases hpath : path = done ++ [name]
      · rw [hpath]
        refine Or.inr ⟨hnone, hdirs [name] (by simp) ⟨todo, rfl⟩, List.prefix_append _ _, by simp, ?_⟩
        rw [hdone]
        exact List.prefix_append _ _
      · have hkept := hpaths path
        rwa [set_ne hpath] at hkept
    · rename_i hdir
      exact hrest tree hdir h
    · cases h

theorem writeFile_eq_some {tree' : FileTree Name Content} {path : List Name} {content : Content}
    (h : tree.writeFile path content = some tree') : tree' = tree.set path (.file content) := by
  unfold writeFile at h
  split at h
  · cases h
  · cases h
  · exact (Option.some.inj h).symm

end FileTree

end PrivaCloud.Framework
