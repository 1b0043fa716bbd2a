import Mathlib.Algebra.BigOperators.Group.List.Basic
import PrivaCloud.AgentRunner.SkillArchive

/-!
# What an upload does to the file tree

An upload writes below its skill only and within the limits; when it succeeds, the entries of the archive
are there unless two of them are written to one path.
-/

namespace PrivaCloud.AgentRunner.Skills

open Framework

private theorem splitSlash_ne_nil (text : Text) : splitSlash text ≠ [] := by
  cases text with
  | nil => simp [splitSlash]
  | cons c cs =>
    unfold splitSlash
    split
    · simp
    · split <;> simp

private theorem splitSlash_append_slash (text rest : Text) :
    splitSlash (text ++ '/' :: rest) = splitSlash text ++ splitSlash rest := by
  induction text with
  | nil => simp [splitSlash]
  | cons c cs ih =>
    rw [List.cons_append, splitSlash, splitSlash, ih]
    split
    · rfl
    · cases hcs : splitSlash cs with
      | nil => exact absurd hcs (splitSlash_ne_nil cs)
      | cons part parts => rfl

variable {name relative : Text}

private theorem validateMemberName_ok (h : validateMemberName name = .ok ()) :
    "..".toList ∉ splitSlash name ∧ [] ∉ (splitSlash name).dropLast := by
  unfold validateMemberName at h
  iterate 4
    split at h
    · cases h
  split at h
  · cases h
  · rename_i hup
    split at h
    · cases h
    · rename_i hempty
      exact ⟨hup, hempty⟩

private theorem relative_of_valid {top : Text} (h : validateMemberName (top ++ '/' :: relative) = .ok ()) :
    relative.head? ≠ some '/' ∧ "..".toList ∉ components relative := by
  obtain ⟨hup, hempty⟩ := validateMemberName_ok h
  rw [splitSlash_append_slash] at hup hempty
  refine ⟨fun hhead => ?_, fun hmem => hup (List.mem_append_right _ (List.mem_of_mem_filter hmem))⟩
  obtain ⟨rest, rfl⟩ := List.head?_eq_some_iff.mp hhead
  have hsplit : splitSlash ('/' :: rest) = [] :: splitSlash rest := by rw [splitSlash, if_pos rfl]
  rw [hsplit] at hempty
  refine hempty ?_
  rw [List.dropLast_append_of_ne_nil (List.cons_ne_nil _ _),
    List.dropLast_cons_of_ne_nil (splitSlash_ne_nil rest)]
  exact List.mem_append_right _ List.mem_cons_self

def returned (entries : List Entry) (name : Text) : Option Bytes :=
  (getMember entries name).bind fun entry => if entry.kind = .file then entry.content else none

variable {budget : Nat} {content : Bytes} {entries : List Entry}

private theorem readBounded_eq_ok {chunk : Bytes} {rest : Nat}
    (h : readBounded content budget = .ok (chunk, rest)) :
    chunk = content ∧ content.length ≤ maxEntryBytes ∧ content.length + rest ≤ budget := by
  unfold readBounded at h
  simp only at h
  split at h <;> cases h
  rename_i hlen
  rw [List.length_take] at hlen
  have htake : content.take (min maxEntryBytes budget + 1) = content := List.take_of_length_le (by omega)
  rw [htake]
  exact ⟨rfl, by omega, by omega⟩

private theorem readFile_eq_ok {read : Option Bytes} {rest : Nat}
    (h : readFile entries name budget = .ok (read, rest)) : returned entries name = read ∧
      ∀ content ∈ read, content.length ≤ maxEntryBytes ∧ content.length + rest ≤ budget := by
  unfold readFile at h
  unfold returned
  cases hmember : getMember entries name with
  | none =>
    rw [hmember] at h
    cases h
    exact ⟨rfl, nofun⟩
  | some entry =>
    simp only [hmember] at h
    rw [Option.bind_some]
    split at h
    · rename_i hkind
      cases h
      exact ⟨if_neg hkind, nofun⟩
    · rename_i hkind
      rw [if_pos (not_not.mp hkind)]
      cases hcontent : entry.content with
      | none =>
        rw [hcontent] at h
        cases h
      | some whole =>
        simp only [hcontent] at h
        cases hread : readBounded whole budget with
        | error e =>
          rw [hread] at h
          cases h
        | ok result =>
          rw [hread] at h
          cases h
          obtain ⟨hsame, hbounds⟩ := readBounded_eq_ok hread
          rw [hsame]
          refine ⟨rfl, ?_⟩
          rintro _ ⟨⟩
          exact hbounds

def lastWrite (writes : List (Path × Bytes)) (path : Path) : Option Bytes :=
  writes.foldl (fun last write => if write.1 = path then some write.2 else last) none

private theorem lastWrite_append (writes : List (Path × Bytes)) (write : Path × Bytes) (path : Path) :
    lastWrite (writes ++ [write]) path = if write.1 = path then some write.2 else lastWrite writes path := by
  rw [lastWrite, List.foldl_append]
  rfl

private theorem lastWrite_map (dest : Path) (writes : List (Path × Bytes)) (path : Path) :
    lastWrite (writes.map fun write => (dest ++ write.1, write.2)) (dest ++ path) = lastWrite writes path := by
  induction writes using List.reverseRecOn with
  | nil => rfl
  | append_singleton writes write ih =>
    rw [List.map_append, List.map_singleton, lastWrite_append, lastWrite_append, ih]
    simp only [List.append_cancel_left_eq]

/-- The tree that an upload has come to: the destination is a directory without links below it, what is
outside has not changed, and the files are what was last written. -/
structure Inside (before : SkillTree) (dest : Path) (disk : Disk) : Prop where
  ancestors : ∀ path, path ≠ [] → path <+: dest → disk.tree path = some .dir
  frame : ∀ path, ¬ dest <+: path → disk.tree path = before path
  nolink : ∀ path target, disk.tree (dest ++ path) ≠ some (.link target)
  files : ∀ path content, disk.tree (dest ++ path) = some (.file content) ↔
    lastWrite disk.writes (dest ++ path) = some content
  below : ∀ write ∈ disk.writes, dest <+: write.1 ∧ write.1 ≠ dest
  bounded : ∀ write ∈ disk.writes, write.2.length ≤ maxEntryBytes
  total : (disk.writes.map fun write => write.2.length).sum + disk.budget ≤ maxTotalBytes

variable {path : Path}

namespace Inside

variable {before : SkillTree} {dest : Path} {disk : Disk}

private theorem safeResolve_eq (h : Inside before dest disk)
    (hhead : relative.head? ≠ some '/') (hup : "..".toList ∉ components relative)
    (hresolve : safeResolve disk.tree dest relative = .ok path) :
    path = dest ++ components relative ∧ components relative ≠ [] := by
  simp only [safeResolve, if_neg hhead, FileTree.resolve_eq hup h.nolink] at hresolve
  split at hresolve <;> cases hresolve
  rename_i hoff
  refine ⟨rfl, fun hnil => hoff (Or.inl ?_)⟩
  rw [hnil, List.append_nil]

private theorem makeDirs (h : Inside before dest disk) {tree : SkillTree}
    (hmake : disk.tree.makeDirs [] (dest ++ path) = some tree) :
    Inside before dest { disk with tree := tree } := by
  obtain ⟨hpaths, -⟩ := FileTree.makeDirs_eq_some hmake
  -- only directories below the destination are new
  have hnew : ∀ other, tree other = disk.tree other ∨
      disk.tree other = none ∧ tree other = some .dir ∧ dest <+: other := by
    intro other
    refine (hpaths other).imp_right ?_
    rintro ⟨hnone, hdir, -, hne, hbelow⟩
    refine ⟨hnone, hdir, ?_⟩
    rcases List.prefix_or_prefix_of_prefix (List.prefix_append dest path) hbelow with hdest | habove
    · exact hdest
    · rw [h.ancestors other hne habove] at hnone
      cases hnone
  refine ⟨?_, ?_, ?_, ?_, h.below, h.bounded, h.total⟩
  · intro other hne habove
    rcases hnew other with hsame | ⟨-, hdir, -⟩
    · exact hsame.trans (h.ancestors other hne habove)
    · exact hdir
  · intro other hout
    rcases hnew other with hsame | ⟨-, -, hdest⟩
    · exact hsame.trans (h.frame other hout)
    · exact absurd hdest hout
  · intro other target hlink
    rcases hnew (dest ++ other) with hsame | ⟨-, hdir, -⟩
    · exact h.nolink other target (hsame.symm.trans hlink)
    · cases hdir.symm.trans hlink
  · intro other content
    refine Iff.trans ?_ (h.files other content)
    change tree (dest ++ other) = _ ↔ _
    rcases hnew (dest ++ other) with hsame | ⟨hnone, hdir, -⟩
    · rw [hsame]
    · rw [hnone, hdir]
      simp

private theorem write (h : Inside before dest disk) (hpath : path ≠ [])
    (hlength : content.length ≤ maxEntryBytes) (hbudget : content.length + budget ≤ disk.budget) :
    Inside before dest { tree := disk.tree.set (dest ++ path) (.file content)
                         writes := disk.writes ++ [(dest ++ path, content)]
                         budget := budget } := by
  have hdest : dest ++ path ≠ dest := fun heq => hpath (List.append_right_eq_self.mp heq)
  have hkept : ∀ other, other ≠ dest ++ path →
      (disk.tree.set (dest ++ path) (.file content)) other = disk.tree other :=
    fun other hne => FileTree.set_ne hne _
  refine ⟨?_, ?_, ?_, ?_, ?_, ?_, ?_⟩
  · intro other hne habove
    refine (hkept other ?_).trans (h.ancestors other hne habove)
    rintro rfl
    have hlen := habove.length_le
    rw [List.length_append] at hlen
    exact hpath (List.eq_nil_of_length_eq_zero (by omega))
  · intro other hout
    refine (hkept other ?_).trans (h.frame other hout)
    rintro rfl
    exact hout (List.prefix_append _ _)
  · intro other target hlink
    by_cases heq : dest ++ other = dest ++ path
    · simp [heq] at hlink
    · exact h.nolink other target ((hkept _ heq).symm.trans hlink)
  · intro other content'
    change (disk.tree.set (dest ++ path) (.file content)) (dest ++ other) = _ ↔ _
    rw [lastWrite_append]
    by_cases heq : dest ++ path = dest ++ other
    · rw [if_pos heq, ← heq, FileTree.set_self]
      simp
    · rw [if_neg heq, hkept _ (Ne.symm heq)]
      exact h.files other content'
  · intro write hwrite
    rcases List.mem_append.mp hwrite with hold | hnew
    · exact h.below write hold
    · rw [List.mem_singleton.mp hnew]
      exact ⟨List.prefix_append _ _, hdest⟩
  · intro write hwrite
    rcases List.mem_append.mp hwrite with hold | hnew
    · exact h.bounded write hold
    · rw [List.mem_singleton.mp hnew]
      exact hlength
  · have htotal := h.total
    rw [List.map_append, List.sum_append, List.map_singleton, List.sum_singleton]
    simp only
    omega

private theorem lower (h : Inside before dest disk) (hbudget : budget ≤ disk.budget) :
    Inside before dest { disk with budget := budget } where
  ancestors := h.ancestors
  frame := h.frame
  nolink := h.nolink
  files := h.files
  below := h.below
  bounded := h.bounded
  total := (Nat.add_le_add_left hbudget _).trans h.total

private theorem writeContent (h : Inside before dest disk)
    (hhead : relative.head? ≠ some '/') (hup : "..".toList ∉ components relative)
    (hlength : content.length ≤ maxEntryBytes) (hbudget : content.length + budget ≤ disk.budget)
    {result : Except UploadError Unit} {disk' : Disk}
    (hwrite : writeContent dest { disk with budget := budget } relative content = (result, disk')) :
    Inside before dest disk' ∧ disk'.writes.length ≤ disk.writes.length + 1 ∧
      (result = .ok () → disk'.writes = disk.writes ++ [(dest ++ components relative, content)]) := by
  have hlower : budget ≤ disk.budget := by omega
  unfold Skills.writeContent at hwrite
  cases hresolve : safeResolve disk.tree dest relative with
  | error e =>
    simp only [hresolve] at hwrite
    cases hwrite
    exact ⟨h.lower hlower, Nat.le_succ _, fun hok => by cases hok⟩
  | ok path =>
    obtain ⟨rfl, hne⟩ := h.safeResolve_eq hhead hup hresolve
    simp only [hresolve] at hwrite
    rw [List.dropLast_append_of_ne_nil hne] at hwrite
    cases hmake : disk.tree.makeDirs [] (dest ++ (components relative).dropLast) with
    | none =>
      simp only [hmake] at hwrite
      cases hwrite
      exact ⟨h.lower hlower, Nat.le_succ _, fun hok => by cases hok⟩
    | some tree =>
      have hmade := h.makeDirs hmake
      simp only [hmake] at hwrite
      cases hfile : tree.writeFile (dest ++ components relative) content with
      | none =>
        simp only [hfile] at hwrite
        cases hwrite
        exact ⟨hmade.lower hlower, Nat.le_succ _, fun hok => by cases hok⟩
      | some tree' =>
        simp only [hfile] at hwrite
        cases hwrite
        rw [FileTree.writeFile_eq_some hfile]
        exact ⟨hmade.write hne hlength hbudget, by simp, fun _ => rfl⟩

end Inside

/-- Where a member is written, below the destination, and with which content -/
def writtenBy (entries : List Entry) (top : Text) (member : Text) : Option (Path × Bytes) :=
  if top ++ ['/'] <+: member ∧ ¬ endsWithSlash member then
    (returned entries member).map fun content => (components (member.drop (top.length + 1)), content)
  else none

section Loop

variable {before : SkillTree} {entries : List Entry} {top : Text} {dest : Path} {disk disk' : Disk}
  {result : Except UploadError Unit}

private theorem Inside.writeMember (h : Inside before dest disk) {member : Text}
    (hvalid : validateMemberName member = .ok ())
    (hwrite : writeMember entries top dest disk member = (result, disk')) :
    Inside before dest disk' ∧ disk'.writes.length ≤ disk.writes.length + 1 ∧
      (result = .ok () → disk'.writes = disk.writes ++
        (writtenBy entries top member).toList.map fun write => (dest ++ write.1, write.2)) := by
  unfold Skills.writeMember at hwrite
  unfold writtenBy
  by_cases htop : top ++ ['/'] <+: member
  · obtain ⟨relative, rfl⟩ := htop
    have hname : top ++ ['/'] ++ relative = top ++ '/' :: relative := by simp
    have hdrop : (top ++ ['/'] ++ relative).drop (top.length + 1) = relative := by
      rw [hname, List.drop_append]
      simp
    rw [hname] at hvalid
    obtain ⟨hhead, hup⟩ := relative_of_valid hvalid
    rw [if_neg (not_not.mpr (List.prefix_append _ _))] at hwrite
    simp only [hdrop] at hwrite ⊢
    by_cases hempty : relative = []
    · have hslash : endsWithSlash (top ++ ['/'] ++ relative) = true := by
        rw [hempty, List.append_nil]
        simp [endsWithSlash]
      rw [if_pos hempty] at hwrite
      cases hwrite
      rw [if_neg fun hboth => hboth.2 hslash]
      exact ⟨h, Nat.le_succ _, fun _ => by simp⟩
    · rw [if_neg hempty] at hwrite
      by_cases hslash : endsWithSlash (top ++ ['/'] ++ relative) = true
      · rw [if_pos hslash] at hwrite
        rw [if_neg fun hboth => hboth.2 hslash]
        cases hresolve : safeResolve disk.tree dest relative with
        | error e =>
          simp only [hresolve] at hwrite
          cases hwrite
          exact ⟨h, Nat.le_succ _, fun hok => by cases hok⟩
        | ok path =>
          obtain ⟨rfl, -⟩ := h.safeResolve_eq hhead hup hresolve
          simp only [hresolve] at hwrite
          cases hmake : disk.tree.makeDirs [] (dest ++ components relative) with
          | none =>
            simp only [hmake] at hwrite
            cases hwrite
            exact ⟨h, Nat.le_succ _, fun hok => by cases hok⟩
          | some tree =>
            simp only [hmake] at hwrite
            cases hwrite
            exact ⟨h.makeDirs hmake, Nat.le_succ _, fun _ => by simp⟩
      · rw [if_neg hslash] at hwrite
        rw [if_pos ⟨List.prefix_append _ _, hslash⟩]
        cases hread : readFile entries (top ++ ['/'] ++ relative) disk.budget with
        | error e =>
          simp only [hread] at hwrite
          cases hwrite
          exact ⟨h, Nat.le_succ _, fun hok => by cases hok⟩
        | ok read =>
          obtain ⟨_ | content, budget⟩ := read
          · simp only [hread] at hwrite
            cases hwrite
            rw [(readFile_eq_ok hread).1]
            exact ⟨h, Nat.le_succ _, fun _ => by simp⟩
          · simp only [hread] at hwrite
            obtain ⟨hreturned, hbounds⟩ := readFile_eq_ok hread
            obtain ⟨hlength, hbudget⟩ := hbounds content rfl
            obtain ⟨hinside, hlen, hwritten⟩ := h.writeContent hhead hup hlength hbudget hwrite
            refine ⟨hinside, hlen, fun hok => ?_⟩
            rw [hwritten hok, hreturned]
            rfl
  · rw [if_pos htop] at hwrite
    cases hwrite
    rw [if_neg fun hboth => htop hboth.1]
    exact ⟨h, Nat.le_succ _, fun _ => by simp⟩

private theorem Inside.writeBundle (h : Inside before dest disk) {members : List Text}
    (hvalid : ∀ member ∈ members, validateMemberName member = .ok ())
    (hwrite : writeBundle entries top dest disk members = (result, disk')) :
    Inside before dest disk' ∧ disk'.writes.length ≤ disk.writes.length + members.length ∧
      (result = .ok () → disk'.writes = disk.writes ++
        (members.filterMap (writtenBy entries top)).map fun write => (dest ++ write.1, write.2)) := by
  induction members generalizing disk with
  | nil =>
    cases hwrite
    exact ⟨h, Nat.le_add_right _ _, fun _ => by simp⟩
  | cons member members ih =>
    obtain ⟨hmember, hmembers⟩ := List.forall_mem_cons.mp hvalid
    rw [Skills.writeBundle] at hwrite
    cases hfirst : Skills.writeMember entries top dest disk member with
    | mk outcome mid =>
      obtain ⟨hmid, hlen, hwritten⟩ := h.writeMember hmember hfirst
      rw [hfirst] at hwrite
      cases outcome with
      | error e =>
        cases hwrite
        exact ⟨hmid, by rw [List.length_cons]; omega, fun hok => by cases hok⟩
      | ok done =>
        obtain ⟨hrest, hlen', hwritten'⟩ := ih hmid hmembers hwrite
        refine ⟨hrest, by rw [List.length_cons]; omega, fun hok => ?_⟩
        rw [hwritten' hok, hwritten rfl, List.append_assoc, ← List.map_append]
        congr 2
        cases hby : writtenBy entries top member with
        | none => rw [List.filterMap_cons_none hby, Option.toList_none, List.nil_append]
        | some write => rw [List.filterMap_cons_some hby, Option.toList_some, List.singleton_append]

end Loop

private theorem bind_eq_ok {α β : Type} {x : Except UploadError α} {f : α → Except UploadError β} {b : β}
    (h : x >>= f = .ok b) : ∃ a, x = .ok a ∧ f a = .ok b := by
  cases x with
  | error e => cases h
  | ok a => exact ⟨a, rfl, h⟩

private theorem forM_validate {names : List Text} (h : names.forM validateMemberName = .ok ()) :
    ∀ name ∈ names, validateMemberName name = .ok () := by
  induction names with
  | nil => exact fun name hname => absurd hname List.not_mem_nil
  | cons name names ih =>
    obtain ⟨_, hname, hrest⟩ := bind_eq_ok h
    exact List.forall_mem_cons.mpr ⟨hname, ih hrest⟩

variable {env : SkillsEnv}

private theorem validateBundle_ok {bundle : Bundle} (h : validateBundle env entries = .ok bundle) :
    (∀ name ∈ entries.map (·.name), validateMemberName name = .ok ()) ∧ bundle.budget ≤ maxTotalBytes := by
  unfold validateBundle at h
  obtain ⟨_, hnames, h⟩ := bind_eq_ok h
  obtain ⟨top, -, h⟩ := bind_eq_ok h
  refine ⟨forM_validate hnames, ?_⟩
  simp only at h
  split at h
  · cases h
  · obtain ⟨⟨_ | content, budget⟩, hread, h⟩ := bind_eq_ok h
    · cases h
    · obtain ⟨name, -, h⟩ := bind_eq_ok h
      cases h
      have hbudget := ((readFile_eq_ok hread).2 content rfl).2
      simp only
      omega

private theorem guardDeclared_ok {sizes : List Nat} {compressedLen : Nat}
    (h : guardDeclared sizes compressedLen = .ok ()) : sizes.length ≤ maxArchiveEntries := by
  unfold guardDeclared at h
  split at h
  · cases h
  · omega

variable {upload : Upload}

private theorem readArchive_ok
    (h : readArchive env upload = .ok entries) : entries.length ≤ maxArchiveEntries := by
  have hzip : extractZip upload = .ok entries → entries.length ≤ maxArchiveEntries := by
    intro hzip
    unfold extractZip at hzip
    split at hzip
    · cases hzip
    · obtain ⟨_, hguard, hret⟩ := bind_eq_ok hzip
      cases hret
      have hlen := guardDeclared_ok hguard
      rwa [List.length_map] at hlen ⊢
  have htar : ∀ gz, extractTar upload gz = .ok entries → entries.length ≤ maxArchiveEntries := by
    intro gz htar
    unfold extractTar at htar
    split at htar
    · cases htar
    · split at htar
      · cases htar
      · obtain ⟨_, hguard, hret⟩ := bind_eq_ok htar
        cases hret
        have hlen := guardDeclared_ok hguard
        rwa [List.length_map] at hlen
  unfold readArchive at h
  simp only at h
  split at h
  · exact hzip h
  · split at h
    · exact htar true h
    · split at h
      · exact htar false h
      · cases h

private theorem receive_ok {bundle : Bundle} (h : receive env upload = .ok (entries, bundle)) :
    (∀ name ∈ entries.map (·.name), validateMemberName name = .ok ()) ∧ bundle.budget ≤ maxTotalBytes ∧
      entries.length ≤ maxArchiveEntries := by
  unfold receive at h
  split at h
  · cases h
  · obtain ⟨entries', harchive, h⟩ := bind_eq_ok h
    obtain ⟨bundle', hbundle, h⟩ := bind_eq_ok h
    cases h
    obtain ⟨hnames, hbudget⟩ := validateBundle_ok hbundle
    exact ⟨hnames, hbudget, readArchive_ok harchive⟩

def Grounded (tree : SkillTree) : Prop :=
  ∀ path names, path ≠ [] → tree path = none → tree (path ++ names) = none

/-- What is new or other than before is strictly inside the destination and no link, or is a directory on
the way to it that was missing; what is gone was inside. -/
structure StaysInside (dest : Path) (before after : SkillTree) (writes : List (Path × Bytes)) : Prop where
  created : ∀ path node, after path = some node → before path = some node ∨
    dest <+: path ∧ path ≠ dest ∧ (∀ target, node ≠ .link target) ∨
    path <+: dest ∧ before path = none ∧ node = .dir
  removed : ∀ path, before path ≠ none → after path = none → dest <+: path
  written : ∀ write ∈ writes, dest <+: write.1 ∧ write.1 ≠ dest

structure WithinLimits (writes : List (Path × Bytes)) : Prop where
  count : writes.length ≤ maxArchiveEntries
  each : ∀ write ∈ writes, write.2.length ≤ maxEntryBytes
  total : (writes.map fun write => write.2.length).sum ≤ maxTotalBytes

def below (top name : Text) : Path := components (name.drop (top.length + 1))

/-- Every entry that is no directory is there, with what the library returns for its name. -/
def EntriesThere (entries : List Entry) (top : Text) (dest : Path) (tree : SkillTree) : Prop :=
  ∀ entry ∈ entries, entry.kind = .file → ∃ content,
    returned entries entry.name = some content ∧ tree (dest ++ below top entry.name) = some (.file content)

/-- The last entry that is written to the path of an entry has the content of its name. -/
def Faithful (entries : List Entry) (top : Text) : Prop :=
  ∀ entry ∈ entries, entry.kind = .file → ∃ content, returned entries entry.name = some content ∧
    lastWrite ((entries.map (·.name)).filterMap (writtenBy entries top)) (below top entry.name) = some content

private theorem makeDirs_root {tree tree' : SkillTree} (h : tree.makeDirs [] path = some tree')
    (other : Path) : tree' other = tree other ∨ tree other = none ∧ tree' other = some .dir ∧ other <+: path :=
  ((FileTree.makeDirs_eq_some h).1 other).imp_right fun ⟨hnone, hdir, _, _, hbelow⟩ => ⟨hnone, hdir, hbelow⟩

private theorem Grounded.makeDirs {tree tree' : SkillTree} (hgrounded : Grounded tree)
    (h : tree.makeDirs [] path = some tree') : Grounded tree' := by
  intro other names hne hnone
  have hbefore : tree other = none := by
    rcases makeDirs_root h other with hsame | ⟨hold, -⟩
    · exact hsame.symm.trans hnone
    · exact hold
  rcases makeDirs_root h (other ++ names) with hsame | ⟨-, -, hbelow⟩
  · exact hsame.trans (hgrounded other names hne hbefore)
  · have hdir := (FileTree.makeDirs_eq_some h).2 other hne ((List.prefix_append _ _).trans hbelow)
    cases hnone.symm.trans hdir

private theorem clearDest_eq_some {tree cleared : SkillTree} {dest : Path} (hgrounded : Grounded tree)
    (hdest : dest ≠ []) (h : clearDest tree dest = some cleared) :
    (tree dest = none ∨ tree dest = some .dir) ∧ ∀ path, cleared path = if dest <+: path then none else tree path := by
  unfold clearDest at h
  split at h
  · rename_i hnone
    cases h
    refine ⟨Or.inl hnone, fun path => ?_⟩
    split
    · rename_i hbelow
      obtain ⟨names, rfl⟩ := hbelow
      exact hgrounded dest names hdest hnone
    · rfl
  · rename_i hdir
    cases h
    exact ⟨Or.inr hdir, fun path => rfl⟩
  · cases h

private theorem Inside.start {cleared made : SkillTree} {dest : Path} (hbudget : budget ≤ maxTotalBytes)
    (hcleared : ∀ path, dest <+: path → cleared path = none) (hmake : cleared.makeDirs [] dest = some made) :
    Inside made dest { tree := made, budget := budget } := by
  obtain ⟨hpaths, hdirs⟩ := FileTree.makeDirs_eq_some hmake
  have hbelow : ∀ path, made (dest ++ path) = none ∨ made (dest ++ path) = some .dir := by
    intro path
    rcases hpaths (dest ++ path) with hsame | ⟨-, hdir, -⟩
    · exact Or.inl (hsame.trans (hcleared _ (List.prefix_append _ _)))
    · exact Or.inr hdir
  refine ⟨fun path hne habove => hdirs path hne habove, fun _ _ => rfl, ?_, ?_, ?_, ?_, ?_⟩
  · intro path target hlink
    rcases hbelow path with hnone | hdir
    · cases hnone.symm.trans hlink
    · cases hdir.symm.trans hlink
  · intro path content
    change made (dest ++ path) = _ ↔ _
    rcases hbelow path with hnone | hdir
    · rw [hnone]
      simp [lastWrite]
    · rw [hdir]
      simp [lastWrite]
  · exact fun write hwrite => absurd hwrite List.not_mem_nil
  · exact fun write hwrite => absurd hwrite List.not_mem_nil
  · simpa using hbudget

section Replace

variable {entries : List Entry} {bundle : Bundle} {skillsDir : Path} {tree : SkillTree}

private theorem replaceSkill_safe (hgrounded : Grounded tree)
    (hnames : ∀ name ∈ entries.map (·.name), validateMemberName name = .ok ())
    (hbudget : bundle.budget ≤ maxTotalBytes) (hcount : entries.length ≤ maxArchiveEntries) {outcome : Outcome}
    (houtcome : replaceSkill entries bundle skillsDir tree = outcome) :
    StaysInside (skillsDir ++ [bundle.skillName]) tree outcome.tree outcome.writes ∧
    WithinLimits outcome.writes ∧ ∀ name, outcome.result = .ok name → bundle.skillName = name ∧
      (EntriesThere entries bundle.skillDirName (skillsDir ++ [bundle.skillName]) outcome.tree ↔
        Faithful entries bundle.skillDirName) := by
  have hlimits : WithinLimits [] := ⟨Nat.zero_le _, by simp, Nat.zero_le _⟩
  have hdest : skillsDir ++ [bundle.skillName] ≠ [] := by simp
  unfold replaceSkill at houtcome
  generalize skillsDir ++ [bundle.skillName] = dest at *
  simp only at houtcome
  cases hclear : clearDest tree dest with
  | none =>
    rw [hclear] at houtcome
    cases houtcome
    refine ⟨⟨fun path node hnode => Or.inl hnode, fun path hsome hnone => absurd hnone hsome, ?_⟩, hlimits,
      fun name hok => by cases hok⟩
    exact fun write hwrite => absurd hwrite List.not_mem_nil
  | some cleared =>
    obtain ⟨hfree, hcleared⟩ := clearDest_eq_some hgrounded hdest hclear
    simp only [hclear] at houtcome
    cases hmake : cleared.makeDirs [] dest with
    | none =>
      simp only [hmake] at houtcome
      cases houtcome
      refine ⟨⟨fun path node hnode => ?_, fun path hsome hnone => ?_, ?_⟩, hlimits, fun name hok => by cases hok⟩
      · change cleared path = some node at hnode
        rw [hcleared] at hnode
        split at hnode
        · cases hnode
        · exact Or.inl hnode
      · by_contra hout
        change cleared path = none at hnone
        rw [hcleared, if_neg hout] at hnone
        exact hsome hnone
      · exact fun write hwrite => absurd hwrite List.not_mem_nil
    | some made =>
      have hstart := Inside.start hbudget
        (fun path hbelow => by rw [hcleared, if_pos hbelow]) hmake
      simp only [hmake] at houtcome
      cases hrun : writeBundle entries bundle.skillDirName dest { tree := made, budget := bundle.budget }
        (entries.map (·.name)) with
      | mk result disk =>
        obtain ⟨hinside, hlen, hwritten⟩ := hstart.writeBundle hnames hrun
        simp only [hrun] at houtcome
        cases houtcome
        -- outside the destination only the directories on the way to it are new
        have hout : ∀ path, ¬ dest <+: path → disk.tree path = tree path ∨
            tree path = none ∧ disk.tree path = some .dir ∧ path <+: dest := by
          intro path hpath
          rw [hinside.frame path hpath]
          have hsame := hcleared path
          rw [if_neg hpath] at hsame
          rw [← hsame]
          exact makeDirs_root hmake path
        refine ⟨⟨fun path node hnode => ?_, fun path hsome hnone => ?_, hinside.below⟩, ?_, fun name hok => ?_⟩
        · by_cases hbelow : dest <+: path
          · by_cases heq : path = dest
            · have hdir := hinside.ancestors dest hdest List.prefix_rfl
              rw [heq] at hnode ⊢
              cases hdir.symm.trans hnode
              rcases hfree with hnone | hdir
              · exact Or.inr (Or.inr ⟨List.prefix_rfl, hnone, rfl⟩)
              · exact Or.inl hdir
            · refine Or.inr (Or.inl ⟨hbelow, heq, ?_⟩)
              rintro target rfl
              obtain ⟨names, rfl⟩ := hbelow
              exact hinside.nolink names target hnode
          · rcases hout path hbelow with hsame | ⟨hnone, hdir, habove⟩
            · exact Or.inl (hsame.symm.trans hnode)
            · cases hdir.symm.trans hnode
              exact Or.inr (Or.inr ⟨habove, hnone, rfl⟩)
        · by_contra hpath
          rcases hout path hpath with hsame | ⟨-, hdir, -⟩
          · exact hsome (hsame.symm.trans hnone)
          · cases hdir.symm.trans hnone
        · refine ⟨?_, hinside.bounded, (Nat.le_add_right _ _).trans hinside.total⟩
          rw [List.length_map, List.length_nil, Nat.zero_add] at hlen
          exact hlen.trans hcount
        · cases result with
          | error e => cases hok
          | ok done =>
            cases hok
            refine ⟨rfl, ?_⟩
            have hthere : ∀ path content, disk.tree (dest ++ path) = some (.file content) ↔
                lastWrite ((entries.map (·.name)).filterMap (writtenBy entries bundle.skillDirName)) path =
                  some content := by
              intro path content
              rw [hinside.files, hwritten rfl, List.nil_append, lastWrite_map]
            unfold EntriesThere Faithful
            simp only [hthere]

private theorem StaysInside.after_makeDirs {made after : SkillTree} {writes : List (Path × Bytes)}
    (hmake : tree.makeDirs [] skillsDir = some made)
    (h : StaysInside (skillsDir ++ [name]) made after writes) :
    StaysInside (skillsDir ++ [name]) tree after writes where
  created := by
    intro path node hnode
    rcases h.created path node hnode with hmade | hinside | ⟨habove, hnone, hdir⟩
    · rcases makeDirs_root hmake path with hsame | ⟨hold, hdir, hbelow⟩
      · exact Or.inl (hsame.symm.trans hmade)
      · cases hdir.symm.trans hmade
        exact Or.inr (Or.inr ⟨hbelow.trans (List.prefix_append _ _), hold, rfl⟩)
    · exact Or.inr (Or.inl hinside)
    · refine Or.inr (Or.inr ⟨habove, ?_, hdir⟩)
      rcases makeDirs_root hmake path with hsame | ⟨hold, -⟩
      · exact hsame.symm.trans hnone
      · exact hold
  removed := by
    intro path hsome hnone
    refine h.removed path ?_ hnone
    rcases makeDirs_root hmake path with hsame | ⟨hold, -⟩
    · rwa [hsame]
    · exact absurd hold hsome
  written := h.written

end Replace

/-- What the parts of an upload come to: the destination and the bundle, once both are known -/
def destination (env : SkillsEnv) (route : Route) (upload : Upload) : Option (Path × List Entry × Bundle) :=
  match receive env upload, route.skillsDir env with
  | .ok (entries, bundle), .ok skillsDir => some (skillsDir ++ [bundle.skillName], entries, bundle)
  | _, _ => none

/-- An upload changes nothing before it knows its destination, stays inside that and within the limits, and
when it succeeds the entries are there exactly if the archive is faithful. -/
theorem upload_safe (env : SkillsEnv) (route : Route) (upload : Upload) {tree : SkillTree}
    (hgrounded : Grounded tree) {outcome : Outcome} (houtcome : uploadBy env route upload tree = outcome) :
    (∀ dest entries bundle, destination env route upload = some (dest, entries, bundle) →
      StaysInside dest tree outcome.tree outcome.writes ∧
      ∀ name, outcome.result = .ok name → bundle.skillName = name ∧
        (EntriesThere entries bundle.skillDirName dest outcome.tree ↔ Faithful entries bundle.skillDirName)) ∧
    (destination env route upload = none → outcome.tree = tree ∧ outcome.writes = [] ∧
      ∀ name, outcome.result ≠ .ok name) ∧
    WithinLimits outcome.writes := by
  have hlimits : WithinLimits [] := ⟨Nat.zero_le _, by simp, Nat.zero_le _⟩
  have hnothing : ∀ dest, StaysInside dest tree tree [] := fun dest =>
    ⟨fun path node hnode => Or.inl hnode, fun path hsome hnone => absurd hnone hsome,
      fun write hwrite => absurd hwrite List.not_mem_nil⟩
  unfold destination
  cases hreceive : receive env upload with
  | error e =>
    have hrefused : outcome = { result := .error e, tree := tree } := by
      cases route with
      | skill scope cwd => rw [← houtcome, uploadBy, uploadSkill, hreceive]
      | hub => rw [← houtcome, uploadBy, uploadHubSkill, hreceive]
    rw [hrefused]
    exact ⟨fun _ _ _ h => (by cases h), fun _ => ⟨rfl, rfl, fun _ h => by cases h⟩, hlimits⟩
  | ok received =>
    obtain ⟨entries, bundle⟩ := received
    obtain ⟨hnames, hbudget, hcount⟩ := receive_ok hreceive
    cases route with
    | hub =>
      rw [uploadBy, uploadHubSkill, hreceive] at houtcome
      obtain ⟨hinside, hwithin, hthere⟩ := replaceSkill_safe hgrounded hnames hbudget hcount houtcome
      refine ⟨?_, fun hnone => (by cases hnone), hwithin⟩
      rintro dest entries' bundle' ⟨⟩
      exact ⟨hinside, hthere⟩
    | skill scope cwd =>
      rw [uploadBy, uploadSkill, hreceive] at houtcome
      simp only [Route.skillsDir] at houtcome ⊢
      cases hdir : resolveSkillsDir env scope cwd with
      | error e =>
        rw [hdir] at houtcome
        cases houtcome
        exact ⟨fun _ _ _ h => (by cases h), fun _ => ⟨rfl, rfl, fun _ h => by cases h⟩, hlimits⟩
      | ok skillsDir =>
        simp only [hdir] at houtcome
        refine ⟨?_, fun hnone => (by cases hnone), ?_⟩
        · rintro dest entries' bundle' ⟨⟩
          cases hmake : tree.makeDirs [] skillsDir with
          | none =>
            rw [hmake] at houtcome
            cases houtcome
            exact ⟨hnothing _, fun name hok => by cases hok⟩
          | some made =>
            simp only [hmake] at houtcome
            obtain ⟨hinside, -, hthere⟩ :=
              replaceSkill_safe (hgrounded.makeDirs hmake) hnames hbudget hcount houtcome
            exact ⟨hinside.after_makeDirs hmake, hthere⟩
        · cases hmake : tree.makeDirs [] skillsDir with
          | none =>
            rw [hmake] at houtcome
            cases houtcome
            exact hlimits
          | some made =>
            simp only [hmake] at houtcome
            exact (replaceSkill_safe (hgrounded.makeDirs hmake) hnames hbudget hcount houtcome).2.1

def sampleSkillsEnv : SkillsEnv where
  lower := List.map Char.toLower
  decodeReplace := List.map fun b => Char.ofNat b.toNat
  safeLoad := fun _ => .mapping (some "demo".toList) (some "A demo skill".toList)
  personalSkillsDir := ["skills".toList]
  runtimeSkillsDir := ["hub".toList]

/-- `---`, a line break, `---` -/
def skillMd : Bytes := [45, 45, 45, 10, 45, 45, 45]

def zipOf (files : List (String × Bytes)) : Upload where
  length := 100
  filename := "demo.zip".toList
  zip := some (files.map fun file => ⟨file.1.toList, file.2.length, some file.2⟩)

private theorem Faithful.of_same {top : Text}
    (h : ∀ entry ∈ entries, entry.kind = .file → (returned entries entry.name).isSome = true ∧
      lastWrite ((entries.map (·.name)).filterMap (writtenBy entries top)) (below top entry.name) =
        returned entries entry.name) : Faithful entries top := by
  intro entry hentry hkind
  obtain ⟨hsome, hsame⟩ := h entry hentry hkind
  obtain ⟨content, hcontent⟩ := Option.isSome_iff_exists.mp hsome
  exact ⟨content, hcontent, hsame.trans hcontent⟩

/-- An upload to the hub, which is not there yet, succeeds. -/
def Succeeds (upload : Upload) : Prop :=
  (uploadBy sampleSkillsEnv .hub upload fun _ => none).result = .ok "demo".toList

instance (upload : Upload) : Decidable (Succeeds upload) := inferInstanceAs (Decidable (_ = _))

def Complete (upload : Upload) : Prop :=
  ∀ dest entries bundle, destination sampleSkillsEnv .hub upload = some (dest, entries, bundle) →
    EntriesThere entries bundle.skillDirName dest (uploadBy sampleSkillsEnv .hub upload fun _ => none).tree

def sampleArchive : Upload :=
  zipOf [("demo/SKILL.md", skillMd), ("demo/ref/", []), ("demo/ref/n.md", [1, 2])]

theorem upload_safe_sampleArchive : Succeeds sampleArchive ∧ Complete sampleArchive := by
  have hok : Succeeds sampleArchive := by decide
  refine ⟨hok, fun dest entries bundle hdest => ?_⟩
  have hfaithful : Faithful entries bundle.skillDirName := by
    refine Faithful.of_same ?_
    have hparts : destination sampleSkillsEnv .hub sampleArchive =
        some (["hub".toList, "demo".toList], (sampleArchive.zip.getD []).map ZipInfo.entry,
          ⟨"demo".toList, "demo".toList, maxTotalBytes - 7⟩) := by decide
    rw [hparts] at hdest
    cases hdest
    decide
  exact (((upload_safe sampleSkillsEnv .hub sampleArchive (fun _ _ _ _ => rfl) rfl).1 dest entries bundle
    hdest).2 _ hok).2.mpr hfaithful

private theorem not_complete
    (h : (destination sampleSkillsEnv .hub upload).any (fun (dest, entries, _) => entries.any fun entry =>
      entry.kind = .file ∧ ∀ content ∈ returned entries entry.name,
        (uploadBy sampleSkillsEnv .hub upload fun _ => none).tree (dest ++ below "demo".toList entry.name) ≠
          some (.file content)) = true)
    (htop : (destination sampleSkillsEnv .hub upload).all fun (_, _, bundle) => bundle.skillDirName = "demo".toList) :
    ¬ Complete upload := by
  intro hcomplete
  obtain ⟨⟨dest, entries, bundle⟩, hdest, hmissing⟩ := (Option.any_eq_true _ _).mp h
  obtain ⟨entry, hentry, hcheck⟩ := List.any_eq_true.mp hmissing
  obtain ⟨hkind, hother⟩ := of_decide_eq_true hcheck
  rw [hdest, Option.all_some, decide_eq_true_iff] at htop
  obtain ⟨content, hreturned, hthere⟩ := hcomplete dest entries bundle hdest entry hentry hkind
  rw [htop] at hthere
  exact hother content hreturned hthere

def tarOf (members : List Entry) : Upload where
  length := 100
  filename := "demo.tar".toList
  tar := fun _ => some members

def mdEntry : Entry := { name := "demo/SKILL.md".toList, size := 7, content := some skillMd }

-- Two names of one path, a file with the name of the top directory, a regular file whose name ends with a
-- slash, and a file whose name comes again as a directory.
theorem upload_not_complete :
    (Succeeds (zipOf [("demo/SKILL.md", skillMd), ("demo/x", [1]), ("demo/./x", [2])]) ∧
      ¬ Complete (zipOf [("demo/SKILL.md", skillMd), ("demo/x", [1]), ("demo/./x", [2])])) ∧
    (Succeeds (zipOf [("demo/SKILL.md", skillMd), ("demo", [1])]) ∧
      ¬ Complete (zipOf [("demo/SKILL.md", skillMd), ("demo", [1])])) ∧
    (Succeeds (tarOf [mdEntry, ⟨"demo/x/".toList, 1, .file, some [1]⟩]) ∧
      ¬ Complete (tarOf [mdEntry, ⟨"demo/x/".toList, 1, .file, some [1]⟩])) ∧
    Succeeds (tarOf [mdEntry, ⟨"demo/x".toList, 1, .file, some [1]⟩, ⟨"demo/x".toList, 0, .dir, none⟩]) ∧
      ¬ Complete (tarOf [mdEntry, ⟨"demo/x".toList, 1, .file, some [1]⟩, ⟨"demo/x".toList, 0, .dir, none⟩]) := by
  refine ⟨⟨?_, not_complete ?_ ?_⟩, ⟨?_, not_complete ?_ ?_⟩, ⟨?_, not_complete ?_ ?_⟩, ?_, not_complete ?_ ?_⟩
  all_goals decide

end PrivaCloud.AgentRunner.Skills
