import PrivaCloud.AskUser.AnswerText

/-!
# The names of uploads

`sanitize_upload_filename` of `temp_files.py`. Normalization and the category of a character are parameters.
-/

namespace PrivaCloud.AgentRunner.Uploads

open Framework AskUser

/-- `METADATA_FILENAME` -/
def metadataFilename : Text := "metadata.json".toList

/-- `MAX_SAFE_FILENAME_BYTES` -/
def maxSafeFilenameBytes : Nat := 200

def uploadName : Text := "upload".toList

/-- `len(value.encode("utf-8"))` -/
def utf8Length (value : Text) : Nat := value.foldr (fun c n => c.utf8Size + n) 0

/-- The whole characters in the first bytes of the encoding; `errors="ignore"` drops the rest. -/
def takeBytes : Nat → Text → Text
  | _, [] => []
  | n, c :: rest => if c.utf8Size ≤ n then c :: takeBytes (n - c.utf8Size) rest else []

/-- `_truncate_utf8` -/
def truncateUtf8 (value : Text) (maxBytes : Nat) : Text :=
  if utf8Length value ≤ maxBytes then value else takeBytes maxBytes value

/-- `Path(name).suffix` of a name without slashes -/
def fileSuffix (name : Text) : Text :=
  let tail := name.rtakeWhile (· ≠ '.')
  if '.' ∈ name ∧ tail ≠ [] ∧ tail.length + 1 < name.length then '.' :: tail else []

/-- `value or "upload"` -/
def orUpload (value : Text) : Text := if value = [] then uploadName else value

/-- The base name, before its length is looked at. -/
def cleanName (nfc : Text → Text) (control : Char → Bool) (filename : Text) : Text :=
  let normalized := nfc (orUpload filename)
  let basename := (normalized.map fun c => if c = '\\' then '/' else c).rtakeWhile (· ≠ '/')
  let basename := (strip pySpace (basename.map fun c => if control c then '_' else c)).rdropWhile
    fun c => c = ' ' || c = '.'
  let basename := if basename = [] ∨ basename = ['.'] ∨ basename = ['.', '.'] then uploadName else basename
  if basename = metadataFilename then "attachment-".toList ++ basename else basename

/-- The base name within its limit, with its suffix where that leaves room. -/
def boundName (basename : Text) : Text :=
  let suffix := fileSuffix basename
  if suffix ≠ [] ∧ utf8Length suffix < maxSafeFilenameBytes then
    orUpload (truncateUtf8 (basename.rdrop suffix.length) (maxSafeFilenameBytes - utf8Length suffix)) ++ suffix
  else orUpload (truncateUtf8 basename maxSafeFilenameBytes)

def sanitizeUploadFilename (nfc : Text → Text) (control : Char → Bool) (filename : Text) : Text :=
  boundName (cleanName nfc control filename)

/-- What the sanitizer writes itself. -/
def ownText : Text := '_' :: (uploadName ++ "attachment-".toList ++ metadataFilename)

/-- One component of a path, and not the name of the metadata. -/
structure StoredName (name : Text) : Prop where
  nonempty : name ≠ []
  slash : '/' ∉ name
  dot : name ≠ ['.']
  dots : name ≠ ['.', '.']
  payload : name ≠ metadataFilename

/-- What the bound makes of a base name: five bytes too many at most, and a suffix that is short stays. -/
structure Bounded (basename name : Text) : Prop where
  stored : StoredName name
  bytes : utf8Length name ≤ maxSafeFilenameBytes + 5
  chars : name ⊆ basename ++ uploadName
  suffix : fileSuffix basename ≠ [] → utf8Length (fileSuffix basename) < maxSafeFilenameBytes →
    fileSuffix name = fileSuffix basename

theorem utf8Length_cons (c : Char) (value : Text) : utf8Length (c :: value) = c.utf8Size + utf8Length value := rfl

theorem utf8Length_append (a b : Text) : utf8Length (a ++ b) = utf8Length a + utf8Length b := by
  induction a with
  | nil => exact (Nat.zero_add _).symm
  | cons c a ih => rw [List.cons_append, utf8Length_cons, ih, utf8Length_cons, Nat.add_assoc]

/-- A text that does not fit is cut by less than one character. -/
theorem takeBytes_spec (n : Nat) (value : Text) : takeBytes n value <+: value ∧
    utf8Length (takeBytes n value) ≤ n ∧ (n < utf8Length value → n < utf8Length (takeBytes n value) + 4) := by
  induction value generalizing n with
  | nil => exact ⟨List.prefix_rfl, Nat.zero_le n, fun h => absurd h (Nat.not_lt_zero n)⟩
  | cons c rest ih =>
    have hsize : c.utf8Size ≤ 4 := c.utf8Size_le_four
    obtain ⟨hfront, hfits, hcut⟩ := ih (n - c.utf8Size)
    rw [takeBytes, utf8Length_cons]
    split
    · rw [utf8Length_cons]
      exact ⟨List.cons_prefix_cons.mpr ⟨rfl, hfront⟩, by omega, by omega⟩
    · exact ⟨List.nil_prefix, Nat.zero_le n, by omega⟩

theorem truncateUtf8_spec (value : Text) (n : Nat) : truncateUtf8 value n <+: value ∧
    utf8Length (truncateUtf8 value n) ≤ n ∧
    (truncateUtf8 value n = value ∨ n < utf8Length (truncateUtf8 value n) + 4) := by
  obtain ⟨hfront, hfits, hcut⟩ := takeBytes_spec n value
  unfold truncateUtf8
  split
  · exact ⟨List.prefix_rfl, ‹_›, .inl rfl⟩
  · exact ⟨hfront, hfits, .inr (hcut (Nat.lt_of_not_le ‹_›))⟩

theorem fileSuffix_append {stem tail : Text} (hstem : stem ≠ []) (htail : tail ≠ []) (hdot : '.' ∉ tail) :
    fileSuffix (stem ++ '.' :: tail) = '.' :: tail := by
  have hlast : (stem ++ '.' :: tail).rtakeWhile (· ≠ '.') = tail := by
    have hreverse : (stem ++ '.' :: tail).reverse = tail.reverse ++ '.' :: stem.reverse := by simp
    have hall : ∀ c ∈ tail.reverse, decide (c ≠ '.') = true := by
      intro c hc
      exact decide_eq_true fun heq => hdot (heq ▸ List.mem_reverse.mp hc)
    rw [List.rtakeWhile, hreverse, List.takeWhile_append_of_pos hall, List.takeWhile_cons_of_neg (by simp),
      List.append_nil, List.reverse_reverse]
  have hlength := List.length_pos_of_ne_nil hstem
  rw [fileSuffix, hlast, if_pos]
  refine ⟨by simp, htail, ?_⟩
  rw [List.length_append, List.length_cons]
  omega

theorem exists_fileSuffix {name : Text} (h : fileSuffix name ≠ []) :
    ∃ stem tail, name = stem ++ '.' :: tail ∧ stem ≠ [] ∧ tail ≠ [] ∧ '.' ∉ tail := by
  unfold fileSuffix at h
  dsimp only at h
  split at h
  · rename_i hsuffix
    obtain ⟨hdot, htail, hlong⟩ := hsuffix
    have hparts := List.rdropWhile_append_rtakeWhile (p := fun c => decide (c ≠ '.')) (l := name)
    have hhead : name.rdropWhile (· ≠ '.') ≠ [] := by
      intro hnil
      simpa using List.rdropWhile_eq_nil_iff.mp hnil '.' hdot
    have hlast := List.rdropWhile_last_not (p := fun c => decide (c ≠ '.')) name hhead
    have hlast : (name.rdropWhile (· ≠ '.')).getLast hhead = '.' := by simpa using hlast
    have hstem := List.dropLast_append_getLast hhead
    rw [hlast] at hstem
    rw [← hstem, List.append_assoc, List.singleton_append] at hparts
    refine ⟨_, _, hparts.symm, ?_, htail, fun hmem => by simpa using List.mem_rtakeWhile_imp hmem⟩
    intro hnil
    have hlength := congrArg List.length hparts
    rw [hnil, List.nil_append, List.length_cons] at hlength
    omega
  · exact absurd rfl h

theorem uploadName_eq : uploadName = ['u', 'p', 'l', 'o', 'a', 'd'] := String.toList_ofList

theorem metadataFilename_eq :
    metadataFilename = ['m', 'e', 't', 'a', 'd', 'a', 't', 'a', '.', 'j', 's', 'o', 'n'] := String.toList_ofList

namespace StoredName

theorem upload {tail : Text} (hslash : '/' ∉ tail) : StoredName (uploadName ++ tail) := by
  rw [uploadName_eq]
  refine ⟨by simp, by simp [hslash], by simp, by simp, ?_⟩
  rw [metadataFilename_eq]
  simp

theorem of_long {name basename : Text} (h : StoredName basename) (hsub : name ⊆ basename)
    (hlong : name = basename ∨ 196 < utf8Length name) : StoredName name := by
  rcases hlong with rfl | hlong
  · exact h
  · have hne : ∀ short, utf8Length short ≤ 13 → name ≠ short := by
      rintro short hshort rfl
      omega
    refine ⟨hne _ (by decide), fun hslash => h.slash (hsub hslash), hne _ (by decide), hne _ (by decide), hne _ ?_⟩
    rw [metadataFilename_eq]
    decide

theorem bound {basename : Text} (h : StoredName basename) : Bounded basename (boundName basename) := by
  unfold boundName
  dsimp only
  split
  · rename_i hsuffix
    obtain ⟨stem, tail, rfl, hstem, htail, hdot⟩ := exists_fileSuffix hsuffix.1
    have hkept := fileSuffix_append hstem htail hdot
    have hroom := hsuffix.2
    rw [hkept] at hroom ⊢
    have hdrop : (stem ++ '.' :: tail).rdrop ('.' :: tail).length = stem := List.rdrop_append_length
    rw [hdrop]
    obtain ⟨hfront, hfits, hcut⟩ := truncateUtf8_spec stem (maxSafeFilenameBytes - utf8Length ('.' :: tail))
    generalize truncateUtf8 stem (maxSafeFilenameBytes - utf8Length ('.' :: tail)) = cut at hfront hfits hcut
    rw [orUpload]
    split
    · have hupload : utf8Length uploadName = 6 := by
        rw [uploadName_eq]
        rfl
      refine ⟨upload fun hslash => h.slash (List.mem_append_right _ hslash), ?_, by grind, fun _ _ => ?_⟩
      · rw [utf8Length_append, hupload]
        omega
      · rw [hkept, fileSuffix_append (by simp [uploadName_eq]) htail hdot]
    · rename_i hsome
      have hsub := hfront.subset
      refine ⟨h.of_long (by grind) ?_, ?_, by grind, fun _ _ => ?_⟩
      · rw [utf8Length_append]
        refine hcut.imp (fun heq => by rw [heq]) fun hlong => ?_
        unfold maxSafeFilenameBytes at hlong hroom
        omega
      · rw [utf8Length_append]
        omega
      · rw [hkept, fileSuffix_append hsome htail hdot]
  · rename_i hsuffix
    obtain ⟨hfront, hfits, hcut⟩ := truncateUtf8_spec basename maxSafeFilenameBytes
    have hname := h.of_long hfront.subset (hcut.imp_right fun hlong => by unfold maxSafeFilenameBytes at *; omega)
    rw [orUpload, if_neg hname.nonempty]
    exact ⟨hname, hfits.trans (Nat.le_add_right _ _), fun c hc => List.mem_append_left _ (hfront.subset hc),
      fun hne hroom => absurd ⟨hne, hroom⟩ hsuffix⟩

end StoredName

theorem cleanName_spec (nfc : Text → Text) (control : Char → Bool) (filename : Text) :
    StoredName (cleanName nfc control filename) ∧
      ∀ c ∈ cleanName nfc control filename, control c = true → c ∈ ownText := by
  unfold cleanName
  dsimp only
  -- the base name has no slash before it is cleaned
  generalize hbase : ((nfc (orUpload filename)).map fun c => if c = '\\' then '/' else c).rtakeWhile (· ≠ '/') = base
  have hslash : '/' ∉ base := fun hmem => absurd (List.mem_rtakeWhile_imp (hbase ▸ hmem)) (by decide)
  generalize hclean : (strip pySpace (base.map fun c => if control c then '_' else c)).rdropWhile
    (fun c => c = ' ' || c = '.') = clean
  have hchars : ∀ c ∈ clean, c ≠ '/' ∧ (control c = true → c ∈ ownText) := by
    intro c hc
    rw [← hclean] at hc
    have hc := (strip_sublist pySpace _).subset ((List.rdropWhile_prefix _ _).subset hc)
    obtain ⟨d, hd, rfl⟩ := List.mem_map.mp hc
    split
    · exact ⟨by decide, fun _ => List.mem_cons_self⟩
    · exact ⟨fun heq => hslash (heq ▸ hd), fun hcontrol => absurd hcontrol ‹_›⟩
  have hupload : StoredName uploadName := by simpa using StoredName.upload List.not_mem_nil
  by_cases hnone : clean = [] ∨ clean = ['.'] ∨ clean = ['.', '.']
  · rw [if_pos hnone, if_neg hupload.payload]
    exact ⟨hupload, fun c hc _ => by simp [ownText, hc]⟩
  · rw [if_neg hnone]
    rw [not_or, not_or] at hnone
    split
    · rename_i hmetadata
      rw [hmetadata]
      refine ⟨?_, fun c hc _ => by grind [ownText]⟩
      rw [metadataFilename_eq, String.toList_ofList]
      exact ⟨by decide, by decide, by decide, by decide, by rw [metadataFilename_eq]; decide⟩
    · have hslash' : '/' ∉ clean := fun hmem => (hchars _ hmem).1 rfl
      exact ⟨⟨hnone.1, hslash', hnone.2.1, hnone.2.2, ‹_›⟩, fun c hc => (hchars c hc).2⟩

/-- Whatever name a client sends, the payload gets a name of its own in the directory of the upload. -/
theorem sanitizeUploadFilename_spec (nfc : Text → Text) (control : Char → Bool) (filename : Text) :
    Bounded (cleanName nfc control filename) (sanitizeUploadFilename nfc control filename) ∧
      ∀ c ∈ sanitizeUploadFilename nfc control filename, control c = true → c ∈ ownText := by
  obtain ⟨hclean, hown⟩ := cleanName_spec nfc control filename
  have hbound := hclean.bound
  refine ⟨hbound, fun c hc hcontrol => ?_⟩
  rcases List.mem_append.mp (hbound.chars hc) with hmem | hmem
  · exact hown c hmem hcontrol
  · simp [ownText, hmem]

end PrivaCloud.AgentRunner.Uploads
