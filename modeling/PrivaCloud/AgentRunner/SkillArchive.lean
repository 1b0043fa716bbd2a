import Mathlib.Algebra.GroupWithZero.Nat
import Mathlib.Data.List.Dedup
import PrivaCloud.Framework.Dict
import PrivaCloud.Framework.FileTree
import PrivaCloud.Framework.Lines

/-!
# Uploads of skills

`upload_skill`, `upload_hub_skill` and the archive pipeline they share, over what the zip and tar
libraries make of the data. The path of a skills directory is given as it is once resolved.
-/

namespace PrivaCloud.AgentRunner.Skills

open Framework

abbrev Bytes := List UInt8

abbrev Path := List Text

abbrev SkillTree := FileTree Text Bytes

def maxUploadSize : Nat := 3 * 1024 * 1024

def maxArchiveEntries : Nat := 2000

def maxEntryBytes : Nat := 5 * 1024 * 1024

def maxTotalBytes : Nat := 50 * 1024 * 1024

def maxCompressionRatio : Nat := 200

def maxNameLength : Nat := 64

def maxDescriptionLength : Nat := 1024

def reservedWords : List Text := ["anthropic", "claude", "system", "admin", "root"].map String.toList

inductive UploadError
  /-- `HTTPException` -/
  | http (status : Nat) (detail : Text)
  /-- an exception of the file system or of a library that nothing catches -/
  | uncaught
  deriving DecidableEq

/-- `name.split("/")` -/
def splitSlash : Text → List Text
  | [] => [[]]
  | c :: cs =>
    if c = '/' then [] :: splitSlash cs
    else
      match splitSlash cs with
      | [] => [[c]]
      | part :: parts => (c :: part) :: parts

def endsWithSlash (name : Text) : Bool := name.getLast? = some '/'

def validateMemberName (name : Text) : Except UploadError Unit :=
  if name = [] ∨ name = ".".toList ∨ name = "./".toList then
    .error (.http 400 "Archive contains an empty entry name".toList)
  else if Char.ofNat 0 ∈ name then .error (.http 400 "Archive entry name contains NUL".toList)
  else if '\\' ∈ name then .error (.http 400 ("Archive entry name contains a backslash: ".toList ++ name))
  else if name.head? = some '/' ∨ name[1]? = some ':' then
    .error (.http 400 ("Archive contains an absolute path: ".toList ++ name))
  else if "..".toList ∈ splitSlash name then
    .error (.http 400 "Archive contains path traversal (..)".toList)
  else if [] ∈ (splitSlash name).dropLast then
    .error (.http 400 ("Archive entry name has an empty path component: ".toList ++ name))
  else .ok ()

def topOf (name : Text) : Text := (splitSlash name).headD []

inductive EntryKind
  | file
  | dir
  /-- a link, a device or a fifo -/
  | other
  deriving DecidableEq

structure Entry where
  name : Text
  /-- the declared size -/
  size : Nat
  kind : EntryKind := .file
  /-- none if reading it raises -/
  content : Option Bytes
  deriving DecidableEq

/-- An entry of a zip file is a directory if its name says so. -/
structure ZipInfo where
  filename : Text
  fileSize : Nat
  content : Option Bytes

def ZipInfo.entry (info : ZipInfo) : Entry where
  name := info.filename
  size := info.fileSize
  kind := if endsWithSlash info.filename then .dir else .file
  content := info.content

structure Upload where
  /-- `len(file_data)` -/
  length : Nat
  filename : Text
  /-- `zipfile.ZipFile(data).infolist()`, none if it raises `BadZipFile` -/
  zip : Option (List ZipInfo) := none
  /-- `tarfile.open(data, mode).getmembers()`, compressed or not, none if it raises -/
  tar : Bool → Option (List Entry) := fun _ => none

/-- `yaml.safe_load` -/
inductive Loaded
  | yamlError
  | raises
  /-- a false value -/
  | empty
  /-- the values of `name` and `description`, if they are strings -/
  | mapping (name description : Option Text)
  | other

structure SkillsEnv where
  /-- `str.lower` -/
  lower : Text → Text
  /-- `bytes.decode("utf-8", errors="replace")` -/
  decodeReplace : Bytes → Text
  safeLoad : Text → Loaded
  /-- `_personal_skills_dir()` -/
  personalSkillsDir : Path
  /-- `_runtime_skills_dir()` -/
  runtimeSkillsDir : Path

def guardDeclared (sizes : List Nat) (compressedLen : Nat) : Except UploadError Unit :=
  if maxArchiveEntries < sizes.length then
    .error (.http 400 "Archive has too many entries (max 2000)".toList)
  else if sizes.any (maxEntryBytes < ·) then .error (.http 400 "Archive entry exceeds 5MB uncompressed".toList)
  else if maxTotalBytes < sizes.sum then .error (.http 400 "Archive expands to more than 50MB".toList)
  else if compressedLen ≠ 0 ∧ compressedLen * maxCompressionRatio < sizes.sum then
    .error (.http 400 "Archive compression ratio looks like a decompression bomb".toList)
  else .ok ()

/-- `_read_bounded`: what was read, and the budget that is left -/
def readBounded (content : Bytes) (budget : Nat) : Except UploadError (Bytes × Nat) :=
  let allowed := min maxEntryBytes budget
  let chunk := content.take (allowed + 1)
  if allowed < chunk.length then .error (.http 400 "Archive entry is larger than its declared size".toList)
  else .ok (chunk, budget - chunk.length)

def getMember (entries : List Entry) (name : Text) : Option Entry :=
  entries.reverse.find? (·.name = name)

/-- `read_file`; a directory entry has nothing to read. -/
def readFile (entries : List Entry) (name : Text) (budget : Nat) : Except UploadError (Option Bytes × Nat) :=
  match getMember entries name with
  | none => .ok (none, budget)
  | some entry =>
    if entry.kind ≠ .file then .ok (none, budget)
    else
      match entry.content with
      | none => .error .uncaught
      | some content => (readBounded content budget).map fun (chunk, rest) => (some chunk, rest)

def extractZip (upload : Upload) : Except UploadError (List Entry) :=
  match upload.zip with
  | none => .error (.http 400 "Invalid zip file".toList)
  | some infos => do
    guardDeclared (infos.map (·.fileSize)) upload.length
    return infos.map ZipInfo.entry

def extractTar (upload : Upload) (gz : Bool) : Except UploadError (List Entry) :=
  match upload.tar gz with
  | none => .error (.http 400 "Invalid tar archive".toList)
  | some members =>
    match members.find? (·.kind = .other) with
    | some entry => .error (.http 400 ("Archive contains an unsupported entry type: ".toList ++ entry.name))
    | none => do
      guardDeclared (members.map (·.size)) upload.length
      return members

/-- `read_archive`, which dispatches on the extension -/
def readArchive (env : SkillsEnv) (upload : Upload) : Except UploadError (List Entry) :=
  let lowerName := env.lower upload.filename
  if ".zip".toList <:+ lowerName ∨ ".skill".toList <:+ lowerName then extractZip upload
  else if ".tar.gz".toList <:+ lowerName ∨ ".tgz".toList <:+ lowerName then extractTar upload true
  else if ".tar".toList <:+ lowerName then extractTar upload false
  else .error (.http 400 "Only .zip, .tar, .tar.gz, and .skill files are accepted".toList)

/-- `SKILL_NAME_RE.match`: its `$` also matches before a last line break. -/
def skillNameRe (name : Text) : Bool :=
  let body := if name.getLast? = some '\n' then name.dropLast else name
  body ≠ [] && body.all fun c => ('a' ≤ c && c ≤ 'z') || ('0' ≤ c && c ≤ '9') || c = '-'

/-- `XML_TAG_RE.search` -/
def hasXmlTag : Text → Bool
  | [] => false
  | c :: cs => c = '<' && cs.head? ≠ some '>' && cs.contains '>' || hasXmlTag cs

def validateSkillName (name : Text) : Except UploadError Unit :=
  if name = [] then .error (.http 422 "Skill name is required".toList)
  else if maxNameLength < name.length then .error (.http 422 "Skill name must be at most 64 characters".toList)
  else if !skillNameRe name then
    .error (.http 422 "Skill name must contain only lowercase letters, numbers, and hyphens".toList)
  else if hasXmlTag name then .error (.http 422 "Skill name must not contain XML tags".toList)
  else if name ∈ reservedWords then
    .error (.http 422 ("Skill name '".toList ++ name ++ "' is reserved".toList))
  else .ok ()

def validateSkillDescription (desc : Text) : Except UploadError Unit :=
  if desc = [] then .error (.http 422 "Skill description is required".toList)
  else if maxDescriptionLength < desc.length then
    .error (.http 422 "Skill description must be at most 1024 characters".toList)
  else if hasXmlTag desc then .error (.http 422 "Skill description must not contain XML tags".toList)
  else .ok ()

/-- `_validate_frontmatter`, which returns the name -/
def validateFrontmatter : Loaded → Except UploadError Text
  | .yamlError => .error (.http 422 "SKILL.md has invalid YAML frontmatter".toList)
  | .raises | .other => .error .uncaught
  | .empty | .mapping none _ =>
    .error (.http 422 "SKILL.md frontmatter must contain a 'name' field (string)".toList)
  | .mapping (some name) description => do
    validateSkillName name
    match description with
    | none => throw (.http 422 "SKILL.md frontmatter must contain a 'description' field (string)".toList)
    | some desc => validateSkillDescription desc
    return name

def fence : Text := ['-', '-', '-']

def beforeFence : Text → Option Text
  | [] => none
  | c :: cs => if fence <+: c :: cs then some [] else (beforeFence cs).map (c :: ·)

/-- The frontmatter between two fences, the first of which begins the text -/
def frontmatter (env : SkillsEnv) (text : Text) : Loaded :=
  if fence <+: text then
    match beforeFence (text.drop 3) with
    | some yaml => env.safeLoad yaml
    | none => .empty
  else .empty

structure Bundle where
  skillDirName : Text
  skillName : Text
  /-- what reading `SKILL.md` left of the budget -/
  budget : Nat
  deriving DecidableEq

def onlyTop (names : List Text) : Except UploadError Text :=
  match (names.map topOf).dedup with
  | [top] => .ok top
  | _ => .error (.http 400 "Archive must contain exactly one top-level directory".toList)

def validateBundle (env : SkillsEnv) (entries : List Entry) : Except UploadError Bundle := do
  let names := entries.map (·.name)
  names.forM validateMemberName
  let top ← onlyTop names
  let skillMd := top ++ "/SKILL.md".toList
  if skillMd ∉ names then throw (.http 400 ("Archive must contain ".toList ++ skillMd))
  match ← readFile entries skillMd maxTotalBytes with
  | (none, _) => throw (.http 400 "Could not read SKILL.md from archive".toList)
  | (some content, budget) =>
    let name ← validateFrontmatter (frontmatter env (env.decodeReplace content))
    return { skillDirName := top, skillName := name, budget := budget }

/-- The parts of a path text; empty ones and dots go away. -/
def components (relative : Text) : Path := (splitSlash relative).filter fun part => part ≠ [] ∧ part ≠ ['.']

/-- `_safe_resolve` below a directory that is reached without links -/
def safeResolve (tree : SkillTree) (base : Path) (relative : Text) : Except UploadError Path :=
  let start := if relative.head? = some '/' then [] else base
  let resolved := tree.resolve "..".toList start (components relative)
  if resolved = base ∨ ¬ base <+: resolved then .error (.http 400 "Path traversal detected".toList)
  else .ok resolved

/-- The file tree, the writes of files so far, and the budget of the reads -/
structure Disk where
  tree : SkillTree
  writes : List (Path × Bytes) := []
  budget : Nat

section Writing

variable (entries : List Entry) (top : Text) (dest : Path)

/-- `dest / relative` as a regular file with the content, its directories made -/
def writeContent (disk : Disk) (relative : Text) (content : Bytes) : Except UploadError Unit × Disk :=
  match safeResolve disk.tree dest relative with
  | .error e => (.error e, disk)
  | .ok path =>
    match disk.tree.makeDirs [] path.dropLast with
    | none => (.error .uncaught, disk)
    | some tree =>
      match tree.writeFile path content with
      | none => (.error .uncaught, { disk with tree := tree })
      | some tree' => (.ok (), { disk with tree := tree', writes := disk.writes ++ [(path, content)] })

/-- A turn of the loop of `write_bundle` -/
def writeMember (disk : Disk) (member : Text) : Except UploadError Unit × Disk :=
  if ¬ top ++ ['/'] <+: member then (.ok (), disk)
  else
    let relative := member.drop (top.length + 1)
    if relative = [] then (.ok (), disk)
    else if endsWithSlash member then
      match safeResolve disk.tree dest relative with
      | .error e => (.error e, disk)
      | .ok path =>
        match disk.tree.makeDirs [] path with
        | none => (.error .uncaught, disk)
        | some tree => (.ok (), { disk with tree := tree })
    else
      match readFile entries member disk.budget with
      | .error e => (.error e, disk)
      | .ok (none, _) => (.ok (), disk)
      | .ok (some content, budget) => writeContent dest { disk with budget := budget } relative content

def writeBundle (disk : Disk) : List Text → Except UploadError Unit × Disk
  | [] => (.ok (), disk)
  | member :: members =>
    match writeMember entries top dest disk member with
    | (.error e, disk') => (.error e, disk')
    | (.ok (), disk') => writeBundle disk' members

end Writing

structure Outcome where
  result : Except UploadError Text
  tree : SkillTree
  writes : List (Path × Bytes) := []

/-- Remove what is at the destination: `shutil.rmtree` refuses a file and a link, and `mkdir` a link that
leads nowhere. -/
def clearDest (tree : SkillTree) (dest : Path) : Option SkillTree :=
  match tree dest with
  | none => some tree
  | some .dir => some (tree.removeTree dest)
  | some _ => none

def replaceSkill (entries : List Entry) (bundle : Bundle) (skillsDir : Path) (tree : SkillTree) : Outcome :=
  let dest := skillsDir ++ [bundle.skillName]
  match clearDest tree dest with
  | none => { result := .error .uncaught, tree := tree }
  | some cleared =>
    match cleared.makeDirs [] dest with
    | none => { result := .error .uncaught, tree := cleared }
    | some made =>
      let (result, disk) := writeBundle entries bundle.skillDirName dest { tree := made, budget := bundle.budget }
        (entries.map (·.name))
      { result := result.map fun _ => bundle.skillName, tree := disk.tree, writes := disk.writes }

/-- The size check, `read_archive` and `validate_bundle` -/
def receive (env : SkillsEnv) (upload : Upload) : Except UploadError (List Entry × Bundle) := do
  if maxUploadSize < upload.length then throw (.http 413 "File exceeds 3MB size limit".toList)
  let entries ← readArchive env upload
  let bundle ← validateBundle env entries
  return (entries, bundle)

inductive SkillScope
  | personal
  | workdir

/-- `_resolve_skills_dir`; a `cwd` is given if it is an absolute path. -/
def resolveSkillsDir (env : SkillsEnv) : SkillScope → Option Path → Except UploadError Path
  | .personal, _ => .ok env.personalSkillsDir
  | .workdir, some cwd => .ok (cwd ++ [".claude".toList, "skills".toList])
  | .workdir, none =>
    .error (.http 400 "An absolute 'cwd' is required for workdir-scoped skills".toList)

def uploadSkill (env : SkillsEnv) (scope : SkillScope) (cwd : Option Path) (upload : Upload)
    (tree : SkillTree) : Outcome :=
  match receive env upload with
  | .error e => { result := .error e, tree := tree }
  | .ok (entries, bundle) =>
    match resolveSkillsDir env scope cwd with
    | .error e => { result := .error e, tree := tree }
    | .ok targetDir =>
      match tree.makeDirs [] targetDir with
      | none => { result := .error .uncaught, tree := tree }
      | some made => replaceSkill entries bundle targetDir made

def uploadHubSkill (env : SkillsEnv) (upload : Upload) (tree : SkillTree) : Outcome :=
  match receive env upload with
  | .error e => { result := .error e, tree := tree }
  | .ok (entries, bundle) => replaceSkill entries bundle env.runtimeSkillsDir tree

inductive Route
  | skill (scope : SkillScope) (cwd : Option Path)
  | hub

def uploadBy (env : SkillsEnv) : Route → Upload → SkillTree → Outcome
  | .skill scope cwd => uploadSkill env scope cwd
  | .hub => uploadHubSkill env

def Route.skillsDir (env : SkillsEnv) : Route → Except UploadError Path
  | .skill scope cwd => resolveSkillsDir env scope cwd
  | .hub => .ok env.runtimeSkillsDir

end PrivaCloud.AgentRunner.Skills
