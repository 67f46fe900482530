import Mathlib.Data.List.Sort
import Mathlib.Data.Prod.Lex
import Mathlib.Data.String.Basic
import VouchSpec.Library.Text
import VouchSpec.Commerce.Platform

/-! The capture of a directory tree: the limits it keeps, the files it takes and
the entries it refuses. -/

namespace VouchSpec

namespace Inspection

/-- `ScanLimits`, which are checked as they are built. -/
structure ScanLimits where
  maxFiles : Nat := 1000
  maxEntries : Nat := 2000
  maxDirectories : Nat := 256
  maxDepth : Nat := 32
  maxPathBytes : Nat := 1024
  maxReferences : Nat := 1000
  maxDependencies : Nat := 1000
  maxReferencedHosts : Nat := 500
  maxRequirementEvidencePerKind : Nat := 20
  maxTotalBytes : Nat := 25000000
  maxFileBytes : Nat := 2000000
  maxSkillMdBytes : Nat := 1000000
  maxTextBytes : Nat := 1000000
  maxFindings : Nat := 500
  maxFindingsPerRule : Nat := 30
  positive : 1 ≤ maxFiles ∧ 1 ≤ maxEntries ∧ 1 ≤ maxDirectories ∧ 1 ≤ maxDepth ∧ 1 ≤ maxPathBytes ∧
    1 ≤ maxReferences ∧ 1 ≤ maxDependencies ∧ 1 ≤ maxReferencedHosts ∧ 1 ≤ maxRequirementEvidencePerKind ∧
    1 ≤ maxTotalBytes ∧ 1 ≤ maxFileBytes ∧ 1 ≤ maxSkillMdBytes ∧ 1 ≤ maxTextBytes ∧ 1 ≤ maxFindings ∧
    1 ≤ maxFindingsPerRule := by decide
  ceilings : maxFiles ≤ 1000 ∧ maxEntries ≤ 2000 ∧ maxDirectories ≤ 256 ∧ maxDepth ≤ 32 ∧ maxPathBytes ≤ 1024 ∧
    maxReferences ≤ 1000 ∧ maxDependencies ≤ 1000 ∧ maxReferencedHosts ≤ 500 ∧
    maxRequirementEvidencePerKind ≤ 20 ∧ maxTotalBytes ≤ 25000000 ∧ maxFileBytes ≤ 2000000 ∧
    maxSkillMdBytes ≤ 1000000 ∧ maxTextBytes ≤ 1000000 ∧ maxFindings ≤ 500 ∧ maxFindingsPerRule ≤ 30 := by decide
  nested : maxFiles ≤ maxEntries ∧ maxDirectories ≤ maxEntries ∧ maxFindingsPerRule ≤ maxFindings := by decide

/-- `ScanLimits()`. -/
abbrev ScanLimits.default : ScanLimits := {}

/-- An entry of a directory. -/
inductive Entry where
  | link
  | special
  | file (links : Nat) (content : Bytes)
  | directory (entries : List (String × Entry))

/-- The Unicode functions that paths go through. -/
structure Unicode where
  casefold : String → String
  normalizeNfc : String → String
  lower : String → String

structure FileData where
  path : String
  size : Nat
  sha256 : String
  content : Bytes
deriving DecidableEq

/-- When a capture began and ended, and whose clock said so. -/
structure CaptureTimes where
  startedAt : String
  completedAt : String
  source : String
deriving DecidableEq

structure Snapshot where
  root : List String
  files : List FileData
  totalBytes : Nat
  directorySha256 : String
  excludedPaths : List String
  times : CaptureTimes
deriving DecidableEq

/-- `root.name`. -/
def Snapshot.rootName (snapshot : Snapshot) : String := snapshot.root.getLast?.getD ""

/-- `snapshot.get`. -/
def Snapshot.get? (snapshot : Snapshot) (relativePath : String) : Option FileData :=
  snapshot.files.find? fun item => item.path = relativePath

def pathRejected (message : String) : Raised := rejected message "path_rejected"

def limitExceeded (message : String) : Raised := rejected message "limit_exceeded"

def excludedDirectoryNames : List String := [".git", ".hg", ".svn"]

/-- A count in decimal digits. -/
def shown (count : Nat) : String := String.ofList (Nat.toDigits 10 count)

def truncated (count : Nat) (value : String) : String := String.ofList (value.toList.take count)

/-- The path of a name in a directory; the root has the empty path. -/
def childPath (parent name : String) : String := if parent = "" then name else parent ++ "/" ++ name

def isExcluded (name : String) : Bool := name ∈ excludedDirectoryNames

section
variable (u : Unicode) (limits : ScanLimits)

mutual
/-- The entries of every directory in the order of their folded names. -/
def Entry.inOrder : Entry → Entry
  | .directory entries =>
      .directory ((entriesInOrder entries).insertionSort fun first second =>
        toLex (u.casefold first.1, first.1) ≤ toLex (u.casefold second.1, second.1))
  | entry => entry

def entriesInOrder : List (String × Entry) → List (String × Entry)
  | [] => []
  | (name, entry) :: rest => (name, entry.inOrder) :: entriesInOrder rest
end

/-- What the walk over a tree comes to: a directory that is listed, or an entry of it. -/
inductive Visit where
  | directory (depth entryCount : Nat)
  | entry (relative name : String) (entry : Entry)

mutual
/-- The walk of `_iter_entries`: all entries of a directory before those of the
directories in it. -/
def Entry.visits (path : String) (depth : Nat) : Entry → List Visit
  | .directory entries =>
      .directory depth entries.length ::
        (entries.map (fun child => Visit.entry (childPath path child.1) child.1 child.2) ++
          childVisits path depth entries)
  | _ => []

def childVisits (path : String) (depth : Nat) : List (String × Entry) → List Visit
  | [] => []
  | (name, entry) :: rest =>
      (if isExcluded name = true then [] else entry.visits (childPath path name) (depth + 1)) ++
        childVisits path depth rest
end

/-- `_validate_relative_path`. -/
def validateRelativePath (relative : String) : Except Raised Unit := do
  require (relative ≠ "" ∧ (Bytes.utf8 relative.toList).length ≤ limits.maxPathBytes)
    (pathRejected ("artifact path exceeds the " ++ shown limits.maxPathBytes ++ " byte limit"))
  require (u.normalizeNfc relative = relative)
    (pathRejected ("artifact path is not Unicode NFC: " ++ truncated 200 relative))
  require (relative.toList.all (fun c => c.toNat ≠ 92 ∧ 32 ≤ c.toNat ∧ c.toNat ≠ 127) = true)
    (pathRejected ("artifact path contains a disallowed character: " ++ truncated 200 relative))

/-- What a capture has come to. -/
structure Capture where
  entryCount : Nat := 0
  directoryCount : Nat := 0
  files : List FileData := []
  excluded : List String := []
  totalBytes : Nat := 0
  normalizedPaths : List String := []

/-- The bounds that a directory of the walk has to keep. -/
def Capture.listDirectory (capture : Capture) (depth entryCount : Nat) : Except Raised Capture := do
  require (depth ≤ limits.maxDepth)
    (limitExceeded ("artifact exceeds the " ++ shown limits.maxDepth ++ " directory-depth limit"))
  require (capture.directoryCount + 1 ≤ limits.maxDirectories)
    (limitExceeded ("artifact exceeds the " ++ shown limits.maxDirectories ++ " directory limit"))
  require (capture.entryCount + entryCount ≤ limits.maxEntries)
    (limitExceeded ("artifact exceeds the " ++ shown limits.maxEntries ++ " entry limit"))
  return { capture with
           entryCount := capture.entryCount + entryCount, directoryCount := capture.directoryCount + 1 }

def fileData (p : Platform) (path : String) (content : Bytes) : FileData :=
  { path, size := content.length, sha256 := (p.sha256 content).hexdigest, content }

/-- A regular file, read within its limits. -/
def Capture.readFile (p : Platform) (capture : Capture) (relative : String) (links : Nat) (content : Bytes) :
    Except Raised Capture := do
  require (links = 1) (pathRejected ("hard-linked files are not allowed: " ++ relative))
  require (capture.files.length < limits.maxFiles)
    (limitExceeded ("artifact exceeds the " ++ shown limits.maxFiles ++ " file limit"))
  require (content.length ≤ limits.maxFileBytes)
    (limitExceeded ("file exceeds the " ++ shown limits.maxFileBytes ++ " byte limit: " ++ relative))
  require (relative = "SKILL.md" → content.length ≤ limits.maxSkillMdBytes)
    (limitExceeded "SKILL.md exceeds its configured byte limit")
  require (capture.totalBytes + content.length ≤ limits.maxTotalBytes)
    (limitExceeded ("artifact exceeds the " ++ shown limits.maxTotalBytes ++ " byte total limit"))
  return { capture with
           totalBytes := capture.totalBytes + content.length
           files := capture.files ++ [fileData p relative content] }

/-- One step of the capture. -/
def Capture.visit (p : Platform) (capture : Capture) : Visit → Except Raised Capture
  | .directory depth entryCount => capture.listDirectory limits depth entryCount
  | .entry relative name entry => do
      require (entry matches .link → False)
        (pathRejected ("symbolic links and reparse points are not allowed: " ++ relative))
      validateRelativePath u limits relative
      require (u.casefold relative ∉ capture.normalizedPaths)
        (pathRejected ("case-insensitive path collision: " ++ relative))
      let capture := { capture with normalizedPaths := u.casefold relative :: capture.normalizedPaths }
      match entry with
      | .directory _ =>
          if isExcluded name = true then
            return { capture with excluded := capture.excluded ++ [relative ++ "/"] }
          else return capture
      | .file links content => capture.readFile limits p relative links content
      | _ => throw (pathRejected ("special filesystem entries are not allowed: " ++ relative))

/-- Eight bytes of a count, the most significant first. -/
def bigEndian (count : Nat) : Bytes := (List.range 8).reverse.map fun index => UInt8.ofNat (count / 256 ^ index)

def directoryDigestAlgorithm : String := "capabilityproof-directory-sha256-v1"

/-- What the digest of a directory is taken of. -/
def directoryBytes (files : List FileData) : Bytes :=
  Bytes.ascii directoryDigestAlgorithm ++ [0] ++ files.flatMap fun item =>
    let encodedPath := Bytes.utf8 item.path.toList
    bigEndian encodedPath.length ++ encodedPath ++ bigEndian item.size ++ item.content

/-- `collect_snapshot` of a tree that does not change meanwhile, which leaves out the
comparisons of one look at the tree with the next. -/
def collectSnapshot (p : Platform) (root : List String) (tree : Option Entry) (times : CaptureTimes) :
    Except Raised Snapshot := do
  let tree ← Except.ofOption (pathRejected "artifact root does not exist") tree
  require (tree matches .link → False)
    (pathRejected "artifact root may not be a symbolic link or reparse point")
  require (tree matches .directory _) (pathRejected "artifact root must be a directory")
  let rootName := root.getLast?.getD ""
  validateRelativePath u limits rootName
  require (rootName.toList.length ≤ 255) (pathRejected "artifact root name exceeds 255 characters")
  let capture ← ((Entry.inOrder u tree).visits "" 0).foldlM (Capture.visit u limits p) {}
  let files := capture.files.insertionSort fun first second =>
    Bytes.utf8 first.path.toList ≤ Bytes.utf8 second.path.toList
  return { root, files, totalBytes := capture.totalBytes
           directorySha256 := (p.sha256 (directoryBytes files)).hexdigest
           excludedPaths := capture.excluded.insertionSort fun first second => first ≤ second, times }

end

end Inspection

end VouchSpec
