import VouchSpec.Inspection.Receipt
import VouchSpec.Library.PosixPath
import VouchSpec.Library.Slice
import VouchSpec.StageB.Listing

/-! The provenance of a skill: what Git answers about its repository, compared with the
files that were captured, and the receipt that is bound to it. -/

namespace VouchSpec

namespace Inspection

open Signing

/-- The parts of a URL, as `urlsplit` returns them; the port is read only when it is
asked for, and may be no number. -/
structure SplitResult where
  scheme : String
  netloc : String
  path : String
  query : String
  fragment : String
  username : Option String
  password : Option String
  hostname : Option String
  port : Option (Option Nat)

/-- The functions of `urllib.parse`. -/
structure UrlTools where
  urlsplit : String → Except Raised SplitResult
  urlunsplit : String → String → String → String

/-- What the commands answer in one repository; the top level is resolved. -/
structure Git where
  topLevel : Except Raised (List String)
  head : Except Raised String
  tracked : String → Except Raised Bytes
  blobs : Bytes → Except Raised Bytes
  staged : String → Except Raised String
  origin : Except Raised String

def provenanceFailed (message : String) : Raised := rejected message "provenance_failed"

def scopeMismatch (message : String) : Raised := rejected message "provenance_scope_mismatch"

/-- `COMMIT_PATTERN.fullmatch`. -/
def matchesCommit (value : String) : Bool :=
  (value.toList.length = 40 || value.toList.length = 64) && value.toList.all Bytes.isHexDigit

/-- The path of a file in its repository. -/
def trackedPath (artifactRelative path : String) : String :=
  if artifactRelative ≠ "." then artifactRelative ++ "/" ++ path else path

/-- The names of the blobs, one on each line. -/
def blobRequest (artifactRelative : String) (files : List FileData) : Bytes :=
  files.flatMap fun item => Bytes.utf8 ("HEAD:" ++ trackedPath artifactRelative item.path).toList ++ [10]

def three? : List Bytes → Option (Bytes × Bytes × Bytes)
  | [objectName, objectType, encodedSize] => some (objectName, objectType, encodedSize)
  | _ => none

/-- One turn of the loop of `_verify_commit_blobs`, from a cursor to the next. -/
def checkBlob (raw : Bytes) (cursor : Int) (item : FileData) : Except Raised Int := do
  let headerEnd ← Except.ofOption (provenanceFailed "Git blob response was incomplete") (Slice.find raw 10 cursor)
  let header := StageB.fieldsOf (Slice.slice raw cursor headerEnd)
  let (_, objectType, encodedSize) ← Except.ofOption (scopeMismatch "Git commit blob could not be resolved")
    (three? header)
  require (objectType = Bytes.ascii "blob") (scopeMismatch "Git commit blob could not be resolved")
  let size ← Except.ofOption (provenanceFailed "Git blob size was invalid") (StageB.intOf? encodedSize)
  let contentStart : Int := headerEnd + 1
  let contentEnd := contentStart + size
  require (contentEnd < raw.length ∧ Slice.slice raw contentEnd (contentEnd + 1) = [10])
    (provenanceFailed "Git blob response was malformed")
  require (Slice.slice raw contentStart contentEnd = item.content)
    (rejected "working-tree bytes do not exactly match the referenced Git commit" "provenance_blob_mismatch")
  return contentEnd + 1

/-- `_verify_commit_blobs`. -/
def verifyCommitBlobs (git : Git) (snapshot : Snapshot) (artifactRelative : String) : Except Raised Unit := do
  let raw ← git.blobs (blobRequest artifactRelative snapshot.files)
  let cursor ← snapshot.files.foldlM (checkBlob raw) 0
  require (cursor = raw.length) (provenanceFailed "Git blob response contained unexpected data")

section
variable (u : Unicode) (urls : UrlTools)

/-- `_sanitize_remote`. -/
def sanitizeRemote (remote : String) : Except Raised String := do
  require (remote.toList.length ≤ 2048 ∧ remote.toList.all (fun c => 32 ≤ c.toNat) = true)
    (provenanceFailed "Git remote URL is invalid")
  let parsed ← urls.urlsplit remote
  if parsed.scheme ≠ "" ∧ parsed.netloc ≠ "" then
    require (u.lower parsed.scheme ∈ ["http", "https", "ssh", "git", "git+ssh"])
      (provenanceFailed "Git remote URL scheme is unsupported")
    let hostname := parsed.hostname.getD ""
    require (hostname ≠ "") (provenanceFailed "Git remote URL has no host")
    let parsedPort ← Except.ofOption (provenanceFailed "Git remote URL port is invalid") parsed.port
    let displayHostname :=
      if ':' ∈ hostname.toList then "[" ++ u.lower hostname ++ "]" else u.lower hostname
    let port := match parsedPort with
      | some number => if number = 0 then "" else ":" ++ shown number
      | none => ""
    return urls.urlunsplit (u.lower parsed.scheme) (displayHostname ++ port) parsed.path
  let address := Lines.afterFirst '@' remote.toList
  -- a remote in the form of `scp`, whose user is removed
  require ('@' ∈ remote.toList ∧ ':' ∈ address) (provenanceFailed "Git origin must be a network repository URL")
  return String.ofList (Lines.before '#' (Lines.before '?' address))

/-- `verify_git_provenance`, in the repository whose resolved root is given. -/
def verifyGitProvenance (git : Git) (snapshot : Snapshot) (repositoryRoot : Except Raised (List String)) :
    Except Raised ProvenanceEvidence := do
  let root ← repositoryRoot
  require (root <+: snapshot.root) (pathRejected "artifact must be inside the repository root")
  let artifactRelative := (PosixPath.mk "" (snapshot.root.drop root.length)).asPosix
  let actualRoot ← git.topLevel
  require (actualRoot = root) (provenanceFailed "configured repository root is not the Git top level")
  let head ← git.head
  let commit := u.lower head
  require (matchesCommit commit = true) (provenanceFailed "Git commit identity is invalid")
  let trackedRaw ← git.tracked artifactRelative
  let parts := (trackedRaw.splitOn 0).filter fun part => part ≠ []
  let tracked ← Except.ofOption (provenanceFailed "tracked Git paths were not UTF-8") (parts.mapM Bytes.decodeUtf8)
  let expected := snapshot.files.map fun item => (trackedPath artifactRelative item.path).toList
  require (tracked.all expected.contains = true ∧ expected.all tracked.contains = true)
    (scopeMismatch "artifact file set does not exactly match tracked Git files")
  verifyCommitBlobs git snapshot artifactRelative
  let staged ← git.staged artifactRelative
  require ((Lines.split staged.toList).all (fun line => !("160000 ".toList.isPrefixOf line)) = true)
    (scopeMismatch "Git submodules are outside the MVP provenance scope")
  let origin ← git.origin
  let remote ← sanitizeRemote u urls origin
  require (remote ≠ "") (provenanceFailed "Git origin remote is required for Level 2 provenance")
  return { repositoryUrl := remote, commit, artifactPath := artifactRelative }

end

/-- A checkout of a skill, and the three looks that are taken at its tree. -/
structure Checkout where
  git : Git
  repositoryRoot : Except Raised (List String)
  artifact : List String
  first : Option Entry
  second : Option Entry
  third : Option Entry

section
variable (t : Toolkit) (lib : Libraries) (urls : UrlTools) (runtime : Runtime) (limits : ScanLimits)

/-- `inspect_git_skill`. -/
def inspectGitSkill (clock : Clock) (checkout : Checkout) (generatedAt : Option String) (expiresInDays : Int)
    (independentStaticScan : Bool) : Except Raised Json := do
  let times := captureTimes t none 0 clock
  let snapshot ← collectSnapshot lib.toUnicode limits t.toPlatform checkout.artifact checkout.first times
  let provenance ← verifyGitProvenance lib.toUnicode urls checkout.git snapshot checkout.repositoryRoot
  let second ← collectSnapshot lib.toUnicode limits t.toPlatform checkout.artifact checkout.second times
  require (second.directorySha256 = snapshot.directorySha256)
    (rejected "artifact changed during provenance verification" "input_changed")
  let receipt ← inspectSkill t lib runtime limits clock checkout.artifact checkout.third generatedAt expiresInDays
    (some provenance) independentStaticScan
  let sha256 ← item (← item (← item receipt "artifact") "digest") "sha256"
  require (sha256 = .str snapshot.directorySha256)
    (rejected "artifact changed while the receipt was being built" "input_changed")
  return receipt

end

section
variable {u : Unicode} {urls : UrlTools}

/-- What verified provenance says: a commit, a repository, and where in it. -/
theorem verifyGitProvenance_eq_ok {git : Git} {snapshot : Snapshot} {repositoryRoot : Except Raised (List String)}
    {provenance : ProvenanceEvidence} (h : verifyGitProvenance u urls git snapshot repositoryRoot = .ok provenance) :
    matchesCommit provenance.commit = true ∧ provenance.repositoryUrl ≠ "" ∧
      ∃ names, names <:+ snapshot.root ∧ provenance.artifactPath = (PosixPath.mk "" names).asPosix := by
  simp only [verifyGitProvenance, Except.bind_eq_ok_iff, require_eq_ok, exists_const, Except.pure_eq_ok_iff] at h
  obtain ⟨root, -, -, _, -, -, _, -, hCommit, _, -, _, -, -, _, -, _, -, -, _, -, remote, -, hRemote, rfl⟩ := h
  exact ⟨hCommit, hRemote, _, List.drop_suffix _ _, rfl⟩

end

end Inspection

end VouchSpec
