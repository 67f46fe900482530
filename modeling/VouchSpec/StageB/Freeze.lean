import VouchSpec.Commerce.Contract
import VouchSpec.Inspection.Snapshot
import VouchSpec.Library.Canonical
import VouchSpec.Signing.Receipt
import VouchSpec.StageB.Extraction

/-! The freezing of a public source: its manifest, how a frozen source is verified again,
and the directory that earlier freezes are found in. -/

namespace VouchSpec

namespace StageB

open Inspection Signing

def frozenSourceProfile : String := "vouchspec-frozen-public-git-v1"

def frozenSourceInvalid (message : String) : Raised := rejected message "frozen_source_invalid"

def frozenSourceMutated (message : String) : Raised := rejected message "frozen_source_mutated"

/-- What lies in the directory of a frozen source. -/
structure FrozenDirectory where
  root : List String
  manifest : Option Bytes
  entryAt : List String → Option Entry

structure FrozenSource where
  root : List String
  artifactRoot : List String
  manifest : Json
deriving DecidableEq

def repositoryUrl (source : Source) : String :=
  "https://github.com/" ++ source.owner ++ "/" ++ source.repository ++ ".git"

/-- `PurePosixPath("source") / PurePosixPath(skill_path).name`, by its names. -/
def artifactNames (skillPath : String) : List String := ["source", (PosixPath.ofString skillPath).name]

def requestDigest (p : Platform) (request : ValidationRequest) : String :=
  (p.sha256 (deterministicJson request.toJson)).hexdigest

/-- `_manifest_digest`. -/
def manifestDigest (p : Platform) (manifest : Json) : String :=
  (p.sha256 (deterministicJson (Json.without ["manifest_digest"] manifest))).hexdigest

/-- A file of the manifest. -/
def fileEntry (file : FileData) (metadata : Metadata) : Json :=
  .obj [("path", .str file.path), ("size", .int file.size), ("sha256", .str file.sha256),
    ("git_blob_sha1", .str metadata.gitBlobSha1), ("git_mode", .str metadata.gitMode)]

/-- The loop over the files of the snapshot. -/
def freezeFiles (expected : List (String × Metadata)) (recorded : List (String × String)) (snapshot : Snapshot) :
    Except Raised (List Json) :=
  snapshot.files.mapM fun file => do
    let metadata ← Except.ofOption .keyError (expected.lookup file.path)
    require (recorded.lookup file.path = some file.sha256 ∧ metadata.size = file.size)
      (rejected "frozen snapshot did not match the Git archive" "freeze_failed")
    return fileEntry file metadata

/-- The phases of the network that a manifest can name. -/
def networkPhases : List String := ["completed_before_worker", "kernel_quota_fetch_completed_before_worker"]

section
variable (t : Toolkit)

/-- The members of a manifest without its own digest. -/
def manifestMembers (request : ValidationRequest) (fetched networkPhase : String) (snapshot : Snapshot)
    (files : List Json) : List (String × Json) :=
  [("schema_version", .str "1.0.0"), ("profile", .str frozenSourceProfile),
    ("request_digest", .str ("sha256:" ++ requestDigest t.toPlatform request)), ("source", request.source.toJson),
    ("repository_url", .str (repositoryUrl request.source)), ("fetched_commit", .str fetched),
    ("frozen_artifact_path", .str (PosixPath.join (artifactNames request.source.skillPath))),
    ("artifact_directory_sha256", .str snapshot.directorySha256), ("file_count", .int files.length),
    ("total_bytes", .int snapshot.totalBytes), ("files", .arr files), ("network_phase", .str networkPhase),
    ("artifact_execution", .str "not_performed")]

def freezeManifest (members : List (String × Json)) : Json :=
  .obj (members ++ [("manifest_digest", .str ("sha256:" ++ manifestDigest t.toPlatform (.obj members)))])

/-- `load_strict_commerce_json`. -/
def loadStrictCommerceJson (text : Bytes) : Except Raised Json :=
  Except.ofOption (rejected "commerce request must be valid JSON" "invalid_commerce_request") (t.loads text)

/-- `_SHA256.fullmatch`. -/
def isSha256Reference (text : String) : Bool :=
  Pattern.afterPrefix "sha256:" (Pattern.fullmatch Bytes.isHexDigit 64 64) text.toList

/-- A value that can be looked up in a set. -/
def isHashable : Json → Bool
  | .arr _ => false
  | .obj _ => false
  | _ => true

/-- A number is equal to a count; a boolean is a number. -/
def equalsCount (count : Nat) : Json → Bool
  | .int value => value = count
  | .bool value => value.toNat = count
  | _ => false

def manifestFields : List String :=
  ["schema_version", "profile", "request_digest", "source", "repository_url", "fetched_commit", "frozen_artifact_path",
    "artifact_directory_sha256", "file_count", "total_bytes", "files", "network_phase", "artifact_execution",
    "manifest_digest"]

/-- The request that a manifest's source is checked in. -/
def sourceRequest (manifest : Json) : Json :=
  .obj [("schema_version", .str "1.0.0"), ("operation", .str "fresh_public_static_validation"),
    ("source", manifest.member "source"), ("profile", .str freshValidationProfile),
    ("max_price", .obj [("currency", .str freshValidationCurrency), ("amount_minor", .int 4900)]),
    ("delivery_id", .str "frozen_verify")]

/-- The checks of a file of the manifest by itself. -/
def checkFileEntry (item : Json) : Except Raised Unit := do
  require (item.hasExactly ["path", "size", "sha256", "git_blob_sha1", "git_mode"] = true ∧
      ((item.member "git_blob_sha1").str?.any Pattern.commit) = true)
    (frozenSourceMutated "frozen source file inventory changed")
  require (isHashable (item.member "git_mode") = true) .typeError
  require (item.member "git_mode" = .str "100644" ∨ item.member "git_mode" = .str "100755")
    (frozenSourceMutated "frozen source file inventory changed")

/-- A file of the manifest is the one of the snapshot. -/
def matchesFile (item : Json) (file : FileData) : Bool :=
  item.member "path" = .str file.path && equalsCount file.size (item.member "size") &&
    item.member "sha256" = .str file.sha256

/-- The items of a list, if it is one. -/
def items? : Json → Option (List Json)
  | .arr items => some items
  | _ => none

/-- The checks of a manifest before the directory is looked at, and the source it names. -/
def checkManifest (manifest : Json) : Except Raised Source := do
  require (manifest.hasExactly manifestFields = true) (frozenSourceInvalid "frozen source manifest fields are invalid")
  require (manifest.member "schema_version" = .str "1.0.0" ∧ manifest.member "profile" = .str frozenSourceProfile)
    (frozenSourceInvalid "frozen source manifest integrity failed")
  require (isHashable (manifest.member "network_phase") = true) .typeError
  require ((∃ phase ∈ networkPhases, manifest.member "network_phase" = .str phase) ∧
      manifest.member "artifact_execution" = .str "not_performed" ∧
      ((manifest.member "manifest_digest").str?.any isSha256Reference) = true ∧
      manifest.member "manifest_digest" = .str ("sha256:" ++ manifestDigest t.toPlatform manifest))
    (frozenSourceInvalid "frozen source manifest integrity failed")
  let source := (← parseFreshValidationRequest (sourceRequest manifest)).source
  require ((manifest.member "source").sorted = source.toJson ∧
      manifest.member "repository_url" = .str (repositoryUrl source) ∧
      manifest.member "fetched_commit" = .str source.commit ∧
      manifest.member "frozen_artifact_path" = .str (PosixPath.join (artifactNames source.skillPath)))
    (frozenSourceInvalid "frozen source coordinates are inconsistent")
  return source

/-- The comparison of a manifest with a snapshot. -/
def checkInventory (manifest : Json) (snapshot : Snapshot) : Except Raised Unit := do
  let items ← Except.ofOption (frozenSourceMutated "frozen source file inventory changed")
    (items? (manifest.member "files"))
  items.forM checkFileEntry
  require (items.length = snapshot.files.length ∧ ∀ pair ∈ items.zip snapshot.files, matchesFile pair.1 pair.2 = true)
    (frozenSourceMutated "frozen source file inventory changed")
  require (equalsCount snapshot.files.length (manifest.member "file_count") = true ∧
      equalsCount snapshot.totalBytes (manifest.member "total_bytes") = true ∧
      manifest.member "artifact_directory_sha256" = .str snapshot.directorySha256)
    (frozenSourceMutated "frozen source digest changed")

variable (u : Unicode) (limits : ScanLimits)

/-- `verify_frozen_source`. -/
def verifyFrozenSource (directory : FrozenDirectory) (times : CaptureTimes) : Except Raised FrozenSource := do
  let text ← Except.ofOption (frozenSourceInvalid "frozen source manifest is missing") directory.manifest
  let manifest ← loadStrictCommerceJson t text
  let source ← checkManifest t manifest
  let artifactRoot := directory.root ++ artifactNames source.skillPath
  let snapshot ← collectSnapshot u limits t.toPlatform artifactRoot (directory.entryAt (artifactNames source.skillPath)) times
  checkInventory manifest snapshot
  return { root := directory.root, artifactRoot, manifest }

end

/-- What lies in a directory of the output root. -/
structure Stored where
  manifest : Option Bytes
  entryAt : List String → Option Entry

/-- The directory that freezes are kept in, with what lies in it. -/
structure OutputRoot where
  path : List String
  entries : String → Option Stored

/-- What Git answers about the repository that was fetched. -/
structure Repository where
  fetchHead : Except Raised Bytes
  objectType : Except Raised Bytes
  listing : Except Raised Bytes
  archive : Except Raised Archive

/-- What a freeze works with: a disk with an empty directory of its own, whether a fetcher is
given, the fetch, the walk over a directory of a disk, and the times of its two captures. -/
structure Attempt where
  disk : Disk
  workRoot : List String
  fetcher : Bool
  fetch : Source → Except Raised Repository
  scan : Disk → List String → Option Entry
  captured : CaptureTimes
  verified : CaptureTimes

def networkPhaseOf (fetcher : Bool) : String :=
  if fetcher = true then "kernel_quota_fetch_completed_before_worker" else "completed_before_worker"

def isBlank (c : Char) : Bool := (9 ≤ c.toNat && c.toNat ≤ 13) || (28 ≤ c.toNat && c.toNat ≤ 32)

/-- `answer.decode("ascii", errors="strict").strip()`. -/
def answerText (answer : Bytes) : Except Raised String := do
  require (answer.all (fun byte => byte.toNat < 128) = true) (.valueError "'ascii' codec can't decode the answer")
  let text := answer.map fun byte => Char.ofNat byte.toNat
  return String.ofList ((text.dropWhile isBlank).reverse.dropWhile isBlank).reverse

section
variable (t : Toolkit) (sha1 : Bytes → Bytes) (u : Unicode) (limits : ScanLimits)

/-- The body of the `try` up to the moving of the directory: what then lies in it. -/
def buildFrozen (request : ValidationRequest) (attempt : Attempt) : Except Failure Stored := do
  let skillPath := request.source.skillPath
  let artifactRoot := attempt.workRoot ++ artifactNames skillPath
  let repository ← (attempt.fetch request.source).mapError refused
  let fetched ← (repository.fetchHead >>= answerText).mapError refused
  require (fetched = request.source.commit)
    (refused (rejected "fetched commit did not match the request" "source_commit_mismatch"))
  let objectType ← (repository.objectType >>= answerText).mapError refused
  require (objectType = "tree")
    (refused (rejected "requested skill path is not a Git tree" "source_scope_invalid"))
  let listing ← repository.listing.mapError refused
  let expected ← parseTreeListing u limits skillPath listing
  let archive ← repository.archive.mapError refused
  let (outcome, extraction) := extractVerifiedArchive t.toPlatform sha1 u limits skillPath expected artifactRoot archive
    { disk := attempt.disk, seen := [], recorded := [] }
  outcome.mapError refused
  let snapshot ← (collectSnapshot u limits t.toPlatform artifactRoot (attempt.scan extraction.disk artifactRoot)
    attempt.captured).mapError refused
  let files ← (freezeFiles expected extraction.recorded snapshot).mapError refused
  let manifest := freezeManifest t (manifestMembers t request fetched (networkPhaseOf attempt.fetcher) snapshot files)
  return { manifest := some (jsonLine manifest)
           entryAt := fun names => attempt.scan extraction.disk (attempt.workRoot ++ names) }

/-- `verify_frozen_source(target)`. -/
def verifyTarget (output : OutputRoot) (name : String) (times : CaptureTimes) : Except Failure FrozenSource := do
  let stored ← Except.ofOption (refused .fileError) (output.entries name)
  (verifyFrozenSource t u limits ⟨output.path ++ [name], stored.manifest, stored.entryAt⟩ times).mapError refused

/-- `freeze_public_source`, with no other process at work in the output root. -/
def freezePublicSource (requestValue : Json) (attempt : Attempt) : Routine OutputRoot Failure FrozenSource := do
  let request ← Routine.reading fun _ => (parseFreshValidationRequest requestValue).mapError refused
  let digest := requestDigest t.toPlatform request
  let existing ← Routine.reading fun output => .ok (output.entries digest)
  if existing.isSome = true then
    Routine.reading fun output => verifyTarget t u limits output digest attempt.verified
  else
    Routine.transaction fun output => do
      let stored ← buildFrozen t sha1 u limits request attempt
      return ({ output with entries := Function.update output.entries digest (some stored) }, ())
    Routine.reading fun output => verifyTarget t u limits output digest attempt.verified

end

end StageB

end VouchSpec
