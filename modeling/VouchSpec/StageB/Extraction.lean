import VouchSpec.Library.Disk
import VouchSpec.StageB.Listing

/-! The extraction of an archive, against the files that a listing expects. -/

namespace VouchSpec

namespace StageB

open Inspection

inductive MemberKind where
  | directory
  | regular
  | special
deriving DecidableEq

/-- What the archive library makes of the content of a member. -/
inductive Extracted where
  | nothing
  | broken
  | bytes (content : Bytes)
deriving DecidableEq

structure Member where
  name : Text
  kind : MemberKind
  linkname : Text
  size : Int
  extracted : Extracted
deriving DecidableEq

/-- The members that the archive library comes to, and whether it then fails. -/
structure Archive where
  members : List Member
  malformed : Bool

/-- The disk, the paths that have been written, and the digests added to their metadata. -/
structure Extraction where
  disk : Disk
  seen : List String
  recorded : List (String × String)

def slash : Point := .char '/'

/-- `name.rstrip("/")`. -/
def stripSlashes (name : Text) : Text := (name.reverse.dropWhile fun point => point = slash).reverse

/-- The name of a blob in Git. -/
def gitBlob (sha1 : Bytes → Bytes) (content : Bytes) : String :=
  String.ofList (Bytes.hex (sha1 (Bytes.ascii ("blob " ++ shown content.length) ++ 0 :: content)))

/-- `artifact_root.joinpath(*PurePosixPath(relative).parts)`: an absolute part leaves nothing of the root. -/
def destinationOf (artifactRoot : List String) (relative : String) : List String :=
  if (PosixPath.ofString relative).root = "" then artifactRoot ++ (PosixPath.ofString relative).names
  else (PosixPath.ofString relative).names

def archiveMismatch (message : String) : Raised := rejected message "source_archive_mismatch"

section
variable (p : Platform) (sha1 : Bytes → Bytes) (u : Unicode) (limits : ScanLimits) (skillPath : String)
  (expected : List (String × Metadata)) (artifactRoot : List String)

/-- `extracted.read(limits.max_file_bytes + 1)`, of as many bytes as the member says. -/
def readMember (member : Member) : Except Raised Bytes :=
  match member.extracted with
  | .nothing => .error (archiveMismatch "archive file could not be read")
  | .broken => .error (archiveMismatch "Git archive was malformed")
  | .bytes content => do
      let read := content.take (limits.maxFileBytes + 1)
      require ((read.length : Int) = member.size) (archiveMismatch "archive file length was inconsistent")
      return read

/-- The checks of one member: what is to be written, if anything. A name with a surrogate
passes none of the checks of its path. -/
def checkMember (seen : List String) (member : Member) : Except Raised (Option (String × Bytes)) := do
  let name := stripSlashes member.name
  let skill := Text.ofString skillPath
  if member.kind = .directory ∧ (name = skill ∨ name ++ [slash] <+: skill) then return none
  else
    require (skill ++ [slash] <+: name) (pathRejected "archive member escaped the requested skill path")
    let path ← Except.ofOption .unicodeEncodeError (Text.encode? (name.drop (skill ++ [slash]).length))
    let relative ← validateArtifactRelative u limits path
    if member.kind = .directory then return none
    else
      require (member.kind = .regular ∧ member.linkname = [])
        (pathRejected "archive links and special entries are not accepted")
      let metadata ← Except.ofOption (archiveMismatch "archive did not match the verified Git tree")
        (expected.lookup relative)
      require (relative ∉ seen ∧ member.size = metadata.size)
        (archiveMismatch "archive did not match the verified Git tree")
      let content ← readMember limits member
      require (gitBlob sha1 content = metadata.gitBlobSha1) (archiveMismatch "archive blob did not match Git metadata")
      return some (relative, content)

/-- A file is written, and its digest recorded. -/
def saveFile (relative : String) (content : Bytes) : Routine Extraction Raised Unit := fun state =>
  let destination := destinationOf artifactRoot relative
  match state.disk.makeDirectories destination.dropLast with
  | none => (.error .fileError, state)
  | some made =>
      match made.createFile destination content with
      | none => (.error (rejected "frozen source file could not be written" "freeze_failed"), { state with disk := made })
      | some disk => (.ok (),
          { disk, seen := relative :: state.seen
            recorded := (relative, (p.sha256 content).hexdigest) :: state.recorded })

def extractMember (member : Member) : Routine Extraction Raised Unit := do
  let found ← Routine.reading fun state => checkMember sha1 u limits skillPath expected state.seen member
  match found with
  | none => pure ()
  | some (relative, content) => saveFile p artifactRoot relative content

/-- `artifact_root.mkdir(parents=True)`. -/
def makeRoot : Routine Extraction Raised Unit := fun state =>
  if state.disk.at? artifactRoot = none then
    match state.disk.makeDirectories artifactRoot with
    | none => (.error .fileError, state)
    | some disk => (.ok (), { state with disk })
  else (.error .fileError, state)

/-- `_extract_verified_archive`. -/
def extractVerifiedArchive (archive : Archive) : Routine Extraction Raised Unit := do
  makeRoot artifactRoot
  archive.members.forM (extractMember p sha1 u limits skillPath expected artifactRoot)
  Routine.reading fun _ => require (archive.malformed = false) (archiveMismatch "Git archive was malformed")
  Routine.reading fun state =>
    require ((∀ path ∈ state.seen, path ∈ expected.map Prod.fst) ∧ ∀ path ∈ expected.map Prod.fst, path ∈ state.seen)
      (archiveMismatch "archive file set did not match the verified Git tree")

end

end StageB

end VouchSpec
