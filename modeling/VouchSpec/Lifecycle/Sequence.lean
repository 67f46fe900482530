import VouchSpec.Library.Outline
import VouchSpec.Library.Watermark
import VouchSpec.Lifecycle.Evaluation

/-! The file that remembers, for each root, the highest feed sequence and the
digest of that feed, and the evaluation that reads it before and writes it after. -/

namespace VouchSpec

namespace Lifecycle

open Signing

/-- What the file holds for a root. -/
abbrev Mark := Watermark String

abbrev Roots := List (String × Mark)

def invalidState (message : String) : Raised := rejected message "invalid_sequence_state"

/-- `value in {1, 2}`, where a boolean counts as its number. -/
def isVersion (value : Json) : Except Raised Bool :=
  match value with
  | .int number => .ok (decide (number = 1 ∨ number = 2))
  | .bool flag => .ok flag
  | .arr _ => .error .typeError
  | .obj _ => .error .typeError
  | _ => .ok false

/-- `value == 1`. -/
def isFirstVersion : Json → Bool
  | .int number => number = 1
  | .bool flag => flag
  | _ => false

/-- An entry of the file; the first version has bare sequences. -/
def readMark (first : Bool) (record : Json) : Except Raised Mark := do
  let record := if first then .obj [("sequence", record), ("feed_sha256", .null)] else record
  require (record.hasExactly ["sequence", "feed_sha256"] = true)
    (invalidState "lifecycle sequence entry is invalid")
  let sequence ← Except.ofOption (invalidState "lifecycle sequence entry is invalid")
    (record.member "sequence").int?
  require (1 ≤ sequence) (invalidState "lifecycle sequence entry is invalid")
  match record.member "feed_sha256" with
  | .null => return ⟨sequence, none⟩
  | .str digest => do
      require (digest.toList.length = 64) (invalidState "lifecycle sequence entry is invalid")
      return ⟨sequence, some digest⟩
  | _ => .error (invalidState "lifecycle sequence entry is invalid")

def readMarks (first : Bool) : List (String × Json) → Except Raised Roots
  | [] => .ok []
  | (keyid, record) :: rest => do
      let mark ← readMark first record
      let marks ← readMarks first rest
      return (keyid, mark) :: marks

/-- `roots.get(keyid)`. -/
def mark? (roots : Roots) (keyid : String) : Option Mark :=
  (roots.find? fun entry => entry.1 = keyid).map Prod.snd

/-- `roots[keyid] = mark`. -/
def setMark (keyid : String) (mark : Mark) : Roots → Roots
  | [] => [(keyid, mark)]
  | entry :: rest => if entry.1 = keyid then (keyid, mark) :: rest else entry :: setMark keyid mark rest

def markJson (mark : Mark) : Json :=
  .obj [("sequence", .int mark.sequence), ("feed_sha256", match mark.digest with
    | some digest => .str digest
    | none => .null)]

/-- The document that is written, as `json.dumps` with sorted names writes it. -/
def rootsDocument (roots : Roots) : Json :=
  .obj [("schema_version", .int 2), ("roots", .obj (roots.map fun entry => (entry.1, markJson entry.2)))]

def writeRoots (roots : Roots) : Bytes :=
  Bytes.utf8 ((rootsDocument roots).sorted.asciiText ++ [Char.ofNat 10])

/-- `hashlib.sha256(..).hexdigest()` has this form. -/
def isHexDigest (digest : String) : Bool :=
  digest.toList.length = 64 && digest.toList.all fun c => c ∈ "0123456789abcdef".toList

section
variable (t : Toolkit)

/-- `_load` of the file, or of none. -/
def load (file : Option Bytes) : Except Raised Roots :=
  match file with
  | none => .ok []
  | some bytes => do
      require (bytes.length ≤ 64000) (invalidState "lifecycle sequence state is unsafe or too large")
      let value ← t.strictJson bytes "invalid_sequence_state"
      require (isDict value = true) (invalidState "lifecycle sequence state is invalid")
      let supported ← isVersion (value.member "schema_version")
      require (supported = true ∧ value.hasExactly ["schema_version", "roots"] = true)
        (invalidState "lifecycle sequence state is invalid")
      match value.member "roots" with
      | .obj members => do
          require (members.length ≤ 100) (invalidState "lifecycle sequence roots are invalid")
          readMarks (isFirstVersion (value.member "schema_version")) members
      | _ => .error (invalidState "lifecycle sequence roots are invalid")

/-- `minimum`. -/
def minimum (file : Option Bytes) (trustedRootJwk : Json) : Except Raised Int := do
  let roots ← load t file
  let keyid ← jwkThumbprint t trustedRootJwk
  return (mark? roots keyid).elim 0 Watermark.sequence

/-- The marks after a feed, or nothing when they stay as they are. -/
def advance (roots : Roots) (keyid : String) (sequence : Int) (digest : String) :
    Except Raised (Option Roots) :=
  match mark? roots keyid with
  | none => .ok (some (setMark keyid ⟨sequence, some digest⟩ roots))
  | some current => do
      require (current.sequence ≤ sequence) (rejected "lifecycle feed rollback detected" "lifecycle_rollback")
      require (sequence = current.sequence → current.digest = none ∨ current.digest = some digest)
        (rejected "equal-sequence lifecycle feed equivocation detected" "lifecycle_equivocation")
      if sequence = current.sequence ∧ current.digest = some digest then return none
      else return some (setMark keyid ⟨sequence, some digest⟩ roots)

/-- The document in bytes; integers of too many digits are not written. -/
def dumpRoots (roots : Roots) : Except Raised Bytes := do
  require (∀ entry ∈ roots, entry.2.sequence.natAbs < 10 ^ Json.maxDigits)
    (.valueError "Exceeds the limit (4300 digits) for integer string conversion")
  return writeRoots roots

end

/-- The directory of the store: its file, and the temporary files by name. -/
structure Disk where
  file : Option Bytes
  temporaries : String → Option Bytes := fun _ => none

/-- The temporary name of a caller, and which of its accesses raise. -/
structure FileAccess where
  temporary : String
  reads : Except Raised Unit := .ok ()
  locks : Except Raised Unit := .ok ()
  opens : Except Raised Unit := .ok ()
  writes : Except Raised Unit := .ok ()
  replaces : Except Raised Unit := .ok ()

namespace FileAccess

variable (access : FileAccess)

def setTemporary (content : Option Bytes) (disk : Disk) : Disk :=
  { disk with temporaries := Function.update disk.temporaries access.temporary content }

/-- `temporary.unlink(missing_ok=True)`. -/
def unlink (disk : Disk) : Disk := access.setTemporary none disk

/-- `os.open` with `O_EXCL`. -/
def openTemporary : Routine Disk Raised Unit :=
  .transaction fun disk => do
    access.opens
    require (disk.temporaries access.temporary = none) .fileError
    return (access.setTemporary (some []) disk, ())

def writeTemporary (roots : Roots) : Routine Disk Raised Unit :=
  .transaction fun disk => do
    let content ← dumpRoots roots
    access.writes
    return (access.setTemporary (some content) disk, ())

/-- `_atomic_replace`. -/
def replaceFile : Routine Disk Raised Unit :=
  .transaction fun disk => do
    access.replaces
    return ({ access.setTemporary none disk with file := disk.temporaries access.temporary }, ())

end FileAccess

section
variable (t : Toolkit) (access : FileAccess)

/-- What `record` checks and reads before it writes: the marks to write, if any. -/
def prepareRecord (trustedRootJwk : Json) (sequence : Int) (feedSha256 : String) (file : Option Bytes) :
    Except Raised (Option Roots) := do
  require (1 ≤ sequence) (invalidState "lifecycle sequence is invalid")
  require (isHexDigest feedSha256 = true) (invalidState "lifecycle feed digest is invalid")
  access.locks
  let roots ← load t file
  let keyid ← jwkThumbprint t trustedRootJwk
  advance roots keyid sequence feedSha256

/-- `record`, under its two locks. -/
def record (trustedRootJwk : Json) (sequence : Int) (feedSha256 : String) : Routine Disk Raised Unit := do
  match ← Routine.reading fun disk => prepareRecord t access trustedRootJwk sequence feedSha256 disk.file with
  | none => pure ()
  | some roots => do
      access.openTemporary
      Routine.ensuring (do
        access.writeTemporary roots
        access.replaceFile) access.unlink

end

/-- One call of the evaluation with its state: its arguments, its clock and its
access to the file. -/
structure Inquiry where
  receiptEnvelope : Bytes
  lifecycleEnvelope : Bytes
  trustedRootJwk : Json
  now : Int
  access : FileAccess

section
variable {Key : Type} (t : Toolkit) (scheme : Ed25519 Key) (schema : Signing.Schema) (inquiry : Inquiry)

/-- The atomic read of the minimum. -/
def readMinimum : Program Disk Raised Int :=
  .read fun disk => do
    inquiry.access.reads
    minimum t disk.file inquiry.trustedRootJwk

/-- The atomic record of a feed. -/
def recordFeed (feed : Feed) (payload : Bytes) : Program Disk Raised Unit :=
  .once (record t inquiry.access inquiry.trustedRootJwk feed.sequence (t.sha256 payload).hexdigest)

def evaluateReceiptLifecycleWithState : Program Disk Raised Evaluation := do
  let (feed, payload) ← .check (verifyLifecycleEnvelope t scheme inquiry.lifecycleEnvelope inquiry.trustedRootJwk)
  let minimum ← readMinimum t inquiry
  let result ← .check (evaluateReceiptLifecycle t scheme schema inquiry.receiptEnvelope
    inquiry.lifecycleEnvelope inquiry.trustedRootJwk inquiry.now minimum)
  if minimum ≤ result.feedSequence then do
    recordFeed t inquiry feed payload
    return result
  else return result

end

end Lifecycle

end VouchSpec
