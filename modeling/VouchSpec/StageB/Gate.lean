import VouchSpec.Signing.Envelope
import VouchSpec.Signing.Receipt
import VouchSpec.StageB.Freeze

/-! The signing gate: the checks of a worker's result against the frozen source it was made
from, and the writing of the envelope. -/

namespace VouchSpec

namespace StageB

open Inspection Signing

def signingGateFailed (message : String) : Raised := rejected message "signing_gate_failed"

def maxExecutionReportBytes : Nat := 64000

def workerProfile : String := "vouchspec-docker-no-egress-static-v1"

def isImageCharacter (c : Char) : Bool := Pattern.isAlnum c || c ∈ ['.', '_', '/', ':', '+', '-']

/-- `_IMAGE_REFERENCE.fullmatch`. -/
def isImageReference (text : String) : Bool :=
  isSha256Reference text ||
    (Pattern.startsWith Pattern.isAlnum (Pattern.fullmatch isImageCharacter 0 254)
        (text.toList.takeWhile fun c => c ≠ '@') &&
      Pattern.afterPrefix "@sha256:" (Pattern.fullmatch Bytes.isHexDigit 64 64)
        (text.toList.dropWhile fun c => c ≠ '@'))

/-- What lies at the path of a result. -/
inductive ResultFile where
  | missing
  | special
  | regular (content : Bytes)
deriving DecidableEq

/-- The directory that a worker leaves its results in. -/
structure WorkerOutput where
  receipt : ResultFile
  execution : ResultFile

structure Signer (Key : Type) where
  privateKey : Key
  allowedImageReferences : List Json

/-- `_require_safe_regular_file`, and the reading of the file. -/
def readResultFile (label : String) : ResultFile → Except Raised Bytes
  | .missing => .error (rejected (label ++ " file is unavailable") "invalid_key")
  | .special => .error (rejected (label ++ " must be a non-reparse regular file") "invalid_key")
  | .regular content => .ok content

/-- The texts that an execution report has to hold. -/
def isolationTexts : List (String × String) :=
  [("schema_version", "1.0.0"), ("profile", workerProfile), ("network", "none"), ("root_filesystem", "read_only"),
    ("input_mount", "read_only"), ("capabilities", "all_dropped"), ("uid_gid", "65532:65532"), ("cpu_limit", "1.0"),
    ("tmpfs", "16MiB_noexec_nosuid_nodev"), ("ipc", "none"), ("output_channel", "bounded_stdout_1000000_bytes"),
    ("artifact_execution", "not_performed")]

/-- The counts that it has to hold. -/
def isolationCounts : List (String × Nat) :=
  [("pids_limit", 64), ("memory_limit_bytes", 268435456), ("open_files_limit", 128), ("file_size_limit_bytes", 1048576),
    ("stop_timeout_seconds", 1)]

def executionFields : List String :=
  ["schema_version", "profile", "container_image", "network", "root_filesystem", "input_mount", "capabilities",
    "no_new_privileges", "uid_gid", "pids_limit", "memory_limit_bytes", "cpu_limit", "tmpfs", "ipc", "open_files_limit",
    "file_size_limit_bytes", "stop_timeout_seconds", "output_channel", "started_at", "completed_at", "duration_ms",
    "receipt_id", "receipt_sha256", "freeze_manifest_digest", "artifact_execution"]

/-- The isolation that a report has to give evidence of, and its duration. -/
def checkIsolation (allowedImageReferences : List Json) (execution : Json) : Except Raised Int := do
  require (execution.hasExactly executionFields = true) (signingGateFailed "worker execution fields are invalid")
  require ((∀ entry ∈ isolationTexts, execution.member entry.1 = .str entry.2) ∧
      (∀ entry ∈ isolationCounts, equalsCount entry.2 (execution.member entry.1) = true) ∧
      ((execution.member "container_image").str?.any isImageReference) = true ∧
      execution.member "container_image" ∈ allowedImageReferences ∧
      execution.member "no_new_privileges" = .bool true)
    (signingGateFailed "worker isolation evidence failed")
  let duration ← Except.ofOption (signingGateFailed "worker isolation evidence failed")
    (execution.member "duration_ms").int?
  require (0 ≤ duration ∧ duration ≤ 75000) (signingGateFailed "worker isolation evidence failed")
  return duration

/-- `text in value`. -/
def containsText (text : String) : Json → Except Raised Bool
  | .arr items => .ok (.str text ∈ items)
  | .str found => .ok (text.toList <:+: found.toList)
  | .obj members => .ok (members.any fun member => member.1 = text)
  | _ => .error .typeError

section
variable {Key : Type} (t : Toolkit) (scheme : Ed25519 Key) (schema : Signing.Schema) (u : Unicode) (milliseconds : Int → Int)

/-- `_timestamp`. -/
def workerTimestamp (value : Json) : Except Raised Int := do
  let text ← Except.ofOption (signingGateFailed "worker timestamp is invalid") value.str?
  t.parseTimestampAs "worker timestamp" "signing_gate_failed" text

/-- `receipt.get("validity", {}).get("generated_at")`. -/
def generatedAt (receipt : Json) : Except Raised Json :=
  let validity := (receipt.get? "validity").getD (.obj [])
  if isDict validity = true then .ok (validity.member "generated_at") else .error .attributeError

/-- The times of a report and of its receipt; `milliseconds` is what floating point makes of a
duration in microseconds. -/
def checkTiming (receipt execution : Json) (duration : Int) : Except Raised Unit := do
  let started ← workerTimestamp t (execution.member "started_at")
  let completed ← workerTimestamp t (execution.member "completed_at")
  let generated ← generatedAt receipt >>= workerTimestamp t
  let elapsed := milliseconds (completed - started)
  require (started ≤ completed ∧ elapsed ≤ 77000 ∧ duration ≤ elapsed + 2000 ∧ started - minutes 5 ≤ generated ∧
      generated ≤ completed + minutes 5)
    (signingGateFailed "worker timing evidence is inconsistent")

def notBound : Raised := signingGateFailed "receipt is not bound to approved worker evidence"

/-- A member of the receipt is the one that the evidence names. -/
def requireAt (receipt : Json) (path : List String) (expected : Json) : Except Raised Unit := do
  let found ← valueAt receipt path
  require (found = expected) notBound

/-- The binding of a receipt and its report to the frozen source. -/
def checkBinding (frozen : FrozenSource) (receiptBytes : Bytes) (receipt execution : Json) : Except Raised Unit := do
  require (execution.member "receipt_id" = receipt.member "receipt_id" ∧
      execution.member "receipt_sha256" = .str (t.sha256 receiptBytes).hexdigest ∧
      execution.member "freeze_manifest_digest" = frozen.manifest.member "manifest_digest") notBound
  requireAt receipt ["artifact", "digest", "sha256"] (frozen.manifest.member "artifact_directory_sha256")
  requireAt receipt ["artifact", "root_directory"] (.str (frozen.artifactRoot.getLast?.getD ""))
  requireAt receipt ["provenance", "source_repository"] (frozen.manifest.member "repository_url")
  requireAt receipt ["provenance", "source_commit"] (frozen.manifest.member "fetched_commit")
  requireAt receipt ["provenance", "artifact_path"] ((frozen.manifest.member "source").member "skill_path")
  let verification ← valueAt receipt ["provenance", "source_verification"]
  require (verification.sorted =
    .obj [("method", .str "exact-local-git-blob-match-v1"), ("status", .str "completed")]) notBound
  requireAt receipt ["methodology", "artifact_execution"] (.str "not-performed")
  let labels ← valueAt receipt ["evidence_labels"]
  let labelled ← containsText "INDEPENDENT_STATIC_SCAN" labels
  require (labelled = true) notBound

/-- What has been approved for writing. -/
structure Approved where
  frozen : FrozenSource
  receiptBytes : Bytes
  receipt : Json
  execution : Json
  envelopeBytes : Bytes

/-- All checks of `sign_verified_worker_result`, and the signature. -/
def approve (directory : FrozenDirectory) (times : CaptureTimes) (output : WorkerOutput) (signer : Signer Key) :
    Except Raised Approved := do
  let frozen ← verifyFrozenSource t u .default directory times
  require (signer.allowedImageReferences ≠ [] ∧
      ∀ reference ∈ signer.allowedImageReferences, (reference.str?.any isImageReference) = true)
    (.valueError "at least one immutable allowed worker image is required")
  let receiptBytes ← readResultFile "worker receipt" output.receipt
  let executionBytes ← readResultFile "worker execution report" output.execution
  require (receiptBytes ≠ [] ∧ receiptBytes.length ≤ maxReceiptBytes)
    (signingGateFailed "worker receipt is empty or oversized")
  require (executionBytes ≠ [] ∧ executionBytes.length ≤ maxExecutionReportBytes)
    (signingGateFailed "worker execution report is empty or oversized")
  let receipt ← loadStrictCommerceJson t receiptBytes
  let execution ← loadStrictCommerceJson t executionBytes
  require (isDict receipt = true ∧ verifyReceiptIntegrity t receipt = true)
    (signingGateFailed "worker receipt integrity failed")
  let duration ← checkIsolation signer.allowedImageReferences execution
  checkTiming t milliseconds receipt execution duration
  checkBinding t frozen receiptBytes receipt execution
  let envelope ← signReceiptBytes t scheme receiptBytes signer.privateKey
  let envelopeBytes := jsonLine envelope
  let (_, verifiedPayload) ← verifyReceiptEnvelope t scheme schema envelopeBytes (publicJwk scheme signer.privateKey)
  require (verifiedPayload = receiptBytes) (signingGateFailed "signing self-verification changed payload bytes")
  return { frozen, receiptBytes, receipt, execution, envelopeBytes }

/-- The envelope is written to a path where nothing is. -/
def writeEnvelope (target : List String) (envelopeBytes : Bytes) : Routine Disk Raised Unit := fun disk =>
  if disk.at? target = none then
    match disk.makeDirectories target.dropLast with
    | none => (.error .fileError, disk)
    | some made =>
        match made.createFile target envelopeBytes with
        | none => (.error (signingGateFailed "signed output could not be written"), made)
        | some after => (.ok (), after)
  else (.error (rejected "refusing to overwrite signed output" "output_exists"), disk)

/-- The summary that is returned. -/
def summary (approved : Approved) (keyid : String) : Json :=
  .obj [("schema_version", .str "1.0.0"), ("receipt_id", approved.receipt.member "receipt_id"),
    ("receipt_sha256", .str (t.sha256 approved.receiptBytes).hexdigest),
    ("envelope_sha256", .str (t.sha256 approved.envelopeBytes).hexdigest), ("signing_keyid", .str keyid),
    ("freeze_manifest_digest", approved.frozen.manifest.member "manifest_digest"),
    ("worker_profile", approved.execution.member "profile"),
    ("container_image", approved.execution.member "container_image"), ("artifact_execution", .str "not_performed")]

/-- `sign_verified_worker_result`. -/
def signVerifiedWorkerResult (directory : FrozenDirectory) (times : CaptureTimes) (output : WorkerOutput)
    (signer : Signer Key) (target : List String) : Routine Disk Raised Json := do
  let approved ← Routine.reading fun _ => approve t scheme schema u milliseconds directory times output signer
  writeEnvelope target approved.envelopeBytes
  let keyid ← Routine.reading fun _ => jwkThumbprint t (publicJwk scheme signer.privateKey)
  return summary t approved keyid

end

end StageB

end VouchSpec
