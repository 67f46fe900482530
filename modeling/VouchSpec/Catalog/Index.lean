import VouchSpec.Lifecycle.Feed

/-! The index of a catalog: its entries, one for each receipt, and the files that a
catalog directory holds. -/

namespace VouchSpec

namespace Catalog

open Signing

def catalogSchemaVersion : String := "1.0.0"

def allowedLabels : List String :=
  ["DIGEST_PINNED", "STRUCTURE_VALIDATED", "STATIC_INSPECTION_COMPLETED", "PUBLISHER_CI_ATTESTED",
    "INDEPENDENT_STATIC_SCAN", "SANDBOX_BEHAVIOR_OBSERVED", "TASK_EVALUATED"]

/-- A validated entry; its two times are not looked at. -/
structure Entry where
  receiptId : String
  repositoryOwner : String
  skillName : String
  sourceRepository : String
  sourceCommit : String
  artifactPath : String
  artifactSha256 : String
  evidenceLabels : List String
  issuedAt : Json
  expiresAt : Json
deriving DecidableEq

structure Index where
  entryCount : Json
  entries : List Entry
deriving DecidableEq

def invalidCatalog (message : String) : Raised := rejected message "invalid_catalog"

def isLowerHex (count : Nat) (characters : List Char) : Bool :=
  characters.length = count && characters.all Bytes.isHexDigit

/-- `RECEIPT_ID.fullmatch`. -/
def matchesReceiptId (value : String) : Bool :=
  "cpr_".toList.isPrefixOf value.toList && isLowerHex 24 (value.toList.drop 4)

/-- `COMMIT_ID.fullmatch`. -/
def matchesCommitId (value : String) : Bool := isLowerHex 40 value.toList || isLowerHex 64 value.toList

/-- `SHA256.fullmatch`. -/
def matchesSha256 (value : String) : Bool := isLowerHex 64 value.toList

def validateReceiptId (value : Json) : Except Raised String := do
  let receiptId ← Except.ofOption (rejected "receipt_id is invalid" "invalid_receipt_id") value.str?
  require (matchesReceiptId receiptId = true) (rejected "receipt_id is invalid" "invalid_receipt_id")
  return receiptId

/-- A text field of an entry, within its length. -/
def textField (entry : Json) (field : String) (maximum : Nat) : Except Raised String := do
  let text ← Except.ofOption (invalidCatalog ("catalog " ++ field ++ " is invalid")) (entry.member field).str?
  require (1 ≤ text.toList.length ∧ text.toList.length ≤ maximum)
    (invalidCatalog ("catalog " ++ field ++ " is invalid"))
  return text

/-- A value that a regular expression is matched against. -/
def matchedText (value : Json) : Except Raised String := Except.ofOption .typeError value.str?

/-- Lists and objects cannot be put into a set. -/
def isHashable : Json → Bool
  | .arr _ => false
  | .obj _ => false
  | _ => true

/-- The labels of an entry: known, distinct, and at least one. -/
def readLabels (value : Json) : Except Raised (List String) :=
  match value with
  | .arr items => do
      require (items ≠ []) (invalidCatalog "catalog evidence labels are invalid")
      require (items.all isHashable = true) .typeError
      let labels ← Except.ofOption (invalidCatalog "catalog evidence labels are invalid") (items.mapM Json.str?)
      require (labels.Nodup ∧ ∀ label ∈ labels, label ∈ allowedLabels)
        (invalidCatalog "catalog evidence labels are invalid")
      return labels
  | _ => .error (invalidCatalog "catalog evidence labels are invalid")

/-- One entry, beside the receipts before it. -/
def readEntry (seen : List String) (entry : Json) : Except Raised Entry := do
  require (entry.hasExactly ["receipt_id", "repository_owner", "skill_name", "source_repository",
      "source_commit", "artifact_path", "artifact_sha256", "evidence_labels", "issued_at", "expires_at"] = true)
    (invalidCatalog "catalog entry fields are invalid")
  let receiptId ← validateReceiptId (entry.member "receipt_id")
  require (receiptId ∉ seen) (invalidCatalog "catalog receipt ids must be unique")
  let repositoryOwner ← textField entry "repository_owner" 100
  let skillName ← textField entry "skill_name" 200
  let sourceRepository ← textField entry "source_repository" 2048
  let artifactPath ← textField entry "artifact_path" 1024
  let sourceCommit ← matchedText (entry.member "source_commit")
  require (matchesCommitId sourceCommit = true) (invalidCatalog "catalog immutable source binding is invalid")
  let artifactSha256 ← matchedText (entry.member "artifact_sha256")
  require (matchesSha256 artifactSha256 = true) (invalidCatalog "catalog immutable source binding is invalid")
  let evidenceLabels ← readLabels (entry.member "evidence_labels")
  return { receiptId, repositoryOwner, skillName, sourceRepository, sourceCommit, artifactPath, artifactSha256,
           evidenceLabels, issuedAt := entry.member "issued_at", expiresAt := entry.member "expires_at" }

def readEntries (seen : List String) : List Json → Except Raised (List Entry)
  | [] => .ok []
  | entry :: rest => do
      let first ← readEntry seen entry
      let entries ← readEntries (first.receiptId :: seen) rest
      return first :: entries

/-- `value == count`, where a boolean counts as its number. -/
def equalsCount (value : Json) (count : Nat) : Bool :=
  match value with
  | .int number => number = count
  | .bool flag => flag.toNat = count
  | _ => false

def validateCatalogIndex (value : Json) : Except Raised Index := do
  require (value.hasExactly ["schema_version", "service", "stage", "generated_at", "entry_count",
      "repository_owner_count", "entries"] = true)
    (invalidCatalog "catalog index fields do not match the Stage A profile")
  require (value.member "schema_version" = .str catalogSchemaVersion ∧ value.member "service" = .str "VouchSpec")
    (invalidCatalog "catalog identity or version is unsupported")
  require (value.member "stage" = .str "A_PUBLIC_ARTIFACT_INDEX")
    (invalidCatalog "catalog is not a Stage A public-artifact index")
  let items ← Lifecycle.boundedItems (value.member "entries") 0 100000 (invalidCatalog "catalog entries are invalid")
  let entries ← readEntries [] items
  let publishers := (entries.map Entry.repositoryOwner).dedup
  require (equalsCount (value.member "entry_count") entries.length = true ∧
      equalsCount (value.member "repository_owner_count") publishers.length = true)
    (invalidCatalog "catalog summary counts are wrong")
  return { entryCount := value.member "entry_count", entries }

/-- The files of a catalog directory; the receipts by their ids. -/
structure Directory where
  index : Option Bytes := none
  indexEnvelope : Option Bytes := none
  buildReport : Option Bytes := none
  receipts : List (String × Bytes) := []
  issuerJwk : Option Bytes := none
  rootJwk : Option Bytes := none
  lifecycle : Option Bytes := none
deriving DecidableEq

/-- `path.read_bytes()`. -/
def readBytes (file : Option Bytes) : Except Raised Bytes := Except.ofOption .fileError file

/-- `receipts/<receipt_id>.dsse.json`. -/
def Directory.receipt? (directory : Directory) (receiptId : String) : Option Bytes :=
  (directory.receipts.find? fun file => file.1 = receiptId).map Prod.snd

/-- The index of a catalog, if it has one that is valid. -/
def Directory.index? (t : Toolkit) (directory : Directory) : Option Index := do
  let bytes ← directory.index
  let value ← t.loads bytes
  (validateCatalogIndex value).toOption

end Catalog

end VouchSpec
