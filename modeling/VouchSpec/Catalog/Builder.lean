import VouchSpec.Catalog.Index
import VouchSpec.Lifecycle.Evaluation

/-! The three sides of a catalog: the issuer's phase, which signs drafts, the root's
phase, which signs the lifecycle feed, and what the server checks of each entry. -/

namespace VouchSpec

namespace Catalog

open Signing

/-- A directory of drafts; the receipts by the stems of their file names. -/
structure Drafts where
  index : Option Bytes
  buildReport : Option Bytes
  receipts : List (String × Bytes)
  distinct : (receipts.map Prod.fst).Nodup

def Drafts.receipt? (drafts : Drafts) (receiptId : String) : Option Bytes :=
  (drafts.receipts.find? fun file => file.1 = receiptId).map Prod.snd

/-- What the issuer's phase reports. -/
structure SigningReport where
  entryCount : Json
  issuerKeyid : String

/-- Equality of dictionaries, whose order does not matter. -/
def sameJson (left right : Json) : Bool := left.sorted = right.sorted

/-- The truth value of a JSON value. -/
def isTruthy : Json → Bool
  | .null => false
  | .bool flag => flag
  | .int number => number ≠ 0
  | .str text => text ≠ ""
  | .arr items => !items.isEmpty
  | .obj members => !members.isEmpty

section
variable {Key : Type} (t : Toolkit) (scheme : Ed25519 Key) (schema : Signing.Schema)

/-- The fields of a draft that the issuer compares with its entry. -/
def draftMatches (receipt : Json) (entry : Entry) : Except Raised Bool := do
  let receiptId ← item receipt "receipt_id"
  if receiptId ≠ .str entry.receiptId then return false
  let sha256 ← item (← item (← item receipt "artifact") "digest") "sha256"
  if sha256 ≠ .str entry.artifactSha256 then return false
  let sourceCommit ← item (← item receipt "provenance") "source_commit"
  if sourceCommit ≠ .str entry.sourceCommit then return false
  let artifactPath ← item (← item receipt "provenance") "artifact_path"
  return artifactPath = .str entry.artifactPath

/-- The signed envelope of the draft of an entry. -/
def signDraft (drafts : Drafts) (issuerKey : Key) (entry : Entry) : Except Raised Bytes := do
  let payload ← readBytes (drafts.receipt? entry.receiptId)
  let receipt ← t.strictJson payload "invalid_receipt"
  require (isDict receipt = true ∧ verifyReceiptIntegrity t receipt = true)
    (rejected "draft receipt integrity failed" "invalid_receipt_integrity")
  let same ← draftMatches receipt entry
  require (same = true)
    (rejected "draft receipt does not match the catalog index" "catalog_verification_failed")
  let envelope ← signReceiptBytes t scheme payload issuerKey
  let (verified, exact) ← verifyReceiptEnvelope t scheme schema (deterministicJson envelope)
    (publicJwk scheme issuerKey)
  let receiptId ← item verified "receipt_id"
  require (exact = payload ∧ receiptId = .str entry.receiptId)
    (rejected "signed receipt failed issuer verification" "catalog_verification_failed")
  return jsonLine envelope

def signDrafts (drafts : Drafts) (issuerKey : Key) : List Entry → Except Raised (List (String × Bytes))
  | [] => .ok []
  | entry :: rest => do
      let envelope ← signDraft t scheme schema drafts issuerKey entry
      let envelopes ← signDrafts drafts issuerKey rest
      return (entry.receiptId, envelope) :: envelopes

/-- `sign_catalog_drafts`; an output that was begun is removed after an exception. -/
def signCatalogDrafts (drafts : Drafts) (outputExists : Bool) (issuerKey : Key) :
    Except Raised (Directory × SigningReport) := do
  require (outputExists = false) (rejected "refusing to overwrite an existing signed catalog" "catalog_exists")
  let indexBytes ← readBytes drafts.index
  let value ← t.strictJson indexBytes "invalid_catalog"
  let index ← validateCatalogIndex value
  require (equalsCount index.entryCount drafts.receipts.length = true)
    (invalidCatalog "draft receipt count does not match the index")
  let receipts ← signDrafts t scheme schema drafts issuerKey index.entries
  require ((∀ stem ∈ drafts.receipts.map Prod.fst, stem ∈ receipts.map Prod.fst) ∧
      ∀ receiptId ∈ receipts.map Prod.fst, receiptId ∈ drafts.receipts.map Prod.fst)
    (invalidCatalog "unindexed draft receipts are present")
  let indexEnvelope ← signDssePayload t scheme catalogIndexPayloadType indexBytes issuerKey 5000000
  let buildReport ← readBytes drafts.buildReport
  let issuerKeyid ← jwkThumbprint t (publicJwk scheme issuerKey)
  let directory : Directory :=
    { index := some indexBytes, indexEnvelope := some (jsonLine indexEnvelope), buildReport := some buildReport
      receipts, issuerJwk := some (jsonLine (publicJwk scheme issuerKey)) }
  return (directory, { entryCount := index.entryCount, issuerKeyid })

/-- `_read` of a catalog item. -/
def readItem (file : Option Bytes) (maximum : Nat) : Except Raised Bytes := do
  let content ← readBytes file
  require (1 ≤ content.length ∧ content.length ≤ maximum)
    (invalidCatalog "catalog item is empty or too large")
  return content

/-- `skill_name` of a receipt. -/
def skillNameOf (receipt : Json) : Except Raised Json := do
  let artifact ← item receipt "artifact"
  let name ← item (← item artifact "claims_untrusted") "name"
  if isTruthy name = true then return name
  else item artifact "root_directory"

/-- The fields of a receipt that the server compares with its entry. -/
def bindingMatches (receipt : Json) (entry : Entry) : Except Raised Bool := do
  let skillName ← skillNameOf receipt
  let receiptId ← item receipt "receipt_id"
  if receiptId ≠ .str entry.receiptId then return false
  let sha256 ← item (← item (← item receipt "artifact") "digest") "sha256"
  if sha256 ≠ .str entry.artifactSha256 then return false
  let provenance ← item receipt "provenance"
  let sourceRepository ← item provenance "source_repository"
  if sourceRepository ≠ .str entry.sourceRepository then return false
  let sourceCommit ← item provenance "source_commit"
  if sourceCommit ≠ .str entry.sourceCommit then return false
  let artifactPath ← item provenance "artifact_path"
  if artifactPath ≠ .str entry.artifactPath then return false
  let evidenceLabels ← item receipt "evidence_labels"
  if evidenceLabels ≠ .arr (entry.evidenceLabels.map Json.str) then return false
  let validity ← item receipt "validity"
  let generatedAt ← item validity "generated_at"
  if generatedAt ≠ entry.issuedAt then return false
  let expiresAt ← item validity "expires_at"
  if expiresAt ≠ entry.expiresAt then return false
  return skillName = .str entry.skillName

/-- `CatalogStore.receipt_envelope_bytes`, which looks the receipt up in the index. -/
def receiptEnvelopeBytes (directory : Directory) (receiptId : String) : Except Raised Bytes := do
  let receiptId ← validateReceiptId (.str receiptId)
  let indexBytes ← readItem directory.index 5000000
  let value ← t.strictJson indexBytes "invalid_catalog"
  let index ← validateCatalogIndex value
  require (∃ entry ∈ index.entries, entry.receiptId = receiptId) (rejected "receipt was not found" "not_found")
  readItem (directory.receipt? receiptId) 2000000

/-- The binding checks of `VerifiedCatalog`, entry by entry, under the issuer's key. -/
def checkBindings (directory : Directory) (issuerJwk : Json) : List Entry → Except Raised Unit
  | [] => .ok ()
  | entry :: rest => do
      let envelope ← receiptEnvelopeBytes t directory entry.receiptId
      let (receipt, _) ← verifyReceiptEnvelope t scheme schema envelope issuerJwk
      let same ← bindingMatches receipt entry
      require (same = true) (invalidCatalog "signed receipt does not match the signed catalog index")
      checkBindings directory issuerJwk rest

/-- What the root's phase reports. -/
structure LifecycleReport where
  entryCount : Nat
  feedSequence : Int
  feedExpiresAt : String
  rootKeyid : String

/-- The receipts of the index, each with its envelope under the issuer's key. -/
def checkReceipts (directory : Directory) (issuerJwk : Json) : List Entry → Except Raised (List String)
  | [] => .ok []
  | entry :: rest => do
      let envelope ← readBytes (directory.receipt? entry.receiptId)
      let (receipt, _) ← verifyReceiptEnvelope t scheme schema envelope issuerJwk
      let receiptId ← item receipt "receipt_id"
      require (receiptId = .str entry.receiptId)
        (rejected "catalog receipt mismatch during root finalization" "catalog_verification_failed")
      let receiptIds ← checkReceipts directory issuerJwk rest
      return entry.receiptId :: receiptIds

/-- The sequence after the previous feed, or the first. -/
def nextSequence (rootJwk : Json) (previous : Option Bytes) : Except Raised Int :=
  match previous with
  | none => .ok 1
  | some envelope => do
      let (feed, _) ← Lifecycle.verifyLifecycleEnvelope t scheme envelope rootJwk
      return feed.sequence + 1

/-- The feed that lists the issuer as active and every receipt as current. -/
def lifecycleFeed (sequence : Int) (generatedAt expiresAt issuerKeyid : String) (issuerJwk : Json)
    (receiptIds : List String) : Json :=
  .obj [("schema_version", .str "1.0.0"), ("sequence", .int sequence), ("generated_at", .str generatedAt),
    ("expires_at", .str expiresAt),
    ("issuer_keys", .arr [.obj [("keyid", .str issuerKeyid), ("jwk", issuerJwk), ("status", .str "active")]]),
    ("receipts", .arr (receiptIds.map fun receiptId =>
      .obj [("receipt_id", .str receiptId), ("status", .str "current")]))]

/-- The key of the root in the catalog, when there is one, is the recovery key. -/
def checkRoot (directory : Directory) (rootJwk : Json) : Except Raised Unit :=
  match directory.rootJwk with
  | none => .ok ()
  | some bytes => do
      let existing ← t.strictJson bytes "invalid_key"
      require (sameJson existing rootJwk = true)
        (rejected "catalog root key does not match the recovery key" "untrusted_key")

/-- `finalize_catalog_lifecycle` at a time of whole seconds. -/
def finalizeCatalogLifecycle (directory : Directory) (rootKey : Key) (timestamp : Int)
    (previousEnvelope : Option Bytes) : Except Raised (Directory × LifecycleReport) := do
  require (directory.lifecycle = none ∨ previousEnvelope ≠ none)
    (rejected "existing lifecycle feed requires --previous-lifecycle" "lifecycle_exists")
  let rootJwk := publicJwk scheme rootKey
  let sequence ← nextSequence t scheme rootJwk previousEnvelope
  let issuerJwk ← t.strictJson (← readBytes directory.issuerJwk) "invalid_key"
  let rootKeyid ← jwkThumbprint t rootJwk
  let issuerKeyid ← jwkThumbprint t issuerJwk
  require (rootKeyid ≠ issuerKeyid)
    (rejected "recovery-root and receipt-issuer keys must be cryptographically distinct" "key_role_collision")
  let value ← t.strictJson (← readBytes directory.index) "invalid_catalog"
  let index ← validateCatalogIndex value
  let receiptIds ← checkReceipts t scheme schema directory issuerJwk index.entries
  let expiresAt := t.timestamp (timestamp + 7 * 86400 * 1000000)
  let feed := lifecycleFeed sequence (t.timestamp timestamp) expiresAt issuerKeyid issuerJwk receiptIds
  let _ ← Lifecycle.validateLifecycleFeed t feed
  require (sequence.natAbs < 10 ^ Json.maxDigits)
    (.valueError "Exceeds the limit (4300 digits) for integer string conversion")
  let envelope ← Lifecycle.signLifecycleFeed t scheme (deterministicJson feed) rootKey
  checkRoot t directory rootJwk
  let after : Directory :=
    { directory with
      lifecycle := some (jsonLine envelope)
      rootJwk := some (directory.rootJwk.getD (jsonLine rootJwk)) }
  return (after, { entryCount := receiptIds.length, feedSequence := sequence, feedExpiresAt := expiresAt, rootKeyid })

end

end Catalog

end VouchSpec
