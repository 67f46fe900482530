import VouchSpec.Signing.Receipt

/-! Root-signed lifecycle feeds: the issuers' keys and the receipts with their
states, as the validator reads them from a document. -/

namespace VouchSpec

namespace Lifecycle

open Signing

def lifecycleSchemaVersion : String := "1.0.0"

inductive IssuerStatus where
  | active
  | retired
  | compromised
deriving DecidableEq

def IssuerStatus.value : IssuerStatus → String
  | .active => "active"
  | .retired => "retired"
  | .compromised => "compromised"

def IssuerStatus.all : List IssuerStatus := [.active, .retired, .compromised]

/-- The state of a receipt; a superseded one names its successor. -/
inductive ReceiptStatus where
  | current
  | superseded (supersededBy : String)
  | revokedEvaluatorDefect
  | revokedKeyCompromise
deriving DecidableEq

structure Issuer where
  keyid : String
  jwk : Json
  status : IssuerStatus

/-- A record of a receipt; the reason may be absent, or null. -/
structure Record where
  receiptId : String
  status : ReceiptStatus
  reason : Option (Option String) := none
deriving DecidableEq

structure Feed where
  sequence : Int
  generatedAt : String
  expiresAt : String
  generated : Int
  expires : Int
  issuerKeys : List Issuer
  receipts : List Record

def invalidFeed (message : String) : Raised := rejected message "invalid_lifecycle_feed"

/-- A value that is looked up in a set of strings; lists and objects cannot be. -/
def inStrings (value : Json) (names : List String) : Except Raised Bool :=
  match value with
  | .str text => .ok (decide (text ∈ names))
  | .arr _ => .error .typeError
  | .obj _ => .error .typeError
  | _ => .ok false

def hasReceiptPrefix (value : String) : Bool := "cpr_".toList.isPrefixOf value.toList

section
variable (t : Toolkit)

/-- `_time`. -/
def time (value : Json) (field : String) : Except Raised (String × Int) := do
  let text ← Except.ofOption (invalidFeed (field ++ " must be a short ISO 8601 string")) value.str?
  require (text.toList.length ≤ 64) (invalidFeed (field ++ " must be a short ISO 8601 string"))
  match t.fromisoformat (Platform.normalized text) with
  | .aware instant => .ok (text, instant)
  | _ => .error (invalidFeed (field ++ " must be valid ISO 8601"))

def issuerStatus? (value : Json) : Option IssuerStatus :=
  IssuerStatus.all.find? fun status => .str status.value = value

/-- One issuer record, beside the key ids before it. -/
def readIssuer (seen : List String) (record : Json) : Except Raised Issuer := do
  require (record.hasExactly ["keyid", "jwk", "status"] = true) (invalidFeed "invalid issuer key record")
  let known ← inStrings (record.member "status") (IssuerStatus.all.map IssuerStatus.value)
  require (known = true) (invalidFeed "invalid issuer key status")
  let status ← Except.ofOption (invalidFeed "invalid issuer key status") (issuerStatus? (record.member "status"))
  let keyid ← jwkThumbprint t (record.member "jwk")
  require (record.member "keyid" = .str keyid ∧ keyid ∉ seen)
    (invalidFeed "issuer keyid is wrong or duplicated")
  return { keyid, jwk := record.member "jwk", status }

def readIssuers (seen : List String) : List Json → Except Raised (List Issuer)
  | [] => .ok []
  | record :: rest => do
      let issuer ← readIssuer t seen record
      let issuers ← readIssuers (issuer.keyid :: seen) rest
      return issuer :: issuers

end

/-- The state that a record names, with its successor. -/
def readStatus (record : Json) (status : String) : Except Raised ReceiptStatus :=
  if status = "superseded" then do
    let supersededBy ← Except.ofOption (invalidFeed "superseded receipt must name its successor")
      (record.member "superseded_by").str?
    require (hasReceiptPrefix supersededBy = true) (invalidFeed "superseded receipt must name its successor")
    return .superseded supersededBy
  else do
    require ((record.get? "superseded_by").isNone)
      (invalidFeed "only superseded receipts may name a successor")
    return if status = "revoked_evaluator_defect" then .revokedEvaluatorDefect
      else if status = "revoked_key_compromise" then .revokedKeyCompromise
      else .current

/-- The reason of a record: absent, null or a text of bounded length. -/
def readReason (record : Json) : Except Raised (Option (Option String)) :=
  match record.get? "reason" with
  | none => .ok none
  | some .null => .ok (some none)
  | some (.str reason) => do
      require (1 ≤ reason.toList.length ∧ reason.toList.length ≤ 500) (invalidFeed "lifecycle reason is invalid")
      return some (some reason)
  | some _ => .error (invalidFeed "lifecycle reason is invalid")

/-- `{"receipt_id", "status"}.issubset(record)` of a dict. -/
def hasRequired (record : Json) : Bool :=
  isDict record && (record.get? "receipt_id").isSome && (record.get? "status").isSome

/-- `not set(record) - {..}`. -/
def hasOnlyKnown : Json → Bool
  | .obj members =>
      members.all fun member => member.1 ∈ ["receipt_id", "status", "superseded_by", "reason"]
  | _ => false

/-- One receipt record, beside the receipts before it. -/
def readRecord (seen : List String) (record : Json) : Except Raised Record := do
  require (hasRequired record = true) (invalidFeed "invalid lifecycle receipt record")
  require (hasOnlyKnown record = true) (invalidFeed "unsupported lifecycle receipt field")
  let receiptId ← Except.ofOption (invalidFeed "receipt id is invalid or duplicated")
    (record.member "receipt_id").str?
  require (hasReceiptPrefix receiptId = true ∧ receiptId ∉ seen)
    (invalidFeed "receipt id is invalid or duplicated")
  let known ← inStrings (record.member "status")
    ["current", "superseded", "revoked_evaluator_defect", "revoked_key_compromise"]
  require (known = true) (invalidFeed "invalid receipt lifecycle status")
  let status ← Except.ofOption (invalidFeed "invalid receipt lifecycle status") (record.member "status").str?
  let status ← readStatus record status
  let reason ← readReason record
  return { receiptId, status, reason }

def readRecords (seen : List String) : List Json → Except Raised (List Record)
  | [] => .ok []
  | record :: rest => do
      let first ← readRecord seen record
      let records ← readRecords (first.receiptId :: seen) rest
      return first :: records

/-- The items of a list of bounded length. -/
def boundedItems (value : Json) (minimum maximum : Nat) (error : Raised) : Except Raised (List Json) :=
  match value with
  | .arr items => do
      require (minimum ≤ items.length ∧ items.length ≤ maximum) error
      return items
  | _ => .error error

section
variable {Key : Type} (t : Toolkit) (scheme : Ed25519 Key)

def validateLifecycleFeed (feed : Json) : Except Raised Feed := do
  require (feed.hasExactly ["schema_version", "sequence", "generated_at", "expires_at", "issuer_keys",
      "receipts"] = true)
    (invalidFeed "lifecycle feed fields do not match the Stage A profile")
  require (feed.member "schema_version" = .str lifecycleSchemaVersion)
    (invalidFeed "unsupported lifecycle feed schema")
  let sequence ← Except.ofOption (invalidFeed "lifecycle sequence must be a positive integer")
    (feed.member "sequence").int?
  require (1 ≤ sequence) (invalidFeed "lifecycle sequence must be a positive integer")
  let (generatedAt, generated) ← time t (feed.member "generated_at") "generated_at"
  let (expiresAt, expires) ← time t (feed.member "expires_at") "expires_at"
  require (generated < expires) (invalidFeed "lifecycle feed expiry must follow generation")
  let issuers ← boundedItems (feed.member "issuer_keys") 1 100
    (invalidFeed "lifecycle feed must contain bounded issuer keys")
  let issuerKeys ← readIssuers t [] issuers
  let records ← boundedItems (feed.member "receipts") 0 100000 (invalidFeed "invalid lifecycle receipt list")
  let receipts ← readRecords [] records
  return { sequence, generatedAt, expiresAt, generated, expires, issuerKeys, receipts }

def signLifecycleFeed (feedBytes : Bytes) (rootPrivateKey : Key) : Except Raised Json := do
  let feed ← t.strictJson feedBytes "invalid_lifecycle_feed"
  let _ ← validateLifecycleFeed t feed
  signDssePayload t scheme lifecyclePayloadType feedBytes rootPrivateKey maxReceiptBytes

def verifyLifecycleEnvelope (envelopeBytes : Bytes) (trustedRootJwk : Json) : Except Raised (Feed × Bytes) := do
  let payload ← verifyDsseEnvelope t scheme envelopeBytes lifecyclePayloadType trustedRootJwk 1000000
  let value ← t.strictJson payload "invalid_lifecycle_feed"
  let feed ← validateLifecycleFeed t value
  return (feed, payload)

end

end Lifecycle

end VouchSpec
