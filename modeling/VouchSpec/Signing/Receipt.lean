import VouchSpec.Signing.Dsse

/-! Receipts: the digest they embed, and the envelope that authenticates one. -/

namespace VouchSpec

namespace Signing

def integrityAssurance : String := "payload-digest-requires-external-dsse"
def integrityProfile : String := "capabilityproof-payload-digest-v2"
def deterministicJsonProfile : String :=
  "capabilityproof-sorted-json-v1: UTF-8, lexicographically sorted object keys, " ++
    "compact separators, ensure_ascii=false, allow_nan=false; not RFC 8785 JCS"

/-- `value[name]`. -/
def item (value : Json) (name : String) : Except Raised Json :=
  match value with
  | .obj _ => Except.ofOption .keyError (value.get? name)
  | _ => .error .typeError

/-- The value at a path of member names. -/
def valueAt (value : Json) (path : List String) : Except Raised Json := path.foldlM item value

theorem valueAt_one {value result : Json} {name : String} :
    valueAt value [name] = .ok result ↔ item value name = .ok result := by
  simp [valueAt]

theorem valueAt_cons {value result : Json} {name next : String} {rest : List String} :
    valueAt value (name :: next :: rest) = .ok result ↔
      ∃ inner, item value name = .ok inner ∧ valueAt inner (next :: rest) = .ok result := by
  simp only [valueAt, List.foldlM_cons, Except.bind_eq_ok_iff]

/-- `isinstance(value, dict)`. -/
def isDict : Json → Bool
  | .obj _ => true
  | _ => false

/-- `value.pop(name, None)` for two names. -/
def withoutMembers (names : List String) : Json → Json
  | .obj members => .obj (members.filter fun member => member.1 ∉ names)
  | value => value

/-- The validator of the receipt schema, a library's. -/
abbrev Schema := Json → Bool

section
variable {Key : Type} (t : Toolkit) (scheme : Ed25519 Key) (schema : Schema)

def verifyReceiptIntegrity (receipt : Json) : Bool :=
  let candidate := withoutMembers ["integrity", "receipt_id"] receipt
  let integrity := receipt.member "integrity"
  let signature := integrity.member "signature"
  let expected := (t.sha256 (deterministicJson candidate)).hexdigest
  match (receipt.member "receipt_id").str? with
  | none => false
  | some receiptId =>
      isDict integrity && candidate.member "integrity_assurance" = .str integrityAssurance &&
        integrity.member "profile" = .str integrityProfile &&
        integrity.member "deterministic_json_profile" = .str deterministicJsonProfile && isDict signature &&
        signature.member "status" = .str "external-envelope-required" &&
        signature.member "profile" = .str "dsse-v1.0.2-ed25519" &&
        signature.member "payload_type" = .str receiptPayloadType &&
        integrity.member "evidence_sha256" = .str expected &&
        receiptId = "cpr_" ++ String.ofList (expected.toList.take 24)

/-- A receipt document: strict JSON, an object, and its embedded digest is right. -/
def readReceipt (payload : Bytes) (message : String) : Except Raised Json := do
  let receipt ← t.strictJson payload "invalid_receipt"
  require (isDict receipt = true ∧ verifyReceiptIntegrity t receipt = true)
    (rejected message "invalid_receipt_integrity")
  return receipt

def signReceiptBytes (receiptBytes : Bytes) (privateKey : Key) : Except Raised Json := do
  require (receiptBytes ≠ [] ∧ receiptBytes.length ≤ maxReceiptBytes)
    (rejected "receipt payload is empty or too large" "invalid_receipt")
  let _ ← readReceipt t receiptBytes "receipt embedded integrity check failed"
  signDssePayload t scheme receiptPayloadType receiptBytes privateKey maxReceiptBytes

def verifyReceiptEnvelope (envelopeBytes : Bytes) (trustedJwk : Json) : Except Raised (Json × Bytes) := do
  let payload ← verifyDsseEnvelope t scheme envelopeBytes receiptPayloadType trustedJwk maxReceiptBytes
  let receipt ← readReceipt t payload "signed receipt embedded integrity check failed"
  require (schema receipt = true)
    (rejected "signed receipt does not match its schema" "invalid_receipt_schema")
  return (receipt, payload)

end

end Signing

end VouchSpec
