import VouchSpec.Signing.Toolkit

/-! DSSE envelopes with one Ed25519 signature: the encoding that is signed, and
the checks an envelope passes before its payload is believed. -/

namespace VouchSpec

namespace Signing

def receiptPayloadType : String := "application/vnd.vouchspec.capability-receipt.v1+json"
def catalogIndexPayloadType : String := "application/vnd.vouchspec.catalog-index.v1+json"
def lifecyclePayloadType : String := "application/vnd.vouchspec.receipt-lifecycle.v1+json"
def maxEnvelopeBytes : Nat := 2000000
def maxReceiptBytes : Nat := 1000000

/-- `str.isspace` of one character. -/
def isSpace (c : Char) : Bool :=
  (9 ≤ c.toNat && c.toNat ≤ 13) || (28 ≤ c.toNat && c.toNat ≤ 32) || c.toNat = 0x85 || c.toNat = 0xA0 ||
    c.toNat = 0x1680 || (0x2000 ≤ c.toNat && c.toNat ≤ 0x200A) || c.toNat = 0x2028 || c.toNat = 0x2029 ||
    c.toNat = 0x202F || c.toNat = 0x205F || c.toNat = 0x3000

def invalidBase64 (message : String) : Raised := rejected message "invalid_base64"

/-- `_b64url_no_pad`. -/
def b64urlNoPad (value : Bytes) : String := String.ofList (Bytes.base64Url value)

/-- `base64.b64encode(..).decode("ascii")`. -/
def b64encode (value : Bytes) : String := String.ofList (Bytes.base64 value)

/-- The text of a base64 value: a string, not empty and without blanks. -/
def base64Text (value : Json) (error : Raised) : Except Raised String := do
  let text ← Except.ofOption error value.str?
  require (text ≠ "" ∧ text.toList.any isSpace = false) error
  return text

/-- `_b64url_decode`. -/
def b64urlDecode (value : Json) (expectedBytes : Nat) : Except Raised Bytes := do
  let text ← base64Text value (invalidBase64 "invalid base64url value")
  require ('=' ∉ text.toList) (invalidBase64 "base64url padding is not permitted in JWK fields")
  let decoded ← Except.ofOption (invalidBase64 "invalid base64url value") (Bytes.decodeBase64Url text.toList)
  require (b64urlNoPad decoded = text) (invalidBase64 "non-canonical base64url value")
  require (decoded.length = expectedBytes) (rejected "decoded key has the wrong length" "invalid_key")
  return decoded

/-- `_b64_decode`. -/
def b64Decode (value : Json) (maximum : Nat) : Except Raised Bytes := do
  let text ← base64Text value (invalidBase64 "invalid DSSE base64 value")
  let decoded ← Except.ofOption (invalidBase64 "invalid DSSE base64 value") (Bytes.decodeBase64 text.toList)
  require (decoded.length ≤ maximum ∧ b64encode decoded = text)
    (invalidBase64 "invalid or oversized DSSE base64 value")
  return decoded

/-- A count in decimal digits. -/
def decimal (count : Nat) : Bytes := Bytes.ascii (String.ofList (Nat.toDigits 10 count))

def dssePae (payloadType : String) (payload : Bytes) : Except Raised Bytes := do
  require (payloadType ≠ "" ∧ Bytes.isAscii payloadType = true)
    (rejected "payload type must be non-empty ASCII" "invalid_payload_type")
  let encodedType := Bytes.ascii payloadType
  return Bytes.ascii "DSSEv1 " ++ decimal encodedType.length ++ Bytes.ascii " " ++ encodedType ++
    Bytes.ascii " " ++ decimal payload.length ++ Bytes.ascii " " ++ payload

section
variable {Key : Type} (t : Toolkit) (scheme : Ed25519 Key)

def publicJwk (key : Key) : Json :=
  .obj [("kty", .str "OKP"), ("crv", .str "Ed25519"), ("x", .str (b64urlNoPad (scheme.publicBytes key)))]

def jwkThumbprint (jwk : Json) : Except Raised String := do
  require (jwk.hasExactly ["kty", "crv", "x"] = true)
    (rejected "public JWK must contain only crv, kty, and x" "invalid_key")
  require (jwk.member "kty" = .str "OKP" ∧ jwk.member "crv" = .str "Ed25519")
    (rejected "public JWK is not an Ed25519 OKP key" "invalid_key")
  let _ ← b64urlDecode (jwk.member "x") 32
  let canonical := Json.obj [("crv", .str "Ed25519"), ("kty", .str "OKP"), ("x", jwk.member "x")]
  return b64urlNoPad (t.sha256 (Bytes.utf8 canonical.asciiText)).bytes

/-- The raw public key. -/
def publicKeyFromJwk (jwk : Json) : Except Raised Bytes := do
  let _ ← jwkThumbprint t jwk
  b64urlDecode (jwk.member "x") 32

def signDssePayload (payloadType : String) (payload : Bytes) (privateKey : Key)
    (maximumPayloadBytes : Nat) : Except Raised Json := do
  require (payload ≠ [] ∧ payload.length ≤ maximumPayloadBytes)
    (rejected "DSSE payload is empty or too large" "invalid_payload")
  let message ← dssePae payloadType payload
  let signature := scheme.sign privateKey message
  let keyid ← jwkThumbprint t (publicJwk scheme privateKey)
  return .obj [("payloadType", .str payloadType), ("payload", .str (b64encode payload)),
    ("signatures", .arr [.obj [("keyid", .str keyid), ("sig", .str (b64encode signature))]])]

/-- The only record of the signature list. -/
def soleSignature (signatures : Json) : Except Raised Json :=
  match signatures with
  | .arr [record] => do
      require (record.hasExactly ["keyid", "sig"] = true)
        (rejected "invalid DSSE signature record" "invalid_envelope")
      return record
  | _ => .error (rejected "exactly one DSSE signature is required" "invalid_envelope")

/-- The envelope and its signature record, before anything is authenticated. -/
def openEnvelope (envelopeBytes : Bytes) (expectedPayloadType : String) : Except Raised (Json × Json) := do
  require (envelopeBytes ≠ [] ∧ envelopeBytes.length ≤ maxEnvelopeBytes)
    (rejected "envelope is empty or too large" "invalid_envelope")
  let envelope ← t.strictJson envelopeBytes "invalid_envelope"
  require (envelope.hasExactly ["payloadType", "payload", "signatures"] = true)
    (rejected "DSSE envelope fields do not match the Stage A profile" "invalid_envelope")
  require (envelope.member "payloadType" = .str expectedPayloadType)
    (rejected "unexpected DSSE payload type" "invalid_payload_type")
  let record ← soleSignature (envelope.member "signatures")
  return (envelope, record)

def verifyDsseEnvelope (envelopeBytes : Bytes) (expectedPayloadType : String) (trustedJwk : Json)
    (maximumPayloadBytes : Nat) : Except Raised Bytes := do
  let (envelope, record) ← openEnvelope t envelopeBytes expectedPayloadType
  let expectedKeyid ← jwkThumbprint t trustedJwk
  require (record.member "keyid" = .str expectedKeyid)
    (rejected "envelope keyid does not match the trusted public key" "untrusted_key")
  let payload ← b64Decode (envelope.member "payload") maximumPayloadBytes
  let signature ← b64Decode (record.member "sig") 128
  require (signature.length = 64) (rejected "Ed25519 signature has the wrong length" "invalid_signature")
  let publicKey ← publicKeyFromJwk t trustedJwk
  let message ← dssePae expectedPayloadType payload
  require (scheme.verify publicKey signature message = true)
    (rejected "DSSE signature verification failed" "invalid_signature")
  return payload

end

end Signing

end VouchSpec
