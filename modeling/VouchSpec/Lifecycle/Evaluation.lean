import VouchSpec.Lifecycle.Feed

/-! The state of a receipt under a root-signed feed, at a time. -/

namespace VouchSpec

namespace Lifecycle

open Signing

/-- The states that an evaluation can give. -/
inductive PublicState where
  | current
  | superseded
  | expired
  | revokedEvaluatorDefect
  | revokedKeyCompromise
  | signatureValidLifecycleUnknown
deriving DecidableEq

/-- What a result says of its receipt, unless it was returned early. -/
structure Subject where
  receiptId : Json
  artifactSha256 : Json
  sourceCommit : Json
  issuerKeyid : String
deriving DecidableEq

/-- A result; the reason may be null. -/
structure Evaluation where
  lifecycle : PublicState
  reason : Option String
  subject : Option Subject := none
  feedSequence : Int
deriving DecidableEq

def unknown (feed : Feed) (reason : String) : Evaluation :=
  { lifecycle := .signatureValidLifecycleUnknown, reason := some reason, feedSequence := feed.sequence }

/-- `record.get("reason", default)`. -/
def Record.reasonOr (record : Record) (default : String) : Option String :=
  record.reason.getD (some default)

section
variable {Key : Type} (t : Toolkit) (scheme : Ed25519 Key) (schema : Signing.Schema)

/-- `_envelope_keyid`. -/
def envelopeKeyid (envelopeBytes : Bytes) : Except Raised String := do
  let envelope ← t.strictJson envelopeBytes "invalid_envelope"
  require (isDict envelope = true) (rejected "invalid receipt envelope" "invalid_envelope")
  match envelope.member "signatures" with
  | .arr [record] => do
      require (isDict record = true) (rejected "invalid receipt signature set" "invalid_envelope")
      Except.ofOption (rejected "receipt envelope has no keyid" "invalid_envelope") (record.member "keyid").str?
  | _ => .error (rejected "invalid receipt signature set" "invalid_envelope")

def Feed.issuer? (feed : Feed) (keyid : String) : Option Issuer :=
  feed.issuerKeys.find? fun issuer => issuer.keyid = keyid

def Feed.record? (feed : Feed) (receiptId : Json) : Option Record :=
  feed.receipts.find? fun record => .str record.receiptId = receiptId

/-- When the receipt expires. -/
def receiptExpiry (receipt : Json) : Except Raised Int := do
  let validity ← item receipt "validity"
  let expiresAt ← item validity "expires_at"
  Prod.snd <$> time t expiresAt "receipt expires_at"

/-- The state of a receipt under a feed that is neither early nor stale. -/
def stateOf (feed : Feed) (issuer : Issuer) (receipt receiptId : Json) (now : Int) :
    Except Raised (PublicState × Option String) :=
  if issuer.status = .compromised then
    .ok (.revokedKeyCompromise, some "root feed marks the receipt-signing key compromised")
  else
    match feed.record? receiptId with
    | none => .ok (.signatureValidLifecycleUnknown,
        some "receipt is absent from the current root-signed lifecycle feed")
    | some record =>
        match record.status with
        | .revokedKeyCompromise =>
            .ok (.revokedKeyCompromise, record.reasonOr "receipt revoked for signing-key compromise")
        | .revokedEvaluatorDefect =>
            .ok (.revokedEvaluatorDefect, record.reasonOr "receipt revoked for evaluator defect")
        | status => do
            let expiry ← receiptExpiry t receipt
            if expiry ≤ now then return (.expired, some "receipt expiration time has passed")
            else
              match status with
              | .superseded supersededBy =>
                  return (.superseded, record.reasonOr ("superseded by " ++ supersededBy))
              | _ => return (.current,
                  some "receipt signature, expiry, signer status, and lifecycle entry are current")

/-- The part of the evaluation after the feed is verified. -/
def evaluateUnder (feed : Feed) (receiptEnvelopeBytes : Bytes) (now minimumSequence : Int) :
    Except Raised Evaluation := do
  let keyid ← envelopeKeyid t receiptEnvelopeBytes
  let issuer ← Except.ofOption
    (rejected "receipt signer is not authorized by the root feed" "untrusted_key") (feed.issuer? keyid)
  let (receipt, _) ← verifyReceiptEnvelope t scheme schema receiptEnvelopeBytes issuer.jwk
  let receiptId ← item receipt "receipt_id"
  if feed.sequence < minimumSequence then
    return unknown feed "lifecycle feed sequence is lower than the verifier's last-seen sequence"
  else if now < feed.generated then return unknown feed "root-signed lifecycle feed is future-dated"
  else if feed.expires ≤ now then return unknown feed "root-signed lifecycle feed is stale"
  else do
    let (state, reason) ← stateOf t feed issuer receipt receiptId now
    let artifact ← item receipt "artifact"
    let digest ← item artifact "digest"
    let artifactSha256 ← item digest "sha256"
    let provenance ← item receipt "provenance"
    let sourceCommit ← item provenance "source_commit"
    let subject : Subject := { receiptId, artifactSha256, sourceCommit, issuerKeyid := keyid }
    return { lifecycle := state, reason, subject := some subject, feedSequence := feed.sequence }

def evaluateReceiptLifecycle (receiptEnvelopeBytes lifecycleEnvelopeBytes : Bytes) (trustedRootJwk : Json)
    (now minimumSequence : Int) : Except Raised Evaluation := do
  let (feed, _) ← verifyLifecycleEnvelope t scheme lifecycleEnvelopeBytes trustedRootJwk
  evaluateUnder t scheme schema feed receiptEnvelopeBytes now minimumSequence

end

end Lifecycle

end VouchSpec
