import VouchSpec.Signing.RoundTrip

/-! What the holders of the keys have signed, and that an accepted envelope
carries one of those payloads under its own type. -/

namespace VouchSpec

namespace Signing

/-- A call of the signer. -/
structure SignCall (Key : Type) where
  payloadType : String
  payload : Bytes
  privateKey : Key
  maximumPayloadBytes : Nat
deriving DecidableEq

section
variable {Key : Type} (t : Toolkit) (scheme : Ed25519 Key)

/-- The call has returned, and this is the message it has signed. -/
def SignCall.Signs (call : SignCall Key) (message : Bytes) : Prop :=
  (∃ envelope, signDssePayload t scheme call.payloadType call.payload call.privateKey
    call.maximumPayloadBytes = .ok envelope) ∧ dssePae call.payloadType call.payload = .ok message

/-- Nothing verifies but what the holder of the key has signed. -/
def Unforgeable (history : List (SignCall Key)) : Prop :=
  ∀ publicKey signature message, scheme.verify publicKey signature message = true →
    ∃ call ∈ history, scheme.publicBytes call.privateKey = publicKey ∧ call.Signs t scheme message

/-- The key id that an envelope names. -/
def envelopeKeyid? (envelopeBytes : Bytes) : Option String := do
  let envelope ← t.loads envelopeBytes
  match envelope.member "signatures" with
  | .arr [record] => (record.member "keyid").str?
  | _ => none

variable {t scheme}

/-- What the verifier has seen of an envelope it accepts. -/
theorem verifyDsseEnvelope_eq_ok {envelopeBytes : Bytes} {payloadType : String} {jwk : Json} {maximum : Nat}
    {payload : Bytes} (hAccepts : verifyDsseEnvelope t scheme envelopeBytes payloadType jwk maximum = .ok payload) :
    ∃ keyid publicKey signature message, envelopeKeyid? t envelopeBytes = some keyid ∧
      jwkThumbprint t jwk = .ok keyid ∧ publicKeyFromJwk t jwk = .ok publicKey ∧
      dssePae payloadType payload = .ok message ∧ scheme.verify publicKey signature message = true ∧
      payload.length ≤ maximum := by
  simp only [verifyDsseEnvelope, openEnvelope, Except.bind_eq_ok_iff, require_eq_ok, exists_const,
    Except.pure_eq_ok_iff, Toolkit.strictJson, Except.ofOption_eq_ok_iff, Prod.exists, Prod.mk.injEq] at hAccepts
  obtain ⟨envelope, record, ⟨-, found, hRead, -, -, sole, hRecord, rfl, rfl⟩, keyid, hThumbprint, hKeyid,
    decoded, hPayload, signature, -, -, publicKey, hKey, message, hMessage, hVerify, rfl⟩ := hAccepts
  refine ⟨keyid, publicKey, signature, message, ?_, hThumbprint, hKey, hMessage, hVerify,
    (b64Decode_eq_ok hPayload).1⟩
  unfold soleSignature at hRecord
  split at hRecord
  · next first hSignatures =>
      simp only [Except.bind_eq_ok_iff, require_eq_ok, exists_const, Except.pure_eq_ok_iff] at hRecord
      obtain ⟨-, rfl⟩ := hRecord
      simp only [envelopeKeyid?, hRead, hSignatures, bind, Option.bind, hKeyid, Json.str?]
  · cases hRecord

/-- The encoding of a type and a payload is injective, and an accepted envelope
carries a payload that the holder of the trusted key has signed under the
expected type. -/
theorem accepted_was_signed (history : List (SignCall Key)) (hUnforgeable : Unforgeable t scheme history) :
    (∀ payloadType other payload image message, dssePae payloadType payload = .ok message →
      dssePae other image = .ok message → payloadType = other ∧ payload = image) ∧
    ∀ envelopeBytes payloadType jwk maximum payload,
      verifyDsseEnvelope t scheme envelopeBytes payloadType jwk maximum = .ok payload →
      ∃ call ∈ history, call.payloadType = payloadType ∧ call.payload = payload ∧
        publicKeyFromJwk t jwk = .ok (scheme.publicBytes call.privateKey) ∧
        jwkThumbprint t jwk = jwkThumbprint t (publicJwk scheme call.privateKey) ∧
        envelopeKeyid? t envelopeBytes = some (keyidOf t scheme call.privateKey) ∧
        ∃ envelope, signDssePayload t scheme call.payloadType call.payload call.privateKey
          call.maximumPayloadBytes = .ok envelope := by
  refine ⟨fun _ _ _ _ _ hLeft hRight => dssePae_inj hLeft hRight, ?_⟩
  intro envelopeBytes payloadType jwk maximum payload hAccepts
  obtain ⟨keyid, publicKey, signature, message, hEnvelope, hThumbprint, hKey, hMessage, hVerify, -⟩ :=
    verifyDsseEnvelope_eq_ok hAccepts
  obtain ⟨call, hCall, rfl, hSigned, hCallMessage⟩ := hUnforgeable _ _ _ hVerify
  obtain ⟨hType, hPayload⟩ := dssePae_inj hCallMessage hMessage
  have hKeyid := jwkThumbprint_eq_of_publicKey t scheme hThumbprint hKey
  refine ⟨call, hCall, hType, hPayload, hKey, ?_, ?_, hSigned⟩
  · rw [hThumbprint, jwkThumbprint_publicJwk, hKeyid]
  · rw [hEnvelope, hKeyid]

end

/-- A scheme that verifies nothing but the listed messages. -/
def onlySigned {Key : Type} (scheme : Ed25519 Key) (signed : List (Bytes × Bytes)) : Ed25519 Key :=
  { scheme with verify := fun publicKey signature message =>
      scheme.verify publicKey signature message && decide ((publicKey, message) ∈ signed) }

theorem onlySigned_verify {Key : Type} {scheme : Ed25519 Key} {signed : List (Bytes × Bytes)}
    {publicKey signature message : Bytes}
    (hVerify : (onlySigned scheme signed).verify publicKey signature message = true) :
    (publicKey, message) ∈ signed :=
  of_decide_eq_true (Bool.and_eq_true_iff.mp hVerify).2

def sampleCall : SignCall Bytes := ⟨receiptPayloadType, [123, 125], [1], maxReceiptBytes⟩

/-- The message of the sample call. -/
def sampleMessage : Bytes :=
  Bytes.ascii "DSSEv1 52 application/vnd.vouchspec.capability-receipt.v1+json 2 " ++ [123, 125]

def sampleScheme : Ed25519 Bytes :=
  onlySigned (.keyedDigest .standard) [((Ed25519.keyedDigest .standard).publicBytes [1], sampleMessage)]

theorem sampleCall_signs : sampleCall.Signs .standard sampleScheme sampleMessage := by
  have hMessage : dssePae sampleCall.payloadType sampleCall.payload = .ok sampleMessage :=
    dssePae_eq_ok.mpr ⟨by decide, by decide⟩
  exact ⟨⟨_, signDssePayload_eq_ok.mpr ⟨⟨by simp [sampleCall], by decide⟩, _, hMessage, rfl⟩⟩, hMessage⟩

theorem sampleScheme_unforgeable : Unforgeable .standard sampleScheme [sampleCall] := by
  intro publicKey signature message hVerify
  have hBoth := List.mem_singleton.mp (onlySigned_verify hVerify)
  obtain ⟨hKey, hMessage⟩ := Prod.mk.inj hBoth
  have hHolder : sampleScheme.publicBytes sampleCall.privateKey =
      (Ed25519.keyedDigest .standard).publicBytes [1] := by
    simp only [sampleScheme, onlySigned, sampleCall]
  refine ⟨sampleCall, List.mem_singleton_self _, hHolder.trans hKey.symm, ?_⟩
  rw [hMessage]
  exact sampleCall_signs

/-- The holder of the sample key has signed one message, and only that one is accepted. -/
theorem accepted_was_signed_sample : sampleCall.Signs .standard sampleScheme sampleMessage ∧
    ∀ envelopeBytes payloadType jwk maximum payload,
      verifyDsseEnvelope .standard sampleScheme envelopeBytes payloadType jwk maximum = .ok payload →
        payloadType = receiptPayloadType ∧ payload = [123, 125] := by
  refine ⟨sampleCall_signs, ?_⟩
  intro envelopeBytes payloadType jwk maximum payload hAccepts
  obtain ⟨call, hCall, hType, hPayload, -⟩ :=
    (accepted_was_signed [sampleCall] sampleScheme_unforgeable).2 _ _ _ _ _ hAccepts
  obtain rfl := List.mem_singleton.mp hCall
  exact ⟨hType.symm, hPayload.symm⟩

end Signing

end VouchSpec
