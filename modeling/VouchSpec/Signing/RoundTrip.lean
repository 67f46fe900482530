import VouchSpec.Signing.Envelope

/-! A signed envelope, written on a line, is accepted under the signer's key
when it fits the size limit of envelopes, which is counted in encoded bytes. -/

namespace VouchSpec

namespace Signing

/-- The payloads that the program signs. -/
inductive Profile where
  | receipt
  | lifecycle
  | catalogIndex
deriving DecidableEq

def Profile.payloadType : Profile → String
  | .receipt => receiptPayloadType
  | .lifecycle => lifecyclePayloadType
  | .catalogIndex => catalogIndexPayloadType

/-- The payload limit that signer and verifier share. -/
def Profile.maximum : Profile → Nat
  | .receipt => maxReceiptBytes
  | .lifecycle => 1000000
  | .catalogIndex => 5000000

/-- The members of an envelope in the order in which they are written. -/
def written (payloadType keyid : String) (payload signature : Bytes) : Json :=
  .obj [("payload", .str (b64encode payload)), ("payloadType", .str payloadType),
    ("signatures", .arr [.obj [("keyid", .str keyid), ("sig", .str (b64encode signature))]])]

section
variable {Key : Type} {t : Toolkit} {scheme : Ed25519 Key} {payloadType : String} {payload : Bytes}
  {key : Key} {maximum : Nat} {envelope : Json}

theorem signDssePayload_eq_ok : signDssePayload t scheme payloadType payload key maximum = .ok envelope ↔
    (payload ≠ [] ∧ payload.length ≤ maximum) ∧ ∃ message, dssePae payloadType payload = .ok message ∧
      envelope = .obj [("payloadType", .str payloadType), ("payload", .str (b64encode payload)),
        ("signatures", .arr [.obj [("keyid", .str (keyidOf t scheme key)),
          ("sig", .str (b64encode (scheme.sign key message)))]])] := by
  simp only [signDssePayload, jwkThumbprint_publicJwk, Except.bind_eq_ok_iff, require_eq_ok, exists_const,
    Except.pure_eq_ok_iff, Except.ok.injEq, exists_eq_left', @eq_comm Json _ envelope]

theorem sorted_envelope (keyid : String) (signature : Bytes) :
    (Json.obj [("payloadType", .str payloadType), ("payload", .str (b64encode payload)),
      ("signatures", .arr [.obj [("keyid", .str keyid), ("sig", .str (b64encode signature))]])]).sorted =
      written payloadType keyid payload signature := by
  simp only [Json.sorted, Json.sortedMembers, Json.sortedItems, List.insertionSort_cons,
    List.insertionSort_nil, List.orderedInsert, String.reduceLE, if_true, if_false, written]

theorem stringText_safe {value : String} (hSafe : ∀ c ∈ value.toList, Safe c) :
    Json.stringText value = Json.quote :: (value.toList ++ [Json.quote]) := by
  have hSame : ∀ characters : List Char, (∀ c ∈ characters, Safe c) →
      characters.flatMap Json.escapeChar = characters := by
    intro characters hSafe
    induction characters with
    | nil => rfl
    | cons c rest ih =>
        have hChar := hSafe c (by simp)
        have hEscape : Json.escapeChar c = [c] := by
          unfold Json.escapeChar
          split <;> first | (exfalso; unfold Safe at hChar; omega) | skip
          rw [if_neg (by unfold Safe at hChar; omega)]
        rw [List.flatMap_cons, hEscape, ih fun d hd => hSafe d (List.mem_cons_of_mem _ hd)]
        rfl
  rw [Json.stringText, hSame _ hSafe]

theorem written_plain (payloadType keyid : String) (payload signature : Bytes) :
    (written payloadType keyid payload signature).Plain readableDepth := by
  simp [written, readableDepth, Json.plain_obj]

/-- The characters of an envelope. -/
theorem written_text {keyid : String} {signature : Bytes} (hType : ∀ c ∈ payloadType.toList, Safe c)
    (hKeyid : ∀ c ∈ keyid.toList, Safe c) :
    (∀ c ∈ (written payloadType keyid payload signature).text, c.toNat < 128) ∧
      (written payloadType keyid payload signature).text.length =
        68 + payloadType.toList.length + keyid.toList.length + (Bytes.base64 payload).length +
          (Bytes.base64 signature).length := by
  have hBase64 : ∀ bytes, Json.stringText (b64encode bytes) = Json.quote :: (Bytes.base64 bytes ++ [Json.quote]) := by
    intro bytes
    rw [stringText_safe, b64encode, String.toList_ofList]
    rw [b64encode, String.toList_ofList]
    exact safe_base64 bytes
  have hName : ∀ name ∈ ["payload", "payloadType", "signatures", "keyid", "sig"],
      Json.stringText name = Json.quote :: (name.toList ++ [Json.quote]) := by
    intro name hName
    apply stringText_safe
    simp only [List.mem_cons, List.not_mem_nil, or_false] at hName
    rcases hName with rfl | rfl | rfl | rfl | rfl <;> simp [Safe]
  have hAscii : ∀ characters : List Char, (∀ c ∈ characters, Safe c) → ∀ c ∈ characters, c.toNat < 128 :=
    fun characters hSafe c hc => Nat.lt_succ_of_lt (hSafe c hc).2.1
  simp only [written, Json.text, Json.membersText, Json.itemsText, hBase64, stringText_safe hType,
    stringText_safe hKeyid, hName "payload" (by simp), hName "payloadType" (by simp),
    hName "signatures" (by simp), hName "keyid" (by simp), hName "sig" (by simp)]
  constructor
  · simp only [List.forall_mem_cons, List.forall_mem_append]
    simp only [eq_true (hAscii _ (safe_base64 payload)), eq_true (hAscii _ (safe_base64 signature)),
      eq_true (hAscii _ hType), eq_true (hAscii _ hKeyid)]
    simp [Json.quote]
  · simp only [List.length_cons, List.length_append, List.length_nil]
    simp only [show "payload".toList.length = 7 from rfl, show "payloadType".toList.length = 11 from rfl,
      show "signatures".toList.length = 10 from rfl, show "keyid".toList.length = 5 from rfl,
      show "sig".toList.length = 3 from rfl]
    omega

theorem safe_keyidOf (key : Key) : ∀ c ∈ (keyidOf t scheme key).toList, Safe c := by
  intro c hc
  rw [keyidOf, b64urlNoPad, String.toList_ofList] at hc
  exact (safe_base64Url _ c hc).1

/-- The size of an envelope on its line. -/
theorem jsonLine_length (hType : ∀ c ∈ payloadType.toList, Safe c)
    (hSigned : signDssePayload t scheme payloadType payload key maximum = .ok envelope) :
    (jsonLine envelope).length = 200 + payloadType.toList.length + 4 * ((payload.length + 2) / 3) := by
  obtain ⟨-, message, -, rfl⟩ := signDssePayload_eq_ok.mp hSigned
  obtain ⟨hAscii, hLength⟩ := written_text
    hType (@safe_keyidOf _ t scheme key)
  rw [jsonLine, deterministicJson, sorted_envelope, List.length_append, Bytes.utf8_length_of_ascii hAscii,
    hLength, Bytes.base64_length, Bytes.base64_length, scheme.sign_length, keyidOf_length]
  simp only [List.length_cons, List.length_nil]
  omega

theorem openEnvelope_jsonLine (hSigned : signDssePayload t scheme payloadType payload key maximum = .ok envelope)
    {message : Bytes} (hMessage : dssePae payloadType payload = .ok message)
    (hFits : (jsonLine envelope).length ≤ maxEnvelopeBytes) :
    openEnvelope t (jsonLine envelope) payloadType =
      .ok (written payloadType (keyidOf t scheme key) payload (scheme.sign key message),
        .obj [("keyid", .str (keyidOf t scheme key)), ("sig", .str (b64encode (scheme.sign key message)))]) := by
  obtain ⟨-, signed, hSame, rfl⟩ := signDssePayload_eq_ok.mp hSigned
  obtain rfl : signed = message := Except.ok.inj (hSame.symm.trans hMessage)
  have hSome : ∀ value, jsonLine value ≠ [] := by
    intro value
    rw [jsonLine]
    exact List.append_ne_nil_of_right_ne_nil _ (by simp)
  have hPlain : (Json.obj [("payloadType", .str payloadType), ("payload", .str (b64encode payload)),
      ("signatures", .arr [.obj [("keyid", .str (keyidOf t scheme key)),
        ("sig", .str (b64encode (scheme.sign key signed)))]])]).Plain readableDepth := by
    simp [readableDepth]
  have hMembers : (written payloadType (keyidOf t scheme key) payload (scheme.sign key signed)).hasExactly
      ["payloadType", "payload", "signatures"] = true := by
    simp [written, Json.hasExactly]
  rw [openEnvelope, require_of ⟨hSome _, hFits⟩, t.strictJson_jsonLine hPlain, sorted_envelope]
  have hType : (written payloadType (keyidOf t scheme key) payload (scheme.sign key signed)).member
      "payloadType" = .str payloadType := rfl
  have hRecord : soleSignature ((written payloadType (keyidOf t scheme key) payload
      (scheme.sign key signed)).member "signatures") = .ok (.obj [("keyid", .str (keyidOf t scheme key)),
        ("sig", .str (b64encode (scheme.sign key signed)))]) := by
    have hNames : (Json.obj [("keyid", .str (keyidOf t scheme key)),
        ("sig", .str (b64encode (scheme.sign key signed)))]).hasExactly ["keyid", "sig"] = true := by
      simp [Json.hasExactly]
    exact (congrArg (· >>= fun _ => pure _) (require_of hNames) :)
  simp only [bind, Except.bind, require_of hMembers, require_of hType, hRecord, pure, Except.pure]

/-- An accepted payload is read back from its envelope, unless the envelope is too large. -/
theorem verifyDsseEnvelope_signed (hCorrect : scheme.Correct)
    (hSigned : signDssePayload t scheme payloadType payload key maximum = .ok envelope) :
    verifyDsseEnvelope t scheme (jsonLine envelope) payloadType (publicJwk scheme key) maximum =
      if (jsonLine envelope).length ≤ maxEnvelopeBytes then .ok payload
      else .error (rejected "envelope is empty or too large" "invalid_envelope") := by
  obtain ⟨⟨hSome, hLimit⟩, message, hMessage, -⟩ := signDssePayload_eq_ok.mp hSigned
  split
  · next hFits =>
      have hSignature : scheme.sign key message ≠ [] := by
        intro h
        have hLength := scheme.sign_length key message
        rw [h] at hLength
        cases hLength
      have hSmall : (scheme.sign key message).length ≤ 128 := by
        rw [scheme.sign_length]
        decide
      have hPayload : b64Decode ((written payloadType (keyidOf t scheme key) payload
          (scheme.sign key message)).member "payload") maximum = .ok payload :=
        (b64Decode_b64encode hSome).trans (if_pos hLimit)
      have hDecoded : b64Decode ((Json.obj [("keyid", .str (keyidOf t scheme key)),
          ("sig", .str (b64encode (scheme.sign key message)))]).member "sig") 128 =
            .ok (scheme.sign key message) :=
        (b64Decode_b64encode hSignature).trans (if_pos hSmall)
      have hKeyid : (Json.obj [("keyid", .str (keyidOf t scheme key)),
          ("sig", .str (b64encode (scheme.sign key message)))]).member "keyid" =
            .str (keyidOf t scheme key) := rfl
      rw [verifyDsseEnvelope, openEnvelope_jsonLine hSigned hMessage hFits]
      simp only [bind, Except.bind, jwkThumbprint_publicJwk, require_of hKeyid, hPayload, hDecoded,
        require_of (scheme.sign_length key message), publicKeyFromJwk_publicJwk, hMessage,
        require_of (hCorrect key message)]
      rfl
  · next hLarge =>
      have hSize : ¬(jsonLine envelope ≠ [] ∧ (jsonLine envelope).length ≤ maxEnvelopeBytes) := fun h =>
        hLarge h.2
      rw [verifyDsseEnvelope, openEnvelope]
      simp only [require, if_neg hSize, bind, Except.bind]

/-- The largest catalog index whose envelope fits. -/
def maxIndexBytes : Nat := 1499814

theorem Profile.safe (profile : Profile) : ∀ c ∈ profile.payloadType.toList, Safe c := by
  cases profile <;> simp [Profile.payloadType, receiptPayloadType, lifecyclePayloadType, catalogIndexPayloadType, Safe]

/-- A payload that the signer accepts is read back by the verifier exactly when it
is no catalog index, or one of at most `maxIndexBytes` bytes. -/
theorem verify_signed_iff (t : Toolkit) (hCorrect : scheme.Correct) (profile : Profile) (payload : Bytes)
    (key : Key) (envelope : Json)
    (hSigned : signDssePayload t scheme profile.payloadType payload key profile.maximum = .ok envelope) :
    verifyDsseEnvelope t scheme (jsonLine envelope) profile.payloadType (publicJwk scheme key)
        profile.maximum = .ok payload ↔
      profile ≠ .catalogIndex ∨ payload.length ≤ maxIndexBytes := by
  have hLength := jsonLine_length profile.safe hSigned
  have hLimit := (signDssePayload_eq_ok.mp hSigned).1.2
  have hFits : (jsonLine envelope).length ≤ maxEnvelopeBytes ↔
      profile ≠ .catalogIndex ∨ payload.length ≤ maxIndexBytes := by
    cases profile with
    | receipt =>
        have hType : Profile.receipt.payloadType.toList.length = 52 := by decide
        have hMaximum : payload.length ≤ 1000000 := hLimit
        simp only [ne_eq, reduceCtorEq, not_false_eq_true, true_or, iff_true, maxEnvelopeBytes]
        omega
    | lifecycle =>
        have hType : Profile.lifecycle.payloadType.toList.length = 51 := by decide
        have hMaximum : payload.length ≤ 1000000 := hLimit
        simp only [ne_eq, reduceCtorEq, not_false_eq_true, true_or, iff_true, maxEnvelopeBytes]
        omega
    | catalogIndex =>
        have hType : Profile.catalogIndex.payloadType.toList.length = 47 := by decide
        simp only [ne_eq, not_true_eq_false, false_or, maxEnvelopeBytes, maxIndexBytes]
        omega
  rw [verifyDsseEnvelope_signed hCorrect hSigned, ← hFits]
  split
  · next h => simp [h]
  · next h => simp [h]

theorem signDssePayload_profile (t : Toolkit) (scheme : Ed25519 Key) (profile : Profile) (payload : Bytes)
    (hSome : payload ≠ []) (hLimit : payload.length ≤ profile.maximum) (key : Key) :
    ∃ envelope, signDssePayload t scheme profile.payloadType payload key profile.maximum = .ok envelope := by
  have hType : profile.payloadType ≠ "" ∧ Bytes.isAscii profile.payloadType = true := by
    cases profile <;> decide
  exact ⟨_, signDssePayload_eq_ok.mpr ⟨⟨hSome, hLimit⟩, _, dssePae_eq_ok.mpr ⟨hType, rfl⟩, rfl⟩⟩

end

theorem verify_signed_receipt : ∃ envelope,
    signDssePayload .standard (.keyedDigest .standard) receiptPayloadType [123, 125] [1] maxReceiptBytes =
      .ok envelope ∧
    verifyDsseEnvelope .standard (.keyedDigest .standard) (jsonLine envelope) receiptPayloadType
      (publicJwk (.keyedDigest .standard) [1]) maxReceiptBytes = .ok [123, 125] := by
  obtain ⟨envelope, hSigned⟩ := signDssePayload_profile .standard (.keyedDigest .standard) .receipt
    [123, 125] (by simp) (by decide) [1]
  exact ⟨envelope, hSigned, (verify_signed_iff .standard (Ed25519.keyedDigest_correct _) .receipt _ _ _ hSigned).mpr
    (Or.inl (by decide))⟩

/-- An index of 1499815 bytes is signed, and its envelope is refused. -/
theorem large_index_refused : ¬∀ (profile : Profile) (payload : Bytes) (key : Bytes) (envelope : Json),
    signDssePayload .standard (.keyedDigest .standard) profile.payloadType payload key profile.maximum =
      .ok envelope →
    verifyDsseEnvelope .standard (.keyedDigest .standard) (jsonLine envelope) profile.payloadType
      (publicJwk (.keyedDigest .standard) key) profile.maximum = .ok payload := by
  intro hClaim
  have hLength : (List.replicate 1499815 (32 : UInt8)).length = 1499815 := List.length_replicate
  obtain ⟨envelope, hSigned⟩ := signDssePayload_profile .standard (.keyedDigest .standard) .catalogIndex
    (List.replicate 1499815 32) (by intro h; rw [h] at hLength; cases hLength)
    (by rw [hLength]; decide) [1]
  have hVerified := hClaim .catalogIndex _ _ _ hSigned
  have hSize := jsonLine_length (Profile.safe .catalogIndex) hSigned
  have hType : Profile.catalogIndex.payloadType.toList.length = 47 := by decide
  rw [hLength, hType] at hSize
  rw [verifyDsseEnvelope_signed (Ed25519.keyedDigest_correct _) hSigned, if_neg (by rw [hSize]; decide)] at hVerified
  cases hVerified

end Signing

end VouchSpec
