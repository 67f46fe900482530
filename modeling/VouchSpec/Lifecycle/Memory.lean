import VouchSpec.Lifecycle.Rollback

/-! When the store remembers a feed that an evaluation has verified: the feed is
recorded after the receipt, and an exception over the receipt comes first. -/

namespace VouchSpec

namespace Lifecycle

open Signing Program

section
variable {t : Toolkit}

theorem readMark_short {first : Bool} {record : Json} {depth : Nat} {mark : Mark} (hPlain : record.Plain depth)
    (hRead : readMark first record = .ok mark) : mark.sequence.natAbs < 10 ^ Json.maxDigits := by
  have hSequence : ∃ value : Json, (∃ inner, value.Plain inner) ∧ value.int? = some mark.sequence := by
    simp only [readMark, Except.bind_eq_ok_iff, require_eq_ok, exists_const, Except.ofOption_eq_ok_iff] at hRead
    obtain ⟨-, sequence, hInt, -, hDigest⟩ := hRead
    have hMark : mark.sequence = sequence := by
      split at hDigest
      · exact Except.ok.inj hDigest ▸ rfl
      · simp only [Except.bind_eq_ok_iff, require_eq_ok, exists_const, Except.pure_eq_ok_iff] at hDigest
        exact hDigest.2 ▸ rfl
      · cases hDigest
    refine ⟨_, ?_, hMark ▸ hInt⟩
    cases first with
    | true => exact ⟨depth, hPlain⟩
    | false => exact hPlain.member "sequence"
  obtain ⟨value, ⟨inner, hValue⟩, hInt⟩ := hSequence
  rw [Json.int?_eq_some.mp hInt, Json.plain_int] at hValue
  exact hValue

theorem readMarks_short {first : Bool} {members : List (String × Json)} {depth : Nat} {roots : Roots}
    (hPlain : ∀ member ∈ members, member.2.Plain depth) (hRead : readMarks first members = .ok roots) :
    ∀ entry ∈ roots, entry.2.sequence.natAbs < 10 ^ Json.maxDigits := by
  induction members generalizing roots with
  | nil =>
      obtain rfl : [] = roots := Except.ok.inj hRead
      simp
  | cons member rest ih =>
      simp only [readMarks, Except.bind_eq_ok_iff, Except.pure_eq_ok_iff] at hRead
      obtain ⟨mark, hMark, marks, hMarks, rfl⟩ := hRead
      intro entry hEntry
      rcases List.mem_cons.mp hEntry with rfl | hRest
      · exact readMark_short (hPlain member List.mem_cons_self) hMark
      · exact ih (fun other hOther => hPlain other (List.mem_cons_of_mem _ hOther)) hMarks entry hRest

/-- What is loaded can be written again. -/
theorem load_short {file : Option Bytes} {roots : Roots} (hLoad : load t file = .ok roots) :
    ∀ entry ∈ roots, entry.2.sequence.natAbs < 10 ^ Json.maxDigits := by
  cases file with
  | none =>
      obtain rfl : [] = roots := Except.ok.inj hLoad
      simp
  | some bytes =>
      simp only [load, Except.bind_eq_ok_iff, require_eq_ok, exists_const, Toolkit.strictJson,
        Except.ofOption_eq_ok_iff] at hLoad
      obtain ⟨-, value, hValue, -, -, -, -, hRoots⟩ := hLoad
      obtain ⟨depth, hPlain⟩ := t.plain_of_loads hValue
      obtain ⟨inner, hMember⟩ := hPlain.member "roots"
      split at hRoots
      · next members hMembers =>
          simp only [Except.bind_eq_ok_iff, require_eq_ok, exists_const] at hRoots
          rw [hMembers] at hMember
          cases inner with
          | zero => exact absurd hMember (Json.not_plain_obj members)
          | succ inner => exact readMarks_short hMember.2 hRoots.2
      · cases hRoots

theorem isHexDigest_hexdigest (digest : Digest) : isHexDigest digest.hexdigest = true := by
  simp only [isHexDigest, Bool.and_eq_true, decide_eq_true_eq, List.all_eq_true]
  refine ⟨digest.hexdigest_length, fun c hc => ?_⟩
  rw [Digest.hexdigest, String.toList_ofList] at hc
  obtain ⟨byte, -, hDigit⟩ := List.mem_flatMap.mp hc
  have hKnown : ∀ value < 16, Bytes.hexDigit value ∈ "0123456789abcdef".toList := by decide
  have hByte := byte.toNat_lt
  rcases List.mem_cons.mp hDigit with rfl | hLow
  · exact hKnown _ (by omega)
  · obtain rfl := List.mem_singleton.mp hLow
    exact hKnown _ (by omega)

/-- Every access of a record to the store goes through. -/
structure Writable (access : FileAccess) (disk : Disk) : Prop where
  locks : access.locks = .ok ()
  opens : access.opens = .ok ()
  absent : disk.temporaries access.temporary = none
  writes : access.writes = .ok ()
  replaces : access.replaces = .ok ()

/-- Marks within their bounds are written where the accesses go through, and only there. -/
theorem write_ok_iff {access : FileAccess} {roots : Roots} {disk : Disk}
    (hShort : ∀ entry ∈ roots, entry.2.sequence.natAbs < 10 ^ Json.maxDigits) (hLocks : access.locks = .ok ()) :
    ((do
      access.openTemporary
      Routine.ensuring (do
        access.writeTemporary roots
        access.replaceFile) access.unlink : Routine Disk Raised Unit) disk).1 = .ok () ↔
      Writable access disk := by
  have hDump : dumpRoots roots = .ok (writeRoots roots) := by
    simp only [dumpRoots, require_of hShort, bind, Except.bind, pure, Except.pure]
  simp only [bind, FileAccess.openTemporary, FileAccess.writeTemporary, FileAccess.replaceFile, Routine.ensuring,
    Routine.transaction, Except.bind, hDump, require, pure, Except.pure]
  constructor
  · intro hOk
    cases hOpens : access.opens with
    | error error => simp [hOpens] at hOk
    | ok =>
        by_cases hAbsent : disk.temporaries access.temporary = none
        · cases hWrites : access.writes with
          | error error => simp [hOpens, hAbsent, hWrites] at hOk
          | ok =>
              cases hReplaces : access.replaces with
              | error error => simp [hOpens, hAbsent, hWrites, hReplaces] at hOk
              | ok => exact ⟨hLocks, hOpens, hAbsent, hWrites, hReplaces⟩
        · simp [hOpens, hAbsent] at hOk
  · intro writable
    simp [writable.opens, writable.absent, writable.writes, writable.replaces]

/-- A sequence above the recorded one is recorded where the store can be written. -/
theorem record_ok_iff {access : FileAccess} {trustedRootJwk : Json} {keyid : String} {sequence : Int}
    {digest : Digest} {disk : Disk} {roots : Roots} (hLoad : load t disk.file = .ok roots)
    (hKeyid : jwkThumbprint t trustedRootJwk = .ok keyid) (hPositive : 1 ≤ sequence)
    (hShort : sequence.natAbs < 10 ^ Json.maxDigits)
    (hAbove : recordedSequence t disk.file keyid < sequence) :
    (record t access trustedRootJwk sequence digest.hexdigest disk).1 = .ok () ↔ Writable access disk := by
  have hAdvance : advance roots keyid sequence digest.hexdigest =
      .ok (some (setMark keyid ⟨sequence, some digest.hexdigest⟩ roots)) := by
    rw [recordedSequence, (load_eq_ok hLoad).2.2 keyid] at hAbove
    unfold advance
    cases hMark : mark? roots keyid with
    | none => rfl
    | some current =>
        rw [hMark] at hAbove
        have hLt : current.sequence < sequence := hAbove
        have hOther : sequence ≠ current.sequence := by omega
        simp [require, hLt.le, hOther, bind, Except.bind, pure, Except.pure]
  have hBounded : ∀ entry ∈ setMark keyid ⟨sequence, some digest.hexdigest⟩ roots,
      entry.2.sequence.natAbs < 10 ^ Json.maxDigits := by
    intro entry hEntry
    rcases mem_setMark hEntry with rfl | hKept
    · exact hShort
    · exact load_short hLoad entry hKept
  have hHex := isHexDigest_hexdigest digest
  have hPrepared : prepareRecord t access trustedRootJwk sequence digest.hexdigest disk.file = (do
      access.locks
      return some (setMark keyid ⟨sequence, some digest.hexdigest⟩ roots)) := by
    simp only [prepareRecord, require_of hPositive, require_of hHex, hLoad, hKeyid, hAdvance, bind, Except.bind,
      pure, Except.pure]
  cases hLocks : access.locks with
  | error error =>
      constructor
      · intro hOk
        simp [record, hPrepared, Routine.reading, bind, Except.bind, hLocks] at hOk
      · intro writable
        cases hLocks.symm.trans writable.locks
  | ok =>
      rw [← write_ok_iff hBounded hLocks]
      simp only [record, hPrepared, hLocks, bind, Except.bind, pure, Except.pure, Routine.reading]

end

/-- The fields of a receipt that its schema requires and an evaluation reads. -/
def hasEvaluatedFields (receipt : Json) : Bool :=
  isDict receipt && (receipt.get? "receipt_id").isSome &&
    isDict (receipt.member "artifact") && isDict ((receipt.member "artifact").member "digest") &&
    (((receipt.member "artifact").member "digest").get? "sha256").isSome &&
    isDict (receipt.member "provenance") && ((receipt.member "provenance").get? "source_commit").isSome

theorem item_eq_member {value : Json} {name : String} (hDict : isDict value = true)
    (hSome : (value.get? name).isSome = true) : item value name = .ok (value.member name) := by
  cases value with
  | obj members =>
      obtain ⟨found, hFound⟩ := Option.isSome_iff_exists.mp hSome
      rw [item, Json.member, hFound]
      rfl
  | _ => cases hDict

theorem isSome_of_isDict_member {value : Json} {name : String} (hDict : isDict (value.member name) = true) :
    (value.get? name).isSome = true := by
  cases hFound : value.get? name with
  | none =>
      rw [Json.member, hFound] at hDict
      cases hDict
  | some found => rfl

section
variable {Key : Type} (t : Toolkit) (scheme : Ed25519 Key) (schema : Signing.Schema)

/-- The feed lists the signer of the receipt, the receipt verifies under that key,
and its expiry is a time wherever the evaluation asks for it. -/
def Answerable (feed : Feed) (receiptEnvelope : Bytes) (now : Int) : Prop :=
  ∃ keyid issuer receipt payload, envelopeKeyid t receiptEnvelope = .ok keyid ∧
    feed.issuer? keyid = some issuer ∧
    verifyReceiptEnvelope t scheme schema receiptEnvelope issuer.jwk = .ok (receipt, payload) ∧
    (feed.generated ≤ now → now < feed.expires → issuer.status ≠ .compromised →
      ∀ record, feed.record? (receipt.member "receipt_id") = some record →
        record.status ≠ .revokedKeyCompromise → record.status ≠ .revokedEvaluatorDefect →
        ∃ instant, receiptExpiry t receipt = .ok instant)

variable {t scheme schema}

theorem stateOf_ok_iff {feed : Feed} {issuer : Issuer} {receipt receiptId : Json} {now : Int} :
    (∃ state, stateOf t feed issuer receipt receiptId now = .ok state) ↔
      (issuer.status ≠ .compromised → ∀ record, feed.record? receiptId = some record →
        record.status ≠ .revokedKeyCompromise → record.status ≠ .revokedEvaluatorDefect →
        ∃ instant, receiptExpiry t receipt = .ok instant) := by
  unfold stateOf
  split
  · next hCompromised => simp [hCompromised]
  · next hIssuer =>
      cases hRecord : feed.record? receiptId with
      | none => simp
      | some record =>
          cases hStatus : record.status with
          | revokedKeyCompromise => simp [hStatus]
          | revokedEvaluatorDefect => simp [hStatus]
          | current =>
              cases hExpiry : receiptExpiry t receipt with
              | error error => simp [hIssuer, hStatus, bind, Except.bind]
              | ok expiry => by_cases hPast : expiry ≤ now <;> simp [hStatus, hPast, bind, Except.bind, pure, Except.pure]
          | superseded successor =>
              cases hExpiry : receiptExpiry t receipt with
              | error error => simp [hIssuer, hStatus, bind, Except.bind]
              | ok expiry => by_cases hPast : expiry ≤ now <;> simp [hStatus, hPast, bind, Except.bind, pure, Except.pure]

theorem verifyReceiptEnvelope_schema {envelope payload : Bytes} {jwk receipt : Json}
    (hVerified : verifyReceiptEnvelope t scheme schema envelope jwk = .ok (receipt, payload)) :
    schema receipt = true := by
  simp only [verifyReceiptEnvelope, Except.bind_eq_ok_iff, require_eq_ok, exists_const, Except.pure_eq_ok_iff,
    Prod.mk.injEq] at hVerified
  obtain ⟨_, -, found, -, hSchema, rfl, -⟩ := hVerified
  exact hSchema

/-- The signer is looked up before anything else is done. -/
theorem evaluateUnder_of_unlisted {feed : Feed} {receiptEnvelope : Bytes} {keyid : String} {now minimum : Int}
    (hKeyid : envelopeKeyid t receiptEnvelope = .ok keyid) (hUnlisted : feed.issuer? keyid = none) :
    evaluateUnder t scheme schema feed receiptEnvelope now minimum =
      .error (rejected "receipt signer is not authorized by the root feed" "untrusted_key") := by
  simp only [evaluateUnder, hKeyid, hUnlisted, Except.ofOption, bind, Except.bind]

/-- An evaluation under a feed that is not too old returns exactly for such a receipt. -/
theorem evaluateUnder_ok_iff (hSchema : ∀ receipt, schema receipt = true → hasEvaluatedFields receipt = true)
    {feed : Feed} {receiptEnvelope : Bytes} {now minimum : Int} (hNew : minimum ≤ feed.sequence) :
    (∃ result, evaluateUnder t scheme schema feed receiptEnvelope now minimum = .ok result) ↔
      Answerable t scheme schema feed receiptEnvelope now := by
  have hNotLow : ¬feed.sequence < minimum := by omega
  cases hKeyid : envelopeKeyid t receiptEnvelope with
  | error error => simp [evaluateUnder, Answerable, hKeyid, bind, Except.bind]
  | ok keyid =>
      cases hIssuer : feed.issuer? keyid with
      | none => simp [evaluateUnder, Answerable, hKeyid, hIssuer, Except.ofOption, bind, Except.bind]
      | some issuer =>
          cases hReceipt : verifyReceiptEnvelope t scheme schema receiptEnvelope issuer.jwk with
          | error error => simp [evaluateUnder, Answerable, hKeyid, hIssuer, hReceipt, Except.ofOption, bind, Except.bind]
          | ok verified =>
              obtain ⟨receipt, payload⟩ := verified
              have hFields := hSchema receipt (verifyReceiptEnvelope_schema hReceipt)
              simp only [hasEvaluatedFields, Bool.and_eq_true] at hFields
              obtain ⟨⟨⟨⟨⟨⟨hDict, hId⟩, hArtifact⟩, hDigest⟩, hSha⟩, hProvenance⟩, hCommit⟩ := hFields
              have hState := @stateOf_ok_iff t feed issuer receipt (receipt.member "receipt_id") now
              simp only [evaluateUnder, Answerable, hKeyid, hIssuer, hReceipt, Except.ofOption, bind, Except.bind,
                item_eq_member hDict hId, item_eq_member hDict (isSome_of_isDict_member hArtifact),
                item_eq_member hArtifact (isSome_of_isDict_member hDigest), item_eq_member hDigest hSha,
                item_eq_member hDict (isSome_of_isDict_member hProvenance), item_eq_member hProvenance hCommit,
                if_neg hNotLow]
              constructor
              · rintro ⟨result, hResult⟩
                refine ⟨keyid, issuer, receipt, payload, rfl, hIssuer, hReceipt, fun hStarted hLive => ?_⟩
                rw [if_neg (by omega), if_neg (by omega)] at hResult
                apply hState.mp
                cases hOutcome : stateOf t feed issuer receipt (receipt.member "receipt_id") now with
                | error error =>
                    rw [hOutcome] at hResult
                    cases hResult
                | ok state => exact ⟨state, rfl⟩
              · rintro ⟨_, _, _, _, hSame, hListed, hRead, hExpiry⟩
                obtain rfl := Except.ok.inj hSame
                obtain rfl := Option.some.inj (hIssuer.symm.trans hListed)
                obtain ⟨rfl, rfl⟩ := Prod.mk.inj (Except.ok.inj (hReceipt.symm.trans hRead))
                by_cases hEarly : now < feed.generated
                · exact ⟨_, if_pos hEarly⟩
                · by_cases hStale : feed.expires ≤ now
                  · exact ⟨_, (if_neg hEarly).trans (if_pos hStale)⟩
                  · obtain ⟨state, hOutcome⟩ := hState.mpr (hExpiry (by omega) (by omega))
                    rw [if_neg hEarly, if_neg hStale, hOutcome]
                    exact ⟨_, rfl⟩

theorem verifyLifecycleEnvelope_short {envelope payload : Bytes} {trustedRootJwk : Json} {feed : Feed}
    (hVerified : verifyLifecycleEnvelope t scheme envelope trustedRootJwk = .ok (feed, payload)) :
    feed.sequence.natAbs < 10 ^ Json.maxDigits := by
  simp only [verifyLifecycleEnvelope, Except.bind_eq_ok_iff, Except.pure_eq_ok_iff, Prod.mk.injEq,
    Toolkit.strictJson, Except.ofOption_eq_ok_iff] at hVerified
  obtain ⟨_, -, value, hValue, _, hFeed, rfl, -⟩ := hVerified
  obtain ⟨depth, hPlain⟩ := t.plain_of_loads hValue
  obtain ⟨inner, hMember⟩ := hPlain.member "sequence"
  simp only [validateLifecycleFeed, Except.bind_eq_ok_iff, require_eq_ok, exists_const, Except.pure_eq_ok_iff,
    Except.ofOption_eq_ok_iff] at hFeed
  obtain ⟨-, -, sequence, hInt, -, -, -, -, -, -, -, -, -, -, -, -, -, -, rfl⟩ := hFeed
  rw [Json.int?_eq_some.mp hInt, Json.plain_int] at hMember
  exact hMember

/-- A call whose feed is verified and whose minimum is read, without interruption. -/
theorem evaluateReceiptLifecycleWithState_run {inquiry : Inquiry} {disk : Disk} {feed : Feed} {payload : Bytes}
    {minimumSequence : Int}
    (hVerified : verifyLifecycleEnvelope t scheme inquiry.lifecycleEnvelope inquiry.trustedRootJwk =
      .ok (feed, payload)) (hReads : inquiry.access.reads = .ok ())
    (hMinimum : minimum t disk.file inquiry.trustedRootJwk = .ok minimumSequence) :
    (evaluateReceiptLifecycleWithState t scheme schema inquiry).run disk =
      match evaluateUnder t scheme schema feed inquiry.receiptEnvelope inquiry.now minimumSequence with
      | .error error => (.error error, disk)
      | .ok result =>
          if minimumSequence ≤ result.feedSequence then
            match record t inquiry.access inquiry.trustedRootJwk feed.sequence (t.sha256 payload).hexdigest disk with
            | (.ok _, after) => (.ok result, after)
            | (.error error, after) => (.error error, after)
          else (.ok result, disk) := by
  have hEvaluated : evaluateReceiptLifecycle t scheme schema inquiry.receiptEnvelope inquiry.lifecycleEnvelope
      inquiry.trustedRootJwk inquiry.now minimumSequence =
        evaluateUnder t scheme schema feed inquiry.receiptEnvelope inquiry.now minimumSequence := by
    rw [evaluateReceiptLifecycle, hVerified]
    rfl
  simp only [evaluateReceiptLifecycleWithState, readMinimum, run_bind, run_check, run_read, hVerified]
  simp only [bind, Routine.reading, Except.bind, hReads, hMinimum, hEvaluated]
  cases evaluateUnder t scheme schema feed inquiry.receiptEnvelope inquiry.now minimumSequence with
  | error error => rfl
  | ok result =>
      simp only
      split
      · rw [recordFeed, run_andThen, run_once]
        simp only [bind]
        cases record t inquiry.access inquiry.trustedRootJwk feed.sequence (t.sha256 payload).hexdigest disk with
        | mk outcome after => cases outcome <;> rfl
      · rfl

/-- The feed of a call is remembered when it was the last one already, or when the
receipt is answerable and the store can be written, and only then. Once it is,
no older feed of that root gives CURRENT. -/
theorem remembered_iff (t : Toolkit) (scheme : Ed25519 Key) (schema : Signing.Schema)
    (hSchema : ∀ receipt, schema receipt = true → hasEvaluatedFields receipt = true)
    (inquiry : Inquiry) (disk : Disk) (feed : Feed) (payload : Bytes) (keyid : String) (minimumSequence : Int)
    (hVerified : verifyLifecycleEnvelope t scheme inquiry.lifecycleEnvelope inquiry.trustedRootJwk =
      .ok (feed, payload))
    (hKeyid : jwkThumbprint t inquiry.trustedRootJwk = .ok keyid) (hReads : inquiry.access.reads = .ok ())
    (hMinimum : minimum t disk.file inquiry.trustedRootJwk = .ok minimumSequence)
    (hNew : minimumSequence ≤ feed.sequence) :
    (feed.sequence ≤ recordedSequence t
        ((evaluateReceiptLifecycleWithState t scheme schema inquiry).run disk).2.file keyid ↔
      feed.sequence = minimumSequence ∨
        Answerable t scheme schema feed inquiry.receiptEnvelope inquiry.now ∧ Writable inquiry.access disk) ∧
    ∀ after, feed.sequence ≤ recordedSequence t after.file keyid →
      ∀ replay older image verdict, jwkThumbprint t replay.trustedRootJwk = .ok keyid →
        verifyLifecycleEnvelope t scheme replay.lifecycleEnvelope replay.trustedRootJwk = .ok (older, image) →
        older.sequence < feed.sequence →
        ((evaluateReceiptLifecycleWithState t scheme schema replay).run after).1 = .ok verdict →
        verdict.lifecycle = .signatureValidLifecycleUnknown := by
  constructor
  · rw [evaluateReceiptLifecycleWithState_run hVerified hReads hMinimum,
      ← evaluateUnder_ok_iff hSchema hNew]
    have hRecorded := minimum_eq_ok hKeyid hMinimum
    have hPositive := (verifyLifecycleEnvelope_eq_ok hVerified).2
    cases hResult : evaluateUnder t scheme schema feed inquiry.receiptEnvelope inquiry.now minimumSequence with
    | error error =>
        simp only [reduceCtorEq, exists_false, false_and, or_false, ← hRecorded]
        omega
    | ok result =>
        have hSequence : result.feedSequence = feed.sequence := (evaluateUnder_eq_ok hResult).1
        simp only [hSequence, if_pos hNew, Except.ok.injEq, exists_eq', true_and]
        obtain ⟨roots, hLoad⟩ : ∃ roots, load t disk.file = .ok roots := by
          simp only [minimum, Except.bind_eq_ok_iff] at hMinimum
          exact hMinimum.imp fun _ hLoad => hLoad.1
        have hWritable := @record_ok_iff t inquiry.access _ keyid feed.sequence (t.sha256 payload) disk roots hLoad
          hKeyid hPositive (verifyLifecycleEnvelope_short hVerified)
        have hRecord := record_triple t inquiry.access inquiry.trustedRootJwk feed.sequence
          (t.sha256 payload).hexdigest disk.file disk rfl
        cases hRun : record t inquiry.access inquiry.trustedRootJwk feed.sequence (t.sha256 payload).hexdigest
          disk with
        | mk outcome after =>
            rw [hRun] at hRecord hWritable
            cases outcome with
            | error error =>
                have hFile : after.file = disk.file := hRecord
                simp only [hFile, ← hRecorded]
                constructor
                · intro hLe
                  exact Or.inl (by omega)
                · rintro (hSame | hWrite)
                  · omega
                  · by_contra hLow
                    cases (hWritable (by omega)).mpr hWrite
            | ok value =>
                obtain ⟨other, hOther, hRecords⟩ := hRecord
                obtain rfl := Except.ok.inj (hKeyid.symm.trans hOther)
                have hStored : recordedSequence t after.file keyid = feed.sequence := by
                  rw [recordedSequence, hRecords.self]
                  rfl
                simp only [hStored, le_refl, true_iff]
                by_cases hSame : feed.sequence = minimumSequence
                · exact Or.inl hSame
                · exact Or.inr ((hWritable (by omega)).mp rfl)
  · intro after hStored replay older image verdict hRoot hOlder hBelow hVerdict
    have hPositive := (verifyLifecycleEnvelope_eq_ok hVerified).2
    cases hMark : recorded? t after.file keyid with
    | none =>
        rw [recordedSequence, hMark] at hStored
        have hNegative : feed.sequence ≤ 0 := hStored
        omega
    | some stored =>
        rw [recordedSequence, hMark] at hStored
        have hAbove : Above t replay (some stored) after := by
          intro other hOther
          obtain rfl := Except.ok.inj (hRoot.symm.trans hOther)
          rw [hMark]
          exact Watermark.Below.refl _
        have hPost := ((@evaluation_outline _ t scheme schema replay (some stored)).run trivial hAbove).2
        rw [hVerdict] at hPost
        by_contra hOther
        obtain ⟨hLe, -⟩ := (hPost older image keyid hOlder hRoot).2 hOther stored rfl
        exact absurd (show feed.sequence ≤ stored.sequence from hStored) (by omega)

end

/-- An envelope whose signer no feed lists. -/
def unlistedEnvelope : Json :=
  .obj [("payload", .str "e30="), ("payloadType", .str receiptPayloadType),
    ("signatures", .arr [.obj [("keyid", .str "unlisted"), ("sig", .str "AA==")]])]

theorem envelopeKeyid_unlisted : envelopeKeyid .standard (jsonLine unlistedEnvelope) = .ok "unlisted" := by
  have hPlain : unlistedEnvelope.Plain readableDepth := by
    simp [unlistedEnvelope, readableDepth]
  have hSorted : unlistedEnvelope.sorted = unlistedEnvelope := by
    simp only [unlistedEnvelope, Json.sorted, Json.sortedMembers, Json.sortedItems, List.insertionSort_cons,
      List.insertionSort_nil, List.orderedInsert, String.reduceLE, if_true]
  rw [envelopeKeyid, Toolkit.standard.strictJson_jsonLine hPlain, hSorted]
  rfl

/-- The sample feed does not list it. -/
theorem sampleFeed_unlisted : (sampleFeedRead 1 .active [1]).issuer? "unlisted" = none := by
  have hLength := keyidOf_length .standard (.keyedDigest .standard) [1]
  rw [Feed.issuer?, List.find?_eq_none]
  intro issuer hIssuer hSame
  rw [List.mem_singleton.mp hIssuer] at hSame
  have hKeyid : keyidOf .standard (.keyedDigest .standard) [1] = "unlisted" := of_decide_eq_true hSame
  rw [hKeyid] at hLength
  exact absurd hLength (by decide)

/-- A receipt by an unlisted signer, with the sample feed, over an empty store. -/
def unlistedInquiry (lifecycleEnvelope : Bytes) : Inquiry :=
  { receiptEnvelope := jsonLine unlistedEnvelope, lifecycleEnvelope
    trustedRootJwk := publicJwk (.keyedDigest .standard) [2], now := 1767225600000000
    access := { temporary := ".sequences.tmp" } }

theorem recordedSequence_none (t : Toolkit) (keyid : String) : recordedSequence t none keyid = 0 := rfl

theorem minimum_of_empty : minimum .standard none (publicJwk (.keyedDigest .standard) [2]) = .ok 0 := by
  simp only [minimum, load, jwkThumbprint_publicJwk, bind, Except.bind]
  rfl

theorem remembered_iff_unlisted : ∃ lifecycleEnvelope feed payload,
    verifyLifecycleEnvelope .standard (.keyedDigest .standard) lifecycleEnvelope
      (publicJwk (.keyedDigest .standard) [2]) = .ok (feed, payload) ∧
    ¬feed.sequence ≤ recordedSequence .standard ((evaluateReceiptLifecycleWithState .standard
      (.keyedDigest .standard) hasEvaluatedFields (unlistedInquiry lifecycleEnvelope)).run
        ⟨none, fun _ => none⟩).2.file (keyidOf .standard (.keyedDigest .standard) [2]) := by
  obtain ⟨envelope, hVerified⟩ := weekFeed_verified [2] [1] .active
  refine ⟨envelope, _, _, hVerified, ?_⟩
  rw [(remembered_iff .standard (.keyedDigest .standard) hasEvaluatedFields (fun _ => id) (unlistedInquiry envelope)
    ⟨none, fun _ => none⟩ _ _ _ 0 hVerified (jwkThumbprint_publicJwk _ _ _) rfl minimum_of_empty (by decide)).1]
  rintro (hSame | ⟨⟨keyid, issuer, _, _, hKeyid, hListed, -⟩, -⟩)
  · exact absurd hSame (by decide)
  · obtain rfl := Except.ok.inj (envelopeKeyid_unlisted.symm.trans hKeyid)
    rw [sampleFeed_unlisted] at hListed
    cases hListed

/-- A verified newer feed is forgotten when the receipt's signer is not listed in it. -/
theorem unlisted_signer_forgets_feed : ¬∀ (inquiry : Inquiry) (disk : Disk) (feed : Feed) (payload : Bytes)
    (keyid : String) (minimumSequence : Int),
    verifyLifecycleEnvelope .standard (.keyedDigest .standard) inquiry.lifecycleEnvelope inquiry.trustedRootJwk =
      .ok (feed, payload) →
    jwkThumbprint .standard inquiry.trustedRootJwk = .ok keyid → inquiry.access.reads = .ok () →
    minimum .standard disk.file inquiry.trustedRootJwk = .ok minimumSequence →
    minimumSequence ≤ feed.sequence → Writable inquiry.access disk →
    feed.sequence ≤ recordedSequence .standard ((evaluateReceiptLifecycleWithState .standard
      (.keyedDigest .standard) hasEvaluatedFields inquiry).run disk).2.file keyid := by
  intro hClaim
  obtain ⟨envelope, hVerified⟩ := weekFeed_verified [2] [1] .active
  have hRemembered := hClaim (unlistedInquiry envelope) ⟨none, fun _ => none⟩ _ _ _ 0 hVerified
    (jwkThumbprint_publicJwk _ _ _) rfl minimum_of_empty (by decide) ⟨rfl, rfl, rfl, rfl, rfl⟩
  have hRun := @evaluateReceiptLifecycleWithState_run _ .standard (.keyedDigest .standard) hasEvaluatedFields
    (unlistedInquiry envelope) ⟨none, fun _ => none⟩ _ _ 0 hVerified rfl minimum_of_empty
  rw [show (unlistedInquiry envelope).receiptEnvelope = jsonLine unlistedEnvelope from rfl,
    evaluateUnder_of_unlisted envelopeKeyid_unlisted sampleFeed_unlisted] at hRun
  rw [hRun] at hRemembered
  have hZero : (1 : Int) ≤ 0 := (recordedSequence_none .standard _) ▸ hRemembered
  exact absurd hZero (by decide)

end Lifecycle

end VouchSpec
