import VouchSpec.Library.Loops
import VouchSpec.Lifecycle.Memory

/-! What a verdict says: the receipts that an evaluation calls current, and which of
several causes an evaluation names that finds a receipt not current. -/

namespace VouchSpec

namespace Lifecycle

open Signing

section
variable {t : Toolkit}

theorem readIssuer_fresh {seen : List String} {record : Json} {issuer : Issuer}
    (hRead : readIssuer t seen record = .ok issuer) : issuer.keyid ∉ seen := by
  simp only [readIssuer, Except.bind_eq_ok_iff, require_eq_ok, exists_const, Except.pure_eq_ok_iff] at hRead
  obtain ⟨-, _, -, -, _, -, keyid, -, ⟨-, hFresh⟩, rfl⟩ := hRead
  exact hFresh

theorem readIssuers_distinct {seen : List String} {records : List Json} {issuers : List Issuer}
    (hRead : readIssuers t seen records = .ok issuers) :
    (issuers.map Issuer.keyid).Nodup ∧ ∀ issuer ∈ issuers, issuer.keyid ∉ seen := by
  induction records generalizing seen issuers with
  | nil =>
      cases hRead
      simp
  | cons record rest ih =>
      simp only [readIssuers, Except.bind_eq_ok_iff, Except.pure_eq_ok_iff] at hRead
      obtain ⟨first, hFirst, others, hRest, rfl⟩ := hRead
      obtain ⟨hNodup, hFresh⟩ := ih hRest
      exact List.nodup_cons_of_fresh (readIssuer_fresh hFirst) hNodup hFresh

theorem readRecord_fresh {seen : List String} {value : Json} {record : Record}
    (hRead : readRecord seen value = .ok record) : record.receiptId ∉ seen := by
  simp only [readRecord, Except.bind_eq_ok_iff, require_eq_ok, exists_const, Except.pure_eq_ok_iff] at hRead
  obtain ⟨-, -, receiptId, -, ⟨-, hFresh⟩, _, -, -, _, -, _, -, _, -, rfl⟩ := hRead
  exact hFresh

theorem readRecords_distinct {seen : List String} {values : List Json} {records : List Record}
    (hRead : readRecords seen values = .ok records) :
    (records.map Record.receiptId).Nodup ∧ ∀ record ∈ records, record.receiptId ∉ seen := by
  induction values generalizing seen records with
  | nil =>
      cases hRead
      simp
  | cons value rest ih =>
      simp only [readRecords, Except.bind_eq_ok_iff, Except.pure_eq_ok_iff] at hRead
      obtain ⟨first, hFirst, others, hRest, rfl⟩ := hRead
      obtain ⟨hNodup, hFresh⟩ := ih hRest
      exact List.nodup_cons_of_fresh (readRecord_fresh hFirst) hNodup hFresh

/-- A valid feed lists no key and no receipt twice. -/
structure Feed.Distinct (feed : Feed) : Prop where
  keyids : (feed.issuerKeys.map Issuer.keyid).Nodup
  receiptIds : (feed.receipts.map Record.receiptId).Nodup

theorem validateLifecycleFeed_distinct {value : Json} {feed : Feed}
    (hValid : validateLifecycleFeed t value = .ok feed) : feed.Distinct := by
  simp only [validateLifecycleFeed, Except.bind_eq_ok_iff, require_eq_ok, exists_const, Except.pure_eq_ok_iff] at hValid
  obtain ⟨-, -, _, -, -, _, -, _, -, -, _, -, issuers, hIssuers, _, -, records, hRecords, rfl⟩ := hValid
  exact ⟨(readIssuers_distinct hIssuers).1, (readRecords_distinct hRecords).1⟩

/-- In a list without repetitions, looking a key up finds the item that has it. -/
theorem find?_eq_some_of_nodup {Item Key : Type} [DecidableEq Key] (key : Item → Key) {items : List Item}
    (hNodup : (items.map key).Nodup) {wanted : Key} {item : Item} :
    items.find? (fun other => decide (key other = wanted)) = some item ↔ item ∈ items ∧ key item = wanted := by
  constructor
  · intro hFound
    have hKey := List.find?_some hFound
    exact ⟨List.mem_of_find?_eq_some hFound, of_decide_eq_true hKey⟩
  · rintro ⟨hItem, rfl⟩
    induction items with
    | nil => cases hItem
    | cons first rest ih =>
        rw [List.map_cons, List.nodup_cons] at hNodup
        rcases List.mem_cons.mp hItem with rfl | hRest
        · simp
        · have hNe : key first ≠ key item := by
            intro hSame
            exact hNodup.1 (hSame ▸ List.mem_map_of_mem hRest)
          rw [List.find?_cons, decide_eq_false hNe]
          exact ih hNodup.2 hRest

theorem Feed.Distinct.issuer?_eq_some {feed : Feed} (distinct : feed.Distinct) {keyid : String} {issuer : Issuer} :
    feed.issuer? keyid = some issuer ↔ issuer ∈ feed.issuerKeys ∧ issuer.keyid = keyid :=
  find?_eq_some_of_nodup Issuer.keyid distinct.keyids

theorem Feed.Distinct.record?_eq_some {feed : Feed} (distinct : feed.Distinct) {receiptId : Json} {record : Record} :
    feed.record? receiptId = some record ↔ record ∈ feed.receipts ∧ .str record.receiptId = receiptId := by
  have hNodup : (feed.receipts.map fun record => Json.str record.receiptId).Nodup := by
    have hIds := distinct.receiptIds.map (f := Json.str) fun first second hSame => Json.str.inj hSame
    rwa [List.map_map] at hIds
  exact find?_eq_some_of_nodup (fun record : Record => Json.str record.receiptId) hNodup

end

section
variable {Key : Type} (t : Toolkit) (scheme : Ed25519 Key) (schema : Signing.Schema)

/-- The envelopes of an evaluation, verified: the feed under the root, its issuer of
the receipt's key id, and the receipt under that issuer's key. -/
structure Verified (receiptEnvelope lifecycleEnvelope : Bytes) (trustedRootJwk : Json) (feed : Feed) (issuer : Issuer)
    (receipt : Json) : Prop where
  rooted : ∃ payload, verifyLifecycleEnvelope t scheme lifecycleEnvelope trustedRootJwk = .ok (feed, payload)
  keyid : envelopeKeyid t receiptEnvelope = .ok issuer.keyid
  listed : issuer ∈ feed.issuerKeys
  signed : ∃ payload, verifyReceiptEnvelope t scheme schema receiptEnvelope issuer.jwk = .ok (receipt, payload)

/-- The feed is not older than the verifier has seen, nor early, nor stale. -/
structure Feed.Fresh (feed : Feed) (now minimumSequence : Int) : Prop where
  sequence : minimumSequence ≤ feed.sequence
  started : feed.generated ≤ now
  live : now < feed.expires

/-- The evaluation returns a state. -/
def Gives (receiptEnvelope lifecycleEnvelope : Bytes) (trustedRootJwk : Json) (now minimumSequence : Int)
    (state : PublicState) : Prop :=
  ∃ result, evaluateReceiptLifecycle t scheme schema receiptEnvelope lifecycleEnvelope trustedRootJwk now
    minimumSequence = .ok result ∧ result.lifecycle = state

/-- The feed gives the receipt a status. -/
def Feed.Lists (feed : Feed) (receipt : Json) (status : ReceiptStatus) : Prop :=
  ∃ record ∈ feed.receipts, .str record.receiptId = receipt.member "receipt_id" ∧ record.status = status

/-- The receipt is revoked: its issuer's key is compromised, or the feed says so. -/
inductive Revoked (feed : Feed) (issuer : Issuer) (receipt : Json) : PublicState → Prop
  | issuer (hStatus : issuer.status = .compromised) : Revoked feed issuer receipt .revokedKeyCompromise
  | key (hListed : feed.Lists receipt .revokedKeyCompromise) : Revoked feed issuer receipt .revokedKeyCompromise
  | evaluator (hStatus : issuer.status ≠ .compromised) (hListed : feed.Lists receipt .revokedEvaluatorDefect) :
      Revoked feed issuer receipt .revokedEvaluatorDefect

end

section
variable {Key : Type} {t : Toolkit} {scheme : Ed25519 Key} {schema : Signing.Schema}
variable {receiptEnvelope lifecycleEnvelope : Bytes} {trustedRootJwk receipt : Json} {feed : Feed} {issuer : Issuer}
variable {now minimumSequence : Int}

theorem Verified.distinct (verified : Verified t scheme schema receiptEnvelope lifecycleEnvelope trustedRootJwk feed
    issuer receipt) : feed.Distinct := by
  obtain ⟨payload, hFeed⟩ := verified.rooted
  simp only [verifyLifecycleEnvelope, Except.bind_eq_ok_iff, Except.pure_eq_ok_iff, Prod.mk.injEq] at hFeed
  obtain ⟨_, -, value, -, _, hValid, rfl, -⟩ := hFeed
  exact validateLifecycleFeed_distinct hValid

/-- With both envelopes verified and a fresh feed, the verdict is the state of the receipt. -/
theorem Verified.evaluate (hSchema : ∀ receipt, schema receipt = true → hasEvaluatedFields receipt = true)
    (verified : Verified t scheme schema receiptEnvelope lifecycleEnvelope trustedRootJwk feed issuer receipt)
    (fresh : feed.Fresh now minimumSequence) {state : PublicState} :
    Gives t scheme schema receiptEnvelope lifecycleEnvelope trustedRootJwk now minimumSequence state ↔
      ∃ reason, stateOf t feed issuer receipt (receipt.member "receipt_id") now = .ok (state, reason) := by
  obtain ⟨_, hFeed⟩ := verified.rooted
  obtain ⟨_, hReceipt⟩ := verified.signed
  have hIssuer : feed.issuer? issuer.keyid = some issuer :=
    verified.distinct.issuer?_eq_some.mpr ⟨verified.listed, rfl⟩
  have hFields := hSchema receipt (verifyReceiptEnvelope_schema hReceipt)
  simp only [hasEvaluatedFields, Bool.and_eq_true] at hFields
  obtain ⟨⟨⟨⟨⟨⟨hDict, hId⟩, hArtifact⟩, hDigest⟩, hSha⟩, hProvenance⟩, hCommit⟩ := hFields
  simp only [Gives, evaluateReceiptLifecycle, evaluateUnder, hFeed, verified.keyid, hIssuer, hReceipt, Except.ofOption, bind,
    Except.bind, item_eq_member hDict hId, item_eq_member hDict (isSome_of_isDict_member hArtifact),
    item_eq_member hArtifact (isSome_of_isDict_member hDigest), item_eq_member hDigest hSha,
    item_eq_member hDict (isSome_of_isDict_member hProvenance), item_eq_member hProvenance hCommit,
    if_neg (Int.not_lt.mpr fresh.sequence), if_neg (Int.not_lt.mpr fresh.started), if_neg (Int.not_le.mpr fresh.live)]
  cases stateOf t feed issuer receipt (receipt.member "receipt_id") now with
  | error error => simp
  | ok verdict => simp [pure, Except.pure, Prod.ext_iff]

/-- A state other than unknown needs both envelopes verified, and a fresh feed. -/
theorem verified_of_known {result : Evaluation} (hResult : evaluateReceiptLifecycle t scheme schema receiptEnvelope
      lifecycleEnvelope trustedRootJwk now minimumSequence = .ok result)
    (hKnown : result.lifecycle ≠ .signatureValidLifecycleUnknown) :
    ∃ feed issuer receipt, Verified t scheme schema receiptEnvelope lifecycleEnvelope trustedRootJwk feed issuer
      receipt ∧ feed.Fresh now minimumSequence := by
  simp only [evaluateReceiptLifecycle, evaluateUnder, Except.bind_eq_ok_iff, Except.ofOption_eq_ok_iff] at hResult
  obtain ⟨⟨feed, feedPayload⟩, hFeed, keyid, hKeyid, issuer, hIssuer, ⟨receipt, payload⟩, hReceipt, receiptId, -,
    hRest⟩ := hResult
  have hListed : issuer ∈ feed.issuerKeys := List.mem_of_find?_eq_some hIssuer
  have hSame := List.find?_some hIssuer
  obtain rfl : issuer.keyid = keyid := of_decide_eq_true hSame
  refine ⟨feed, issuer, receipt, ⟨⟨feedPayload, hFeed⟩, hKeyid, hListed, payload, hReceipt⟩, ?_⟩
  split at hRest
  · cases hRest
    exact absurd rfl hKnown
  · next hSequence =>
      split at hRest
      · cases hRest
        exact absurd rfl hKnown
      · next hStarted =>
          split at hRest
          · cases hRest
            exact absurd rfl hKnown
          · next hLive => exact ⟨Int.not_lt.mp hSequence, Int.not_lt.mp hStarted, Int.not_le.mp hLive⟩

/-- The states of a receipt, each with what gives it. -/
theorem stateOf_of_revoked (distinct : feed.Distinct) {state : PublicState} (revoked : Revoked feed issuer receipt state) :
    ∃ reason, stateOf t feed issuer receipt (receipt.member "receipt_id") now = .ok (state, reason) := by
  cases revoked with
  | issuer hStatus => exact ⟨_, if_pos hStatus⟩
  | key hListed =>
      obtain ⟨record, hRecord, hId, hStatus⟩ := hListed
      by_cases hCompromised : issuer.status = .compromised
      · exact ⟨_, if_pos hCompromised⟩
      · rw [stateOf, if_neg hCompromised, distinct.record?_eq_some.mpr ⟨hRecord, hId⟩]
        simp only [hStatus]
        exact ⟨_, rfl⟩
  | evaluator hIssuer hListed =>
      obtain ⟨record, hRecord, hId, hStatus⟩ := hListed
      rw [stateOf, if_neg hIssuer, distinct.record?_eq_some.mpr ⟨hRecord, hId⟩]
      simp only [hStatus]
      exact ⟨_, rfl⟩

theorem stateOf_of_expired (distinct : feed.Distinct) {status : ReceiptStatus} {expiry : Int}
    (hNotRevoked : ∀ state, ¬ Revoked feed issuer receipt state) (hListed : feed.Lists receipt status)
    (hExpiry : receiptExpiry t receipt = .ok expiry) (hPast : expiry ≤ now) :
    ∃ reason, stateOf t feed issuer receipt (receipt.member "receipt_id") now = .ok (.expired, reason) := by
  have hIssuer : issuer.status ≠ .compromised := fun h => hNotRevoked _ (.issuer h)
  obtain ⟨record, hRecord, hId, rfl⟩ := hListed
  rw [stateOf, if_neg hIssuer, distinct.record?_eq_some.mpr ⟨hRecord, hId⟩]
  dsimp only
  cases hStatus : record.status with
  | revokedKeyCompromise => exact absurd (.key ⟨record, hRecord, hId, hStatus⟩) (hNotRevoked _)
  | revokedEvaluatorDefect => exact absurd (.evaluator hIssuer ⟨record, hRecord, hId, hStatus⟩) (hNotRevoked _)
  | current =>
      simp only [hExpiry, bind, Except.bind, if_pos hPast]
      exact ⟨_, rfl⟩
  | superseded successor =>
      simp only [hExpiry, bind, Except.bind, if_pos hPast]
      exact ⟨_, rfl⟩

theorem stateOf_of_superseded (distinct : feed.Distinct) {successor : String} {expiry : Int}
    (hNotRevoked : ∀ state, ¬ Revoked feed issuer receipt state) (hListed : feed.Lists receipt (.superseded successor))
    (hExpiry : receiptExpiry t receipt = .ok expiry) (hFuture : now < expiry) :
    ∃ reason, stateOf t feed issuer receipt (receipt.member "receipt_id") now = .ok (.superseded, reason) := by
  have hIssuer : issuer.status ≠ .compromised := fun h => hNotRevoked _ (.issuer h)
  obtain ⟨record, hRecord, hId, hStatus⟩ := hListed
  rw [stateOf, if_neg hIssuer, distinct.record?_eq_some.mpr ⟨hRecord, hId⟩]
  simp only [hStatus, hExpiry, bind, Except.bind, if_neg (Int.not_le.mpr hFuture)]
  exact ⟨_, rfl⟩

theorem stateOf_current_iff (distinct : feed.Distinct) :
    (∃ reason, stateOf t feed issuer receipt (receipt.member "receipt_id") now = .ok (.current, reason)) ↔
      issuer.status ≠ .compromised ∧ feed.Lists receipt .current ∧
        ∃ expiry, receiptExpiry t receipt = .ok expiry ∧ now < expiry := by
  constructor
  · rintro ⟨reason, hState⟩
    rw [stateOf] at hState
    split at hState
    · cases hState
    next hIssuer =>
    split at hState
    · cases hState
    next record hRecord =>
    obtain ⟨hMember, hId⟩ := distinct.record?_eq_some.mp hRecord
    split at hState
    · cases hState
    · cases hState
    · rw [Except.bind_eq_ok_iff] at hState
      obtain ⟨expiry, hExpiry, hVerdict⟩ := hState
      split at hVerdict
      · cases hVerdict
      next hFuture =>
      refine ⟨hIssuer, ⟨record, hMember, hId, ?_⟩, expiry, hExpiry, Int.not_le.mp hFuture⟩
      cases hStatus : record.status <;> simp_all
  · rintro ⟨hIssuer, ⟨record, hRecord, hId, hStatus⟩, expiry, hExpiry, hFuture⟩
    rw [stateOf, if_neg hIssuer, distinct.record?_eq_some.mpr ⟨hRecord, hId⟩]
    simp only [hStatus, hExpiry, bind, Except.bind, if_neg (Int.not_le.mpr hFuture)]
    exact ⟨_, rfl⟩

end

/-- An evaluation says CURRENT exactly of a receipt that verifies under a listed issuer
whose key is not compromised, in a fresh feed that lists it as current, before its own
expiry. Under a fresh feed a revocation goes before an expiry, and that before a supersession. -/
theorem verdict_iff {Key : Type} (t : Toolkit) (scheme : Ed25519 Key) (schema : Signing.Schema)
    (hSchema : ∀ receipt, schema receipt = true → hasEvaluatedFields receipt = true)
    (receiptEnvelope lifecycleEnvelope : Bytes) (trustedRootJwk : Json) (now minimumSequence : Int) :
    (Gives t scheme schema receiptEnvelope lifecycleEnvelope trustedRootJwk now minimumSequence .current ↔
        ∃ feed issuer receipt,
        Verified t scheme schema receiptEnvelope lifecycleEnvelope trustedRootJwk feed issuer receipt ∧
        issuer.status ≠ .compromised ∧ feed.Fresh now minimumSequence ∧ feed.Lists receipt .current ∧
        ∃ expiry, receiptExpiry t receipt = .ok expiry ∧ now < expiry) ∧
      ∀ feed issuer receipt,
        Verified t scheme schema receiptEnvelope lifecycleEnvelope trustedRootJwk feed issuer receipt →
        feed.Fresh now minimumSequence →
        (∀ state, Revoked feed issuer receipt state →
          Gives t scheme schema receiptEnvelope lifecycleEnvelope trustedRootJwk now minimumSequence state) ∧
        ((∀ state, ¬ Revoked feed issuer receipt state) → ∀ status, feed.Lists receipt status →
          ∀ expiry, receiptExpiry t receipt = .ok expiry →
            (expiry ≤ now →
              Gives t scheme schema receiptEnvelope lifecycleEnvelope trustedRootJwk now minimumSequence .expired) ∧
            (now < expiry → ∀ successor, status = .superseded successor →
              Gives t scheme schema receiptEnvelope lifecycleEnvelope trustedRootJwk now minimumSequence .superseded)) := by
  constructor
  · constructor
    · rintro ⟨result, hResult, hCurrent⟩
      have hKnown : result.lifecycle ≠ .signatureValidLifecycleUnknown := by
        rw [hCurrent]
        decide
      obtain ⟨feed, issuer, receipt, verified, fresh⟩ := verified_of_known hResult hKnown
      have hState := (verified.evaluate hSchema fresh).mp ⟨result, hResult, hCurrent⟩
      obtain ⟨hIssuer, hListed, hExpiry⟩ := (stateOf_current_iff verified.distinct).mp hState
      exact ⟨feed, issuer, receipt, verified, hIssuer, fresh, hListed, hExpiry⟩
    · rintro ⟨feed, issuer, receipt, verified, hIssuer, fresh, hListed, hExpiry⟩
      exact (verified.evaluate hSchema fresh).mpr
        ((stateOf_current_iff verified.distinct).mpr ⟨hIssuer, hListed, hExpiry⟩)
  · intro feed issuer receipt verified fresh
    constructor
    · intro state revoked
      exact (verified.evaluate hSchema fresh).mpr (stateOf_of_revoked verified.distinct revoked)
    · rintro hNotRevoked status hListed expiry hExpiry
      constructor
      · intro hPast
        exact (verified.evaluate hSchema fresh).mpr
          (stateOf_of_expired verified.distinct hNotRevoked hListed hExpiry hPast)
      · rintro hFuture successor rfl
        exact (verified.evaluate hSchema fresh).mpr
          (stateOf_of_superseded verified.distinct hNotRevoked hListed hExpiry hFuture)

theorem verdict_iff_nothing :
    (Gives .standard (.keyedDigest .standard) hasEvaluatedFields [] [] .null 0 0 .current ↔
        ∃ feed issuer receipt,
        Verified .standard (.keyedDigest .standard) hasEvaluatedFields [] [] .null feed issuer receipt ∧
        issuer.status ≠ .compromised ∧ feed.Fresh 0 0 ∧ feed.Lists receipt .current ∧
        ∃ expiry, receiptExpiry .standard receipt = .ok expiry ∧ 0 < expiry) :=
  (verdict_iff .standard (.keyedDigest .standard) hasEvaluatedFields (fun _ h => h) [] [] .null 0 0).1

end Lifecycle

end VouchSpec
