import VouchSpec.Lifecycle.Verdict

/-! The verdicts on a receipt over time. A feed that sustains an earlier one, and a
later time, never bring a receipt nearer to current. -/

namespace VouchSpec

namespace Lifecycle

open Signing

/-- How far a state is from current; an unknown one says nothing. -/
def PublicState.severity : PublicState → Nat
  | .signatureValidLifecycleUnknown => 0
  | .current => 1
  | .superseded => 2
  | .expired => 3
  | .revokedEvaluatorDefect => 4
  | .revokedKeyCompromise => 5

/-- What a record of a status makes of a receipt whose issuer is not compromised. -/
inductive Standing (t : Toolkit) (status : ReceiptStatus) (receipt : Json) (now : Int) : PublicState → Prop where
  | key (hStatus : status = .revokedKeyCompromise) : Standing t status receipt now .revokedKeyCompromise
  | evaluator (hStatus : status = .revokedEvaluatorDefect) : Standing t status receipt now .revokedEvaluatorDefect
  | expired {expiry : Int} (hKey : status ≠ .revokedKeyCompromise) (hEvaluator : status ≠ .revokedEvaluatorDefect)
      (hExpiry : receiptExpiry t receipt = .ok expiry) (hPast : expiry ≤ now) : Standing t status receipt now .expired
  | superseded {successor : String} {expiry : Int} (hStatus : status = .superseded successor)
      (hExpiry : receiptExpiry t receipt = .ok expiry) (hFuture : now < expiry) : Standing t status receipt now .superseded
  | current {expiry : Int} (hStatus : status = .current) (hExpiry : receiptExpiry t receipt = .ok expiry)
      (hFuture : now < expiry) : Standing t status receipt now .current

section
variable {t : Toolkit} {feed : Feed} {issuer : Issuer} {receipt receiptId : Json} {status other : ReceiptStatus}
  {now later : Int} {state next : PublicState}

/-- A known state comes from the issuer, or from the record. -/
theorem stateOf_standing {reason : Option String} (h : stateOf t feed issuer receipt receiptId now = .ok (state, reason))
    (hKnown : state ≠ .signatureValidLifecycleUnknown) :
    (issuer.status = .compromised ∧ state = .revokedKeyCompromise) ∨
      (issuer.status ≠ .compromised ∧ ∃ record, feed.record? receiptId = some record ∧
        Standing t record.status receipt now state) := by
  unfold stateOf at h
  split at h
  · next hIssuer =>
      cases h
      exact Or.inl ⟨hIssuer, rfl⟩
  next hIssuer =>
  split at h
  · cases h
    exact absurd rfl hKnown
  next record hRecord =>
  refine Or.inr ⟨hIssuer, record, hRecord, ?_⟩
  split at h
  · next hStatus =>
      cases h
      exact .key hStatus
  · next hStatus =>
      cases h
      exact .evaluator hStatus
  next hKey hEvaluator =>
  rw [Except.bind_eq_ok_iff] at h
  obtain ⟨expiry, hExpiry, h⟩ := h
  split at h
  · next hPast =>
      cases h
      exact .expired hKey hEvaluator hExpiry hPast
  next hFuture =>
  split at h
  · next successor hStatus =>
      cases h
      exact .superseded hStatus hExpiry (Int.not_le.mp hFuture)
  · next hSuperseded =>
      cases h
      refine .current ?_ hExpiry (Int.not_le.mp hFuture)
      cases hStatus : record.status with
      | current => rfl
      | superseded successor => exact absurd hStatus (hSuperseded successor)
      | revokedEvaluatorDefect => exact absurd hStatus hEvaluator
      | revokedKeyCompromise => exact absurd hStatus hKey

/-- A record that keeps its terminal status makes no receipt better with time. -/
theorem Standing.worsens (standing : Standing t status receipt now state)
    (hNext : Standing t other receipt later next) (hTerminal : status ≠ .current → other = status)
    (hTime : now ≤ later) : state.severity ≤ next.severity := by
  have hLive : ∀ {expiry}, receiptExpiry t receipt = .ok expiry → expiry ≤ now → PublicState.expired.severity ≤ next.severity := by
    intro expiry hExpiry hPast
    have hNot : ∀ {found}, receiptExpiry t receipt = .ok found → ¬later < found := by
      intro found hFound
      obtain rfl : expiry = found := Except.ok.inj (hExpiry.symm.trans hFound)
      omega
    cases hNext with
    | superseded _ hFound hFuture => exact absurd hFuture (hNot hFound)
    | current _ hFound hFuture => exact absurd hFuture (hNot hFound)
    | expired => exact le_refl _
    | evaluator => decide
    | key => decide
  cases standing with
  | key hStatus =>
      obtain rfl := hTerminal (by simp [hStatus])
      cases hNext <;> simp_all [PublicState.severity]
  | evaluator hStatus =>
      obtain rfl := hTerminal (by simp [hStatus])
      cases hNext <;> simp_all [PublicState.severity]
  | expired _ _ hExpiry hPast => exact hLive hExpiry hPast
  | superseded hStatus =>
      obtain rfl := hTerminal (by simp [hStatus])
      cases hNext <;> simp_all [PublicState.severity]
  | current => cases hNext <;> decide

end

/-- What a later feed keeps of an earlier one. -/
structure Feed.Sustains (earlier later : Feed) : Prop where
  compromised : ∀ issuer ∈ earlier.issuerKeys, issuer.status = .compromised →
    ∀ other ∈ later.issuerKeys, other.keyid = issuer.keyid → other.status = .compromised
  terminal : ∀ record ∈ earlier.receipts, record.status ≠ .current →
    ∀ other ∈ later.receipts, other.receiptId = record.receiptId → other.status = record.status

theorem Feed.Sustains.refl {feed : Feed} (distinct : feed.Distinct) : feed.Sustains feed := by
  constructor
  · intro issuer hIssuer hStatus other hOther hSame
    obtain rfl := List.inj_on_of_nodup_map distinct.keyids hOther hIssuer hSame
    exact hStatus
  · intro record hRecord _ other hOther hSame
    obtain rfl := List.inj_on_of_nodup_map distinct.receiptIds hOther hRecord hSame
    rfl

section
variable {Key : Type} {t : Toolkit} {scheme : Ed25519 Key} {schema : Signing.Schema}

/-- The payload of an envelope is the same under every key that verifies it. -/
theorem verifyDsseEnvelope_unique {envelopeBytes payload other : Bytes} {payloadType : String} {jwk otherJwk : Json}
    {maximum : Nat} (h : verifyDsseEnvelope t scheme envelopeBytes payloadType jwk maximum = .ok payload)
    (hOther : verifyDsseEnvelope t scheme envelopeBytes payloadType otherJwk maximum = .ok other) : payload = other := by
  simp only [verifyDsseEnvelope, Except.bind_eq_ok_iff, require_eq_ok, exists_const, Except.pure_eq_ok_iff,
    Prod.exists] at h hOther
  obtain ⟨envelope, record, hOpen, _, -, -, _, hPayload, _, -, -, _, -, _, -, -, rfl⟩ := h
  obtain ⟨otherEnvelope, otherRecord, hOtherOpen, _, -, -, _, hOtherPayload, _, -, -, _, -, _, -, -, rfl⟩ := hOther
  rw [hOpen] at hOtherOpen
  cases hOtherOpen
  exact Except.ok.inj (hPayload.symm.trans hOtherPayload)

theorem verifyLifecycleEnvelope_unique {envelopeBytes payload otherPayload : Bytes} {jwk otherJwk : Json}
    {feed other : Feed} (h : verifyLifecycleEnvelope t scheme envelopeBytes jwk = .ok (feed, payload))
    (hOther : verifyLifecycleEnvelope t scheme envelopeBytes otherJwk = .ok (other, otherPayload)) : feed = other := by
  simp only [verifyLifecycleEnvelope, Except.bind_eq_ok_iff, Except.pure_eq_ok_iff, Prod.mk.injEq] at h hOther
  obtain ⟨_, hPayload, value, hValue, feed, hFeed, rfl, rfl⟩ := h
  obtain ⟨_, hOtherPayload, otherValue, hOtherValue, other, hOtherFeed, rfl, rfl⟩ := hOther
  obtain rfl := verifyDsseEnvelope_unique hPayload hOtherPayload
  obtain rfl := Except.ok.inj (hValue.symm.trans hOtherValue)
  exact Except.ok.inj (hFeed.symm.trans hOtherFeed)

theorem verifyReceiptEnvelope_unique {envelopeBytes payload otherPayload : Bytes} {jwk otherJwk receipt other : Json}
    (h : verifyReceiptEnvelope t scheme schema envelopeBytes jwk = .ok (receipt, payload))
    (hOther : verifyReceiptEnvelope t scheme schema envelopeBytes otherJwk = .ok (other, otherPayload)) :
    receipt = other := by
  simp only [verifyReceiptEnvelope, Except.bind_eq_ok_iff, Except.pure_eq_ok_iff, Prod.mk.injEq] at h hOther
  obtain ⟨_, hPayload, receipt, hReceipt, _, -, rfl, rfl⟩ := h
  obtain ⟨_, hOtherPayload, other, hOtherReceipt, _, -, rfl, rfl⟩ := hOther
  obtain rfl := verifyDsseEnvelope_unique hPayload hOtherPayload
  exact Except.ok.inj (hReceipt.symm.trans hOtherReceipt)

variable {receiptEnvelope lifecycleEnvelope : Bytes} {trustedRootJwk : Json} {now later minimumSequence : Int}

/-- An evaluation is unknown before it looks at the receipt, or gives it a state. -/
theorem evaluate_cases {result : Evaluation} (hResult : evaluateReceiptLifecycle t scheme schema receiptEnvelope
      lifecycleEnvelope trustedRootJwk now minimumSequence = .ok result) :
    (result.subject = none ∧ result.lifecycle = .signatureValidLifecycleUnknown) ∨
      ∃ feed issuer receipt receiptId reason subject, Verified t scheme schema receiptEnvelope lifecycleEnvelope
        trustedRootJwk feed issuer receipt ∧ item receipt "receipt_id" = .ok receiptId ∧
          stateOf t feed issuer receipt receiptId now = .ok (result.lifecycle, reason) ∧
            result.subject = some subject ∧ subject.receiptId = receiptId := by
  simp only [evaluateReceiptLifecycle, evaluateUnder, Except.bind_eq_ok_iff, Except.ofOption_eq_ok_iff] at hResult
  obtain ⟨⟨feed, feedPayload⟩, hFeed, keyid, hKeyid, issuer, hIssuer, ⟨receipt, payload⟩, hReceipt, receiptId, hId,
    hRest⟩ := hResult
  have hListed : issuer ∈ feed.issuerKeys := List.mem_of_find?_eq_some hIssuer
  have hSame := List.find?_some hIssuer
  obtain rfl : issuer.keyid = keyid := of_decide_eq_true hSame
  have verified : Verified t scheme schema receiptEnvelope lifecycleEnvelope trustedRootJwk feed issuer receipt :=
    ⟨⟨feedPayload, hFeed⟩, hKeyid, hListed, payload, hReceipt⟩
  split at hRest
  · cases hRest
    exact Or.inl ⟨rfl, rfl⟩
  split at hRest
  · cases hRest
    exact Or.inl ⟨rfl, rfl⟩
  split at hRest
  · cases hRest
    exact Or.inl ⟨rfl, rfl⟩
  simp only [Except.bind_eq_ok_iff, Except.pure_eq_ok_iff, Prod.exists] at hRest
  obtain ⟨state, reason, hState, _, -, _, -, _, -, _, -, _, -, rfl⟩ := hRest
  exact Or.inr ⟨feed, issuer, receipt, receiptId, reason, _, verified, hId, hState, rfl, rfl⟩

/-- An evaluation names its receipt exactly when the feed is in its time. -/
theorem evaluate_subject {jwk : Json} {feed : Feed} {payload : Bytes} {result : Evaluation}
    (hFeed : verifyLifecycleEnvelope t scheme lifecycleEnvelope jwk = .ok (feed, payload))
    (hSequence : minimumSequence ≤ feed.sequence)
    (hResult : evaluateReceiptLifecycle t scheme schema receiptEnvelope lifecycleEnvelope trustedRootJwk now
      minimumSequence = .ok result) : result.subject.isSome ↔ feed.generated ≤ now ∧ now < feed.expires := by
  simp only [evaluateReceiptLifecycle, evaluateUnder, Except.bind_eq_ok_iff] at hResult
  obtain ⟨⟨found, _⟩, hFound, _, -, _, -, _, -, _, -, hRest⟩ := hResult
  obtain rfl := verifyLifecycleEnvelope_unique hFeed hFound
  dsimp only at hRest
  rw [if_neg (by omega)] at hRest
  split at hRest
  · next hEarly =>
      cases hRest
      simp only [unknown, Option.isSome_none, Bool.false_eq_true, false_iff]
      omega
  split at hRest
  · next hStale =>
      cases hRest
      simp only [unknown, Option.isSome_none, Bool.false_eq_true, false_iff]
      omega
  · next hEarly hStale =>
      simp only [Except.bind_eq_ok_iff, Except.pure_eq_ok_iff, Prod.exists] at hRest
      obtain ⟨_, _, -, _, -, _, -, _, -, _, -, _, -, rfl⟩ := hRest
      simp only [Option.isSome_some, true_iff]
      omega

/-- What an evaluation with a known state has read. -/
theorem evaluate_stateOf {result : Evaluation} (hResult : evaluateReceiptLifecycle t scheme schema receiptEnvelope
      lifecycleEnvelope trustedRootJwk now minimumSequence = .ok result)
    (hKnown : result.lifecycle ≠ .signatureValidLifecycleUnknown) :
    ∃ feed issuer receipt receiptId reason, Verified t scheme schema receiptEnvelope lifecycleEnvelope trustedRootJwk
      feed issuer receipt ∧ item receipt "receipt_id" = .ok receiptId ∧
        stateOf t feed issuer receipt receiptId now = .ok (result.lifecycle, reason) := by
  rcases evaluate_cases hResult with ⟨-, hUnknown⟩ | ⟨feed, issuer, receipt, receiptId, reason, _, verified, hId, hState, -⟩
  · exact absurd hUnknown hKnown
  · exact ⟨feed, issuer, receipt, receiptId, reason, verified, hId, hState⟩

/-- A state is unknown where no record gives one, under an issuer that is not compromised. -/
theorem record?_of_unknown {feed : Feed} {issuer : Issuer} {receipt receiptId : Json} {reason : Option String}
    (h : stateOf t feed issuer receipt receiptId now = .ok (.signatureValidLifecycleUnknown, reason)) :
    issuer.status ≠ .compromised ∧ feed.record? receiptId = none := by
  unfold stateOf at h
  split at h
  · cases h
  next hIssuer =>
  split at h
  · next hRecord => exact ⟨hIssuer, hRecord⟩
  split at h
  · cases h
  · cases h
  rw [Except.bind_eq_ok_iff] at h
  obtain ⟨expiry, -, h⟩ := h
  split at h
  · cases h
  split at h <;> cases h

/-- Under a feed that sustains the earlier one, and later, a receipt is not nearer to current. -/
theorem evaluate_severity {earlierFeed laterFeed : Feed} (sustains : earlierFeed.Sustains laterFeed)
    {firstEnvelope lastEnvelope firstPayload lastPayload : Bytes} {firstJwk lastJwk firstRoot lastRoot : Json}
    (hEarlier : verifyLifecycleEnvelope t scheme firstEnvelope firstJwk = .ok (earlierFeed, firstPayload))
    (hLater : verifyLifecycleEnvelope t scheme lastEnvelope lastJwk = .ok (laterFeed, lastPayload))
    (hTime : now ≤ later) {first last : Evaluation}
    (hFirst : evaluateReceiptLifecycle t scheme schema receiptEnvelope firstEnvelope firstRoot now minimumSequence = .ok first)
    (hLast : evaluateReceiptLifecycle t scheme schema receiptEnvelope lastEnvelope lastRoot later minimumSequence = .ok last)
    (hKnown : last.lifecycle ≠ .signatureValidLifecycleUnknown) :
    first.lifecycle.severity ≤ last.lifecycle.severity := by
  by_cases hUnknown : first.lifecycle = .signatureValidLifecycleUnknown
  · rw [hUnknown]
    exact Nat.zero_le _
  obtain ⟨feed, issuer, receipt, receiptId, _, verified, hId, hState⟩ := evaluate_stateOf hFirst hUnknown
  obtain ⟨nextFeed, nextIssuer, nextReceipt, nextId, _, nextVerified, hNextId, hNextState⟩ := evaluate_stateOf hLast hKnown
  obtain ⟨_, hRooted⟩ := verified.rooted
  obtain ⟨_, hNextRooted⟩ := nextVerified.rooted
  obtain rfl := verifyLifecycleEnvelope_unique hEarlier hRooted
  obtain rfl := verifyLifecycleEnvelope_unique hLater hNextRooted
  obtain ⟨_, hSigned⟩ := verified.signed
  obtain ⟨_, hNextSigned⟩ := nextVerified.signed
  obtain rfl := verifyReceiptEnvelope_unique hSigned hNextSigned
  obtain rfl := Except.ok.inj (hId.symm.trans hNextId)
  have hKeyid : nextIssuer.keyid = issuer.keyid := Except.ok.inj (nextVerified.keyid.symm.trans verified.keyid)
  rcases stateOf_standing hNextState hKnown with ⟨-, hCompromised⟩ | ⟨hNextIssuer, next, hNext, nextStanding⟩
  · rw [hCompromised]
    cases first.lifecycle <;> decide
  rcases stateOf_standing hState hUnknown with ⟨hCompromised, -⟩ | ⟨-, record, hRecord, standing⟩
  · exact absurd (sustains.compromised issuer verified.listed hCompromised nextIssuer nextVerified.listed hKeyid) hNextIssuer
  obtain ⟨hMember, hSame⟩ := verified.distinct.record?_eq_some.mp hRecord
  obtain ⟨hNextMember, hNextSame⟩ := nextVerified.distinct.record?_eq_some.mp hNext
  have hReceipts : next.receiptId = record.receiptId := Json.str.inj (hNextSame.trans hSame.symm)
  refine standing.worsens nextStanding ?_ hTime
  intro hTerminal
  exact sustains.terminal record hMember hTerminal next hNextMember hReceipts

end

end Lifecycle

end VouchSpec
