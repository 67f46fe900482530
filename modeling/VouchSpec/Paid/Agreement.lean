import VouchSpec.Paid.Handover
import VouchSpec.Paid.Verdicts

/-! The receipt of an order beside the same receipt in anybody's hands: what
`evaluate_order_receipt` adds to the public evaluation. -/

namespace VouchSpec

namespace Paid

open Signing Lifecycle

/-- The order is delivered, and its columns are of this envelope and of the receipt in it. -/
structure Records {Key : Type} (t : Toolkit) (scheme : Ed25519 Key) (schema : Signing.Schema) (order : OrderRow)
    (receiptEnvelope : Bytes) : Prop where
  delivered : order.deliveryStatus = .delivered
  envelopeSha256 : order.envelopeSha256 = some (t.sha256 receiptEnvelope).hexdigest
  receiptId : ∀ issuerJwk receipt payload receiptId,
    verifyReceiptEnvelope t scheme schema receiptEnvelope issuerJwk = .ok (receipt, payload) →
      item receipt "receipt_id" = .ok receiptId → order.receiptId.map Json.str = some receiptId

def mismatch : Raised := rejected "lifecycle receipt does not match the order" "invalid_delivery"

section
variable {Key : Type} {t : Toolkit} {scheme : Ed25519 Key} {schema : Signing.Schema} {store : Store}
  {orderId : String} {receiptEnvelope : Bytes} {rootJwk : Json} {now : Int}

/-- All that is left to the order is to compare the receipts. -/
theorem evaluateOrderReceipt_of_records {order : OrderRow} {row : Publication}
    (hOrder : store.commerce.order? orderId = some order) (records : Records t scheme schema order receiptEnvelope)
    (hRow : store.latest? = some row) :
    evaluateOrderReceipt t scheme schema store orderId receiptEnvelope rootJwk now =
      evaluateReceiptLifecycle t scheme schema receiptEnvelope row.envelopeBody rootJwk now 0 >>= fun result => do
        require (result.subject.map Subject.receiptId = order.receiptId.map Json.str) mismatch
        return result := by
  have hView : ∃ view, store.commerce.getOrder orderId = .ok view ∧ view.deliveryStatus = .delivered ∧
      view.envelopeSha256 = order.envelopeSha256 ∧ view.receiptId = order.receiptId := by
    rw [Commerce.getOrder_eq_orderView, Commerce.orderView, Commerce.requireOrder_eq_ok.mpr hOrder]
    exact ⟨_, rfl, records.delivered, rfl, rfl⟩
  obtain ⟨view, hView, hStatus, hDigest, hReceipt⟩ := hView
  rw [records.envelopeSha256] at hDigest
  unfold evaluateOrderReceipt
  simp only [hView, hStatus, hDigest, hReceipt, Store.latestEnvelope, hRow, if_true, Except.ofOption, require,
    Option.map_some, bind, Except.bind, mismatch]

/-- An order with the digest of an envelope has a receipt. -/
theorem receiptId_of_digest {p : Platform} {db : Commerce} (wellFormed : db.WellFormed p) {order : OrderRow}
    (hOrder : db.order? orderId = some order) {digest : String} (hDigest : order.envelopeSha256 = some digest) :
    ∃ receiptId, order.receiptId = some receiptId := by
  obtain ⟨found, hFound, regular, -⟩ := (Commerce.Continues.refl db).order wellFormed hOrder
  obtain rfl := Option.some.inj (hOrder.symm.trans hFound)
  by_cases hStatus : order.orderStatus = .delivered
  · exact Option.isSome_iff_exists.mp (regular.delivered hStatus).2.1
  · have hNone := (regular.undelivered hStatus).2.2.1
    rw [hDigest] at hNone
    cases hNone

/-- A result that names its receipt names the order's. -/
theorem Records.subject {order : OrderRow} (records : Records t scheme schema order receiptEnvelope)
    {lifecycleEnvelope : Bytes} {result : Evaluation}
    (hResult : evaluateReceiptLifecycle t scheme schema receiptEnvelope lifecycleEnvelope rootJwk now 0 = .ok result)
    (hSubject : result.subject.isSome) : result.subject.map Subject.receiptId = order.receiptId.map Json.str := by
  rcases evaluate_cases hResult with ⟨hNone, -⟩ | ⟨_, issuer, receipt, receiptId, _, subject, verified, hId, -, hIs, hSame⟩
  · rw [hNone] at hSubject
    cases hSubject
  · obtain ⟨payload, hSigned⟩ := verified.signed
    rw [hIs, Option.map_some, hSame, records.receiptId issuer.jwk receipt payload receiptId hSigned hId]

theorem evaluate_agrees_of_sound (sound : Sound t scheme store) {order : OrderRow} {row : Publication}
    (hOrder : store.commerce.order? orderId = some order) (records : Records t scheme schema order receiptEnvelope)
    (hRow : store.latest? = some row) :
    (row.feed.generated ≤ now ∧ now < row.feed.expires →
      evaluateOrderReceipt t scheme schema store orderId receiptEnvelope rootJwk now =
        evaluateReceiptLifecycle t scheme schema receiptEnvelope row.envelopeBody rootJwk now 0) ∧
    (¬(row.feed.generated ≤ now ∧ now < row.feed.expires) →
      (∀ result, evaluateReceiptLifecycle t scheme schema receiptEnvelope row.envelopeBody rootJwk now 0 = .ok result →
        result.lifecycle = .signatureValidLifecycleUnknown) ∧
      evaluateOrderReceipt t scheme schema store orderId receiptEnvelope rootJwk now =
        evaluateReceiptLifecycle t scheme schema receiptEnvelope row.envelopeBody rootJwk now 0 >>=
          fun _ => .error mismatch) := by
  have hMember : row ∈ store.publications.rows := List.argmax_mem hRow
  obtain ⟨_, _, -, hFeed, -⟩ := (sound.chronicle.authentic row hMember).signed
  have hPositive : 0 ≤ row.feed.sequence := by
    have hSequence := sound.chronicle.latest?_sequence
    rw [hRow, Option.map_some, Option.getD_some] at hSequence
    have hSame : row.sequence = row.feed.sequence := (sound.chronicle.authentic row hMember).sequence
    omega
  obtain ⟨receiptId, hReceipt⟩ := receiptId_of_digest sound.reachable.wellFormed hOrder records.envelopeSha256
  rw [evaluateOrderReceipt_of_records hOrder records hRow]
  constructor
  · intro hTime
    cases hResult : evaluateReceiptLifecycle t scheme schema receiptEnvelope row.envelopeBody rootJwk now 0 with
    | error error => rfl
    | ok result =>
        have hSubject := records.subject hResult ((evaluate_subject hFeed hPositive hResult).mpr hTime)
        simp only [bind, Except.bind, require_of hSubject, pure, Except.pure]
  · intro hTime
    have hNone : ∀ result, evaluateReceiptLifecycle t scheme schema receiptEnvelope row.envelopeBody rootJwk now 0 =
        .ok result → result.subject = none := by
      intro result hResult
      rw [← Option.not_isSome_iff_eq_none, evaluate_subject hFeed hPositive hResult]
      exact hTime
    constructor
    · intro result hResult
      rcases evaluate_cases hResult with ⟨-, hUnknown⟩ | ⟨_, _, _, _, _, _, -, -, -, hIs, -⟩
      · exact hUnknown
      · rw [hNone result hResult] at hIs
        cases hIs
    · cases hResult : evaluateReceiptLifecycle t scheme schema receiptEnvelope row.envelopeBody rootJwk now 0 with
      | error error => rfl
      | ok result =>
          simp only [bind, Except.bind, hNone result hResult, hReceipt, Option.map_none, Option.map_some, require,
            reduceCtorEq, if_false]

end

namespace Sample

/-- The request whose envelope is the published draft of the delivered order. -/
def requestOf (envelope : Json) (_ : Bool) : Request :=
  ⟨jsonLine envelope, publicJwk (.keyedDigest .standard) [2], VouchSpec.Sample.newYear⟩

theorem published : ∃ (envelope : Json) (steps : List (Step Bool)) (row : Publication),
    let desk := Desk.opening .standard (.keyedDigest .standard) { commerce } (requestOf envelope)
    let store := (desk.run Toolkit.standard.toPlatform steps).state
    store.commerce = commerce ∧ store.latest? = some row := by
  obtain ⟨draft, envelope, hLength, hSigned⟩ := signedDraft
  have sound : Sound .standard (.keyedDigest .standard) { commerce } := by
    refine ⟨.opening commerce, ?_⟩
    dsimp only
    exact commerce_reachable
  obtain ⟨hAccepted, hPublished⟩ := draft_published_of_sound sound (Ed25519.keyedDigest_correct .standard) hSigned
    VouchSpec.Sample.newYear
  obtain ⟨view, after, hReturns⟩ := hAccepted.mpr ⟨⟨hLength, by decide, by decide⟩, Or.inl rfl⟩
  have hLatest := (hPublished view after hReturns).latest
  rw [Store.latestEnvelope, Except.ofOption_eq_ok_iff, Option.map_eq_some_iff] at hLatest
  obtain ⟨row, hRow, -⟩ := hLatest
  have hCommerce : after.commerce = commerce := by
    obtain ⟨submission, orders, hSubmit, -, hImport⟩ := (@publish_returns _ _ _ _ (requestOf envelope true) _ _).mp hReturns
    rcases importFeed_cases (submit_authentic hSubmit).distinct hImport with hSame | imported
    · rw [hSame]
    · rw [imported.commerce]
  obtain ⟨steps, hSteps⟩ := @Desk.run_alone _ _ _ _ _ Toolkit.standard.toPlatform _ _ _ (requestOf envelope) true hReturns
  refine ⟨envelope, steps, row, ?_⟩
  dsimp only
  rw [hSteps]
  exact ⟨hCommerce, hRow⟩

end Sample

end Paid

end VouchSpec
