import VouchSpec.Lifecycle.Severity
import VouchSpec.Paid.Coverage

/-! The verdicts on the receipts of orders, over the publications of a run. -/

namespace VouchSpec

namespace Paid

open Signing Lifecycle

/-- The evaluation of an order's receipt in the later store finds it no nearer to
current than one in the earlier store, at an earlier time, has found it. -/
def Worsens {Key : Type} (t : Toolkit) (scheme : Ed25519 Key) (schema : Signing.Schema) (before after : Store) : Prop :=
  ∀ orderId receiptEnvelope firstRoot lastRoot now later first last, now ≤ later →
    evaluateOrderReceipt t scheme schema before orderId receiptEnvelope firstRoot now = .ok first →
    evaluateOrderReceipt t scheme schema after orderId receiptEnvelope lastRoot later = .ok last →
    last.lifecycle ≠ .signatureValidLifecycleUnknown → first.lifecycle.severity ≤ last.lifecycle.severity

/-- Nor does it lose what is known of the receipt. -/
def Settles {Key : Type} (t : Toolkit) (scheme : Ed25519 Key) (schema : Signing.Schema) (before after : Store) : Prop :=
  ∀ orderId receiptEnvelope firstRoot lastRoot now later first last, now ≤ later →
    evaluateOrderReceipt t scheme schema before orderId receiptEnvelope firstRoot now = .ok first →
    first.lifecycle ≠ .signatureValidLifecycleUnknown →
    evaluateOrderReceipt t scheme schema after orderId receiptEnvelope lastRoot later = .ok last →
    last.lifecycle ≠ .signatureValidLifecycleUnknown ∧ first.lifecycle.severity ≤ last.lifecycle.severity

section
variable {Key : Type} {t : Toolkit} {scheme : Ed25519 Key} {schema : Signing.Schema} {store after : Store}
  {orderId : String} {receiptEnvelope : Bytes} {rootJwk : Json} {now : Int} {result : Evaluation}

/-- An evaluation is of an order's receipt, under the latest publication. -/
theorem evaluateOrderReceipt_eq_ok
    (h : evaluateOrderReceipt t scheme schema store orderId receiptEnvelope rootJwk now = .ok result) :
    ∃ order row, store.commerce.order? orderId = some order ∧ store.latest? = some row ∧
      evaluateReceiptLifecycle t scheme schema receiptEnvelope row.envelopeBody rootJwk now 0 = .ok result ∧
      result.subject.map Subject.receiptId = order.receiptId.map Json.str := by
  simp only [evaluateOrderReceipt, Store.latestEnvelope, Except.bind_eq_ok_iff, Except.ofOption_eq_ok_iff,
    require_eq_ok, exists_const, Except.pure_eq_ok_iff, Option.map_eq_some_iff] at h
  obtain ⟨view, hView, _, -, -, _, ⟨row, hRow, rfl⟩, found, hFound, hSubject, rfl⟩ := h
  rw [Commerce.getOrder_eq_orderView] at hView
  obtain ⟨order, hOrder, shows⟩ := Commerce.orderView_shows hView
  exact ⟨order, row, hOrder, hRow, hFound, shows.receiptId ▸ hSubject⟩

theorem Publication.Precedes.sustains {earlier later : Publication} (precedes : earlier.Precedes later) :
    earlier.feed.Sustains later.feed := by
  refine ⟨precedes.issuers.compromised, ?_⟩
  intro record hRecord hTerminal other hOther hSame
  have hState := precedes.terminal record.receiptId record.state other.state ⟨record, hRecord, rfl, rfl⟩ hTerminal
    ⟨other, hOther, hSame, rfl⟩
  exact congrArg Prod.fst hState

/-- The latest publication of a later store sustains that of an earlier one. -/
theorem sustains_of_extends (extended : Extends store after) (chronicle : Chronicle t scheme after)
    {row next : Publication} (hRow : store.latest? = some row) (hNext : after.latest? = some next) :
    row.feed.Sustains next.feed := by
  have hMember : row ∈ after.publications.rows := extended.publications.subset (List.argmax_mem hRow)
  have hLater : next ∈ after.publications.rows := List.argmax_mem hNext
  have hBelow : row.sequence ≤ next.sequence := List.le_of_mem_argmax hMember hNext
  rcases hBelow.lt_or_eq with hLess | hSame
  · exact (chronicle.precedes row hMember next hLater hLess).sustains
  · obtain rfl := chronicle.sequence_injective hMember hLater hSame
    exact .refl (chronicle.authentic row hMember).distinct

theorem Extends.worsens (extended : Extends store after) (chronicle : Chronicle t scheme after) :
    Worsens t scheme schema store after := by
  intro orderId receiptEnvelope firstRoot lastRoot now later first last hTime hFirst hLast hKnown
  obtain ⟨-, row, -, hRow, hFound, -⟩ := evaluateOrderReceipt_eq_ok hFirst
  obtain ⟨-, next, -, hNext, hNextFound, -⟩ := evaluateOrderReceipt_eq_ok hLast
  have hMember : row ∈ after.publications.rows := extended.publications.subset (List.argmax_mem hRow)
  obtain ⟨_, _, -, hSigned, -⟩ := (chronicle.authentic row hMember).signed
  obtain ⟨_, _, -, hNextSigned, -⟩ := (chronicle.authentic next (List.argmax_mem hNext)).signed
  exact evaluate_severity (sustains_of_extends extended chronicle hRow hNext) hSigned hNextSigned hTime hFound hNextFound
    hKnown

/-- An order with a receipt is delivered. -/
theorem issued_of_receiptId {p : Platform} {db : Commerce} (wellFormed : db.WellFormed p) {order : OrderRow}
    {receiptId : String} (hOrder : db.order? orderId = some order) (hReceipt : order.receiptId = some receiptId) :
    db.Issued orderId receiptId := by
  refine ⟨order, hOrder, ?_, hReceipt⟩
  obtain ⟨found, hFound, regular, -⟩ := (Commerce.Continues.refl db).order wellFormed hOrder
  obtain rfl := Option.some.inj (hOrder.symm.trans hFound)
  by_contra hStatus
  have hNone := (regular.undelivered hStatus).1
  rw [hReceipt] at hNone
  cases hNone

/-- A receipt of which a publication has known the state stays known. -/
theorem Extends.settles (extended : Extends store after) (sound : Sound t scheme store) (hAfter : Sound t scheme after)
    (covered : Covered after) : Settles t scheme schema store after := by
  intro orderId receiptEnvelope firstRoot lastRoot now later first last hTime hFirst hKnown hLast
  suffices hNext : last.lifecycle ≠ .signatureValidLifecycleUnknown from
    ⟨hNext, extended.worsens hAfter.chronicle _ _ _ _ _ _ _ _ hTime hFirst hLast hNext⟩
  obtain ⟨order, row, hOrder, hRow, hFound, hSubject⟩ := evaluateOrderReceipt_eq_ok hFirst
  obtain ⟨nextOrder, next, hNextOrder, hNext, hNextFound, hNextSubject⟩ := evaluateOrderReceipt_eq_ok hLast
  rcases evaluate_cases hFound with ⟨-, hUnknown⟩ |
    ⟨feed, issuer, receipt, receiptId, reason, subject, verified, hId, hState, hIs, hReceiptId⟩
  · exact absurd hUnknown hKnown
  -- The order has the receipt in both stores.
  have hReceipt : ∃ text, order.receiptId = some text ∧ receiptId = .str text := by
    rw [hIs, Option.map_some, hReceiptId] at hSubject
    obtain ⟨text, hText, hSame⟩ := Option.map_eq_some_iff.mp hSubject.symm
    exact ⟨text, hText, hSame.symm⟩
  obtain ⟨text, hText, rfl⟩ := hReceipt
  obtain ⟨found, hStored, -, hKept⟩ := extended.issued _ _
    (issued_of_receiptId sound.reachable.wellFormed hOrder hText)
  obtain rfl := Option.some.inj (hNextOrder.symm.trans hStored)
  rcases evaluate_cases hNextFound with ⟨hNone, -⟩ |
    ⟨nextFeed, nextIssuer, nextReceipt, nextId, nextReason, nextSubject, nextVerified, hNextId, hNextState, hNextIs, hNextReceiptId⟩
  · rw [hNone, hKept] at hNextSubject
    cases hNextSubject
  intro hUnknown
  rw [hUnknown] at hNextState
  obtain ⟨hNextIssuer, hAbsent⟩ := record?_of_unknown hNextState
  obtain ⟨_, hRooted⟩ := verified.rooted
  obtain ⟨_, hNextRooted⟩ := nextVerified.rooted
  have hMember : row ∈ after.publications.rows := extended.publications.subset (List.argmax_mem hRow)
  have hNextMember : next ∈ after.publications.rows := List.argmax_mem hNext
  obtain ⟨_, _, -, hSigned, -⟩ := (hAfter.chronicle.authentic row hMember).signed
  obtain ⟨_, _, -, hNextSigned, -⟩ := (hAfter.chronicle.authentic next hNextMember).signed
  obtain rfl := verifyLifecycleEnvelope_unique hSigned hRooted
  obtain rfl := verifyLifecycleEnvelope_unique hNextSigned hNextRooted
  have hKeyid : nextIssuer.keyid = issuer.keyid := Except.ok.inj (nextVerified.keyid.symm.trans verified.keyid)
  rcases stateOf_standing hState hKnown with ⟨hCompromised, -⟩ | ⟨-, record, hRecord, -⟩
  · exact hNextIssuer ((sustains_of_extends extended hAfter.chronicle hRow hNext).compromised issuer verified.listed
      hCompromised nextIssuer nextVerified.listed hKeyid)
  -- The receipt that the earlier publication lists is in the later one.
  obtain ⟨hListed, hSame⟩ := verified.distinct.record?_eq_some.mp hRecord
  have hBelow : row.sequence ≤ next.sequence := List.le_of_mem_argmax hMember hNext
  obtain ⟨other, later, hLater, hLaterId, -⟩ := covered.grows row hMember next hNextMember hBelow record.receiptId
    record.state ⟨record, hListed, rfl, rfl⟩
  rw [hNextIs, hKept, Option.map_some, hNextReceiptId] at hNextSubject
  obtain rfl : nextId = .str text := Option.some.inj hNextSubject
  have hThere := nextVerified.distinct.record?_eq_some.mpr ⟨hLater, by rw [hLaterId, hSame]⟩
  rw [hAbsent] at hThere
  cases hThere

end

end Paid

end VouchSpec
