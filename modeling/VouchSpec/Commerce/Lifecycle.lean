import VouchSpec.Commerce.Account

/-! The columns of one order throughout its life: which statuses occur
together, which columns are set in which status, and which never change. -/

namespace VouchSpec

/-- The evidence columns of an order, all set or all empty. -/
def OrderRow.Evidenced (order : OrderRow) : Prop :=
  order.receiptId.isSome ∧ order.receiptSha256.isSome ∧ order.envelopeSha256.isSome ∧
    order.signingKeyid.isSome

def OrderRow.Unevidenced (order : OrderRow) : Prop :=
  order.receiptId = none ∧ order.receiptSha256 = none ∧ order.envelopeSha256 = none ∧
    order.signingKeyid = none

/-- The joint invariant of the two status columns and the columns that
belong to a status. -/
structure OrderRow.Regular (order : OrderRow) : Prop where
  pending : order.paymentStatus = .pending ↔
    order.orderStatus = .checkoutPending ∨ order.orderStatus = .paymentPending
  failed : order.paymentStatus = .failed ↔ order.orderStatus = .paymentFailed
  cancelled : order.orderStatus ≠ .cancelled
  checkout : order.providerCheckoutId = none ↔ order.orderStatus = .checkoutPending
  payment : order.providerCheckoutId = none → order.providerPaymentId = none
  delivered : order.orderStatus = .delivered → order.directCostsRecorded = true ∧ order.Evidenced
  undelivered : order.orderStatus ≠ .delivered → order.Unevidenced
  quotedAmount : order.quotedAmountMinor = legacyStripeAmountMinor
  currency : order.currency = freshValidationCurrency
  countsForGoal : order.countsForGoal = false

namespace OrderRow

theorem New.regular {order : OrderRow} (hNew : order.New) : order.Regular where
  pending := by simp [hNew.paymentStatus, hNew.orderStatus]
  failed := by simp [hNew.paymentStatus, hNew.orderStatus]
  cancelled := by simp [hNew.orderStatus]
  checkout := by simp [hNew.bindings.1, hNew.orderStatus]
  payment _ := hNew.bindings.2
  delivered h := by simp [hNew.orderStatus] at h
  undelivered _ := hNew.evidence
  quotedAmount := hNew.quotedAmount
  currency := hNew.currency
  countsForGoal := hNew.flags.2

/-- What applying an event does to the two statuses. -/
theorem advance_status (event : ProviderEvent) (order : OrderRow) :
    (order.advance event).paymentStatus = event.type.target ∧
      (order.advance event).orderStatus = event.type.orderTarget.getD order.orderStatus := by
  cases hType : event.type <;> simp [advance, hType, EventType.target, EventType.orderTarget]

/-- The columns that no applied event sets. -/
theorem advance_frame (event : ProviderEvent) (order : OrderRow) :
    (order.advance event).provider = order.provider ∧
      (order.advance event).environment = order.environment ∧
      (order.advance event).buyerReference = order.buyerReference ∧
      (order.advance event).quotedAmountMinor = order.quotedAmountMinor ∧
      (order.advance event).currency = order.currency ∧
      (order.advance event).directCostsRecorded = order.directCostsRecorded ∧
      (order.advance event).receiptSha256 = order.receiptSha256 ∧
      (order.advance event).envelopeSha256 = order.envelopeSha256 ∧
      (order.advance event).signingKeyid = order.signingKeyid ∧
      (order.advance event).countsForGoal = order.countsForGoal := by
  unfold advance
  split <;> exact ⟨rfl, rfl, rfl, rfl, rfl, rfl, rfl, rfl, rfl, rfl⟩

theorem advance_bindings (event : ProviderEvent) (order : OrderRow) :
    (order.advance event).providerCheckoutId = order.providerCheckoutId ∧
      (order.advance event).providerPaymentId = order.providerPaymentId ∧
      (order.advance event).receiptId = order.receiptId ∧
      (order.advance event).quoteId = order.quoteId ∧
      (order.advance event).idempotencyKey = order.idempotencyKey := by
  have hKeys := advance_keys event order
  exact ⟨congrArg OrderKeys.providerCheckoutId hKeys, congrArg OrderKeys.providerPaymentId hKeys,
    congrArg OrderKeys.receiptId hKeys, congrArg OrderKeys.quoteId hKeys,
    congrArg OrderKeys.idempotencyKey hKeys⟩

/-- The order statuses from which an event that sets one may do so. -/
theorem Regular.paymentPending_of_admits {order : OrderRow} {event : ProviderEvent}
    (regular : order.Regular) (hBound : order.providerPaymentId.isSome) (hAdmits : order.Admits event)
    (hTarget : event.type.orderTarget.isSome) :
    order.orderStatus = .paymentPending ∧ order.paymentStatus = .pending := by
  have hPending : order.paymentStatus = .pending := by
    have hEdge := hAdmits.1
    cases hType : event.type <;> simp [hType, EventType.orderTarget] at hTarget
    all_goals
      rw [hType] at hEdge
      cases hStatus : order.paymentStatus <;>
        simp [hStatus, EventType.target, paymentTransitions] at hEdge
    all_goals rfl
  refine ⟨?_, hPending⟩
  rcases regular.pending.mp hPending with hCheckout | hPayment
  · have hNone := regular.payment (regular.checkout.mpr hCheckout)
    rw [hNone] at hBound
    cases hBound
  · exact hPayment

/-- Applying an admitted event keeps the joint invariant. -/
theorem Regular.advance {order : OrderRow} {event : ProviderEvent} (regular : order.Regular)
    (hBound : order.providerPaymentId.isSome) (hAdmits : order.Admits event) :
    (order.advance event).Regular := by
  obtain ⟨hPayment, hOrder⟩ := advance_status event order
  obtain ⟨-, -, -, hAmount, hCurrency, hCosts, hReceipt, hEnvelope, hKey, hGoal⟩ :=
    advance_frame event order
  obtain ⟨hCheckout, hBinding, hReceiptId, -, -⟩ := advance_bindings event order
  have hUnevidenced : (order.advance event).Unevidenced ↔ order.Unevidenced := by
    rw [Unevidenced, Unevidenced, hReceiptId, hReceipt, hEnvelope, hKey]
  have hEvidenced : (order.advance event).Evidenced ↔ order.Evidenced := by
    rw [Evidenced, Evidenced, hReceiptId, hReceipt, hEnvelope, hKey]
  have hNever : order.orderStatus = .checkoutPending → False := by
    intro hStatus
    have hNone := regular.payment (regular.checkout.mpr hStatus)
    rw [hNone] at hBound
    cases hBound
  cases hTarget : event.type.orderTarget with
  | some next =>
      -- The event leaves the pending phase: the order waited for its payment.
      obtain ⟨hWaiting, hPending⟩ := regular.paymentPending_of_admits hBound hAdmits
        (by rw [hTarget]; rfl)
      rw [hTarget, Option.getD_some] at hOrder
      have hNext : (event.type.target = .captured ∧ next = .queued) ∨
          (event.type.target = .failed ∧ next = .paymentFailed) := by
        cases hType : event.type <;> simp [hType, EventType.orderTarget] at hTarget
        · exact Or.inl ⟨rfl, hTarget.symm⟩
        · exact Or.inr ⟨rfl, hTarget.symm⟩
      have hUndelivered : order.Unevidenced := regular.undelivered (by simp [hWaiting])
      have hAttached : order.providerCheckoutId ≠ none := by
        rw [Ne, regular.checkout, hWaiting]
        simp
      rcases hNext with ⟨hStatus, rfl⟩ | ⟨hStatus, rfl⟩
      all_goals
        rw [hStatus] at hPayment
        exact {
          pending := by simp [hPayment, hOrder]
          failed := by simp [hPayment, hOrder]
          cancelled := by simp [hOrder]
          checkout := by simp [hCheckout, hOrder, hAttached]
          payment := by simp [hCheckout, hAttached]
          delivered := by simp [hOrder]
          undelivered := fun _ => hUnevidenced.mpr hUndelivered
          quotedAmount := hAmount.trans regular.quotedAmount
          currency := hCurrency.trans regular.currency
          countsForGoal := hGoal.trans regular.countsForGoal }
  | none =>
      -- The order status stays, and the payment was and remains captured.
      rw [hTarget, Option.getD_none] at hOrder
      have hEdge := hAdmits.1
      have hCaptured : (order.paymentStatus ≠ .pending ∧ order.paymentStatus ≠ .failed) ∧
          event.type.target ≠ .pending ∧ event.type.target ≠ .failed := by
        cases hType : event.type <;> simp [hType, EventType.orderTarget] at hTarget
        all_goals
          rw [hType] at hEdge
          cases hStatus : order.paymentStatus <;>
            simp [hStatus, EventType.target, paymentTransitions] at hEdge ⊢
      obtain ⟨⟨hBefore, hBeforeFailed⟩, hAfter, hAfterFailed⟩ := hCaptured
      exact {
        pending := by
          rw [hPayment, hOrder, ← regular.pending]
          exact iff_of_false hAfter hBefore
        failed := by
          rw [hPayment, hOrder, ← regular.failed]
          exact iff_of_false hAfterFailed hBeforeFailed
        cancelled := by rw [hOrder]; exact regular.cancelled
        checkout := by rw [hCheckout, hOrder]; exact regular.checkout
        payment := by rw [hCheckout, hBinding]; exact regular.payment
        delivered := by rw [hOrder, hCosts, hEvidenced]; exact regular.delivered
        undelivered := by rw [hOrder, hUnevidenced]; exact regular.undelivered
        quotedAmount := hAmount.trans regular.quotedAmount
        currency := hCurrency.trans regular.currency
        countsForGoal := hGoal.trans regular.countsForGoal }

end OrderRow

namespace Account

/-- Every allowed effect keeps the joint invariant. -/
theorem Allowed.regular {account : Account} {effect : Effect} (allowed : account.Allowed effect)
    (regular : account.order.Regular) : (account.after effect).order.Regular := by
  cases allowed with
  | checkout checkoutId payment occurredAt hStatus hFree =>
      have hPending : account.order.paymentStatus = .pending := regular.pending.mpr (Or.inl hStatus)
      exact { regular with
        pending := by simp [Effect.checkout, hPending]
        failed := by simp [Effect.checkout, hPending]
        cancelled := by simp [Effect.checkout]
        checkout := by simp [Effect.checkout]
        payment := by simp [Effect.checkout]
        delivered := by simp [Effect.checkout]
        undelivered := fun _ => regular.undelivered (by simp [hStatus]) }
  | binding paymentId occurredAt hCheckout hFree =>
      exact { regular with
        payment := by
          intro hNone
          change account.order.providerCheckoutId = none at hNone
          simp [hNone] at hCheckout }
  | payment event hBound hMatches hAdmits =>
      exact regular.advance (by simp [hBound]) hAdmits
  | costing idempotencyKey timestamp amounts hAmounts hOpen =>
      exact { regular with
        delivered := fun hDelivered => ⟨rfl, (regular.delivered hDelivered).2⟩ }
  | fulfillment target deliveryStatus sourceReference occurredAt hTarget hEdge =>
      have hFrom : account.order.orderStatus = .queued ∨ account.order.orderStatus = .running := by
        rcases hTarget with rfl | rfl <;> cases hStatus : account.order.orderStatus <;>
          simp [hStatus, orderTransitions] at hEdge ⊢
      have hPaid : account.order.paymentStatus ≠ .pending ∧ account.order.paymentStatus ≠ .failed := by
        rw [Ne, Ne, regular.pending, regular.failed]
        rcases hFrom with h | h <;> simp [h]
      have hAttached : account.order.providerCheckoutId ≠ none := by
        rw [Ne, regular.checkout]
        rcases hFrom with h | h <;> simp [h]
      have hUnevidenced : account.order.Unevidenced := by
        refine regular.undelivered ?_
        rcases hFrom with h | h <;> simp [h]
      rcases hTarget with rfl | rfl
      all_goals exact { regular with
        pending := by simp [Effect.fulfillment, hPaid.1]
        failed := by simp [Effect.fulfillment, hPaid.2]
        cancelled := by simp [Effect.fulfillment]
        checkout := by simp [Effect.fulfillment, hAttached]
        payment := by simp [Effect.fulfillment, hAttached]
        delivered := by simp [Effect.fulfillment]
        undelivered := fun _ => hUnevidenced }
  | delivery evidence sourceReference occurredAt hCosts hEdge =>
      have hFrom : account.order.orderStatus = .running := by
        cases hStatus : account.order.orderStatus <;> simp [hStatus, orderTransitions] at hEdge ⊢
      have hPaid : account.order.paymentStatus ≠ .pending ∧ account.order.paymentStatus ≠ .failed := by
        rw [Ne, Ne, regular.pending, regular.failed]
        simp [hFrom]
      have hAttached : account.order.providerCheckoutId ≠ none := by
        rw [Ne, regular.checkout]
        simp [hFrom]
      exact { regular with
        pending := by simp [Effect.delivery, hPaid.1]
        failed := by simp [Effect.delivery, hPaid.2]
        cancelled := by simp [Effect.delivery]
        checkout := by simp [Effect.delivery, hAttached]
        payment := by simp [Effect.delivery, hAttached]
        delivered := fun _ => ⟨hCosts, rfl, rfl, rfl, rfl⟩
        undelivered := by simp [Effect.delivery] }

/-- The joint invariant holds throughout the life of an order. -/
theorem Evolves.regular {account : Account} (evolves : Evolves none (some account)) :
    account.order.Regular :=
  evolves.invariant (fun account => account.order.Regular)
    (fun hNew _ _ => hNew.regular) Allowed.regular (by simp) account rfl

end Account

/-- Once a column is set it stays as it is. -/
def Settled {Value : Type} (before after : Option Value) : Prop := before.isSome → after = before

theorem Settled.trans {Value : Type} {first second third : Option Value}
    (left : Settled first second) (right : Settled second third) : Settled first third := by
  intro hSome
  have hMiddle := left hSome
  rw [right (hMiddle ▸ hSome), hMiddle]

/-- The columns of an order that never change, or never change once set. -/
structure OrderRow.Keeps (before after : OrderRow) : Prop where
  orderId : after.orderId = before.orderId
  environment : after.environment = before.environment
  quoteId : after.quoteId = before.quoteId
  idempotencyKey : after.idempotencyKey = before.idempotencyKey
  buyerReference : after.buyerReference = before.buyerReference
  provider : after.provider = before.provider
  quotedAmountMinor : after.quotedAmountMinor = before.quotedAmountMinor
  currency : after.currency = before.currency
  checkout : Settled before.providerCheckoutId after.providerCheckoutId
  payment : Settled before.providerPaymentId after.providerPaymentId
  receiptId : Settled before.receiptId after.receiptId
  receiptSha256 : Settled before.receiptSha256 after.receiptSha256
  envelopeSha256 : Settled before.envelopeSha256 after.envelopeSha256
  signingKeyid : Settled before.signingKeyid after.signingKeyid
  delivered : before.orderStatus = .delivered → after.orderStatus = .delivered

namespace OrderRow

theorem Keeps.refl (order : OrderRow) : order.Keeps order where
  orderId := rfl
  environment := rfl
  quoteId := rfl
  idempotencyKey := rfl
  buyerReference := rfl
  provider := rfl
  quotedAmountMinor := rfl
  currency := rfl
  checkout _ := rfl
  payment _ := rfl
  receiptId _ := rfl
  receiptSha256 _ := rfl
  envelopeSha256 _ := rfl
  signingKeyid _ := rfl
  delivered := id

theorem Keeps.trans {first second third : OrderRow} (left : first.Keeps second)
    (right : second.Keeps third) : first.Keeps third where
  orderId := right.orderId.trans left.orderId
  environment := right.environment.trans left.environment
  quoteId := right.quoteId.trans left.quoteId
  idempotencyKey := right.idempotencyKey.trans left.idempotencyKey
  buyerReference := right.buyerReference.trans left.buyerReference
  provider := right.provider.trans left.provider
  quotedAmountMinor := right.quotedAmountMinor.trans left.quotedAmountMinor
  currency := right.currency.trans left.currency
  checkout := Settled.trans left.checkout right.checkout
  payment := Settled.trans left.payment right.payment
  receiptId := Settled.trans left.receiptId right.receiptId
  receiptSha256 := Settled.trans left.receiptSha256 right.receiptSha256
  envelopeSha256 := Settled.trans left.envelopeSha256 right.envelopeSha256
  signingKeyid := Settled.trans left.signingKeyid right.signingKeyid
  delivered := right.delivered ∘ left.delivered

end OrderRow

namespace Account

/-- No allowed effect overwrites a column that is written once. -/
theorem Allowed.keeps {account : Account} {effect : Effect} (allowed : account.Allowed effect)
    (regular : account.order.Regular) : account.order.Keeps (account.after effect).order := by
  have hSame := OrderRow.Keeps.refl account.order
  cases allowed with
  | checkout checkoutId payment occurredAt hStatus hFree =>
      exact { hSame with
        checkout := by simp [Settled, hFree]
        payment := by simp [Settled, regular.payment hFree]
        delivered := by simp [hStatus] }
  | binding paymentId occurredAt hCheckout hFree =>
      exact { hSame with payment := by simp [Settled, hFree] }
  | payment event hBound hMatches hAdmits =>
      obtain ⟨hProvider, hEnvironment, hBuyer, hAmount, hCurrency, -, hReceipt, hEnvelope, hKey, -⟩ :=
        OrderRow.advance_frame event account.order
      obtain ⟨hCheckout, hPayment, hReceiptId, hQuote, hIdempotency⟩ :=
        OrderRow.advance_bindings event account.order
      exact {
        orderId := congrArg OrderKeys.orderId (OrderRow.advance_keys event account.order)
        environment := hEnvironment
        quoteId := hQuote
        idempotencyKey := hIdempotency
        buyerReference := hBuyer
        provider := hProvider
        quotedAmountMinor := hAmount
        currency := hCurrency
        checkout := fun _ => hCheckout
        payment := fun _ => hPayment
        receiptId := fun _ => hReceiptId
        receiptSha256 := fun _ => hReceipt
        envelopeSha256 := fun _ => hEnvelope
        signingKeyid := fun _ => hKey
        delivered := by
          intro hDelivered
          refine (OrderRow.advance_status event account.order).2.trans ?_
          cases hTarget : event.type.orderTarget with
          | none => exact hDelivered
          | some next =>
              have hWaiting := (regular.paymentPending_of_admits (by simp [hBound]) hAdmits
                (by rw [hTarget]; rfl)).1
              simp [hDelivered] at hWaiting }
  | costing idempotencyKey timestamp amounts hAmounts hOpen =>
      exact { hSame with }
  | fulfillment target deliveryStatus sourceReference occurredAt hTarget hEdge =>
      exact { hSame with
        delivered := by
          intro hDelivered
          rw [hDelivered] at hEdge
          simp [orderTransitions] at hEdge }
  | delivery evidence sourceReference occurredAt hCosts hEdge =>
      have hFrom : account.order.orderStatus ≠ .delivered := by
        intro hDelivered
        rw [hDelivered] at hEdge
        simp [orderTransitions] at hEdge
      obtain ⟨hReceiptId, hReceipt, hEnvelope, hKey⟩ := regular.undelivered hFrom
      exact { hSame with
        receiptId := by simp [Settled, hReceiptId]
        receiptSha256 := by simp [Settled, hReceipt]
        envelopeSha256 := by simp [Settled, hEnvelope]
        signingKeyid := by simp [Settled, hKey]
        delivered := fun _ => rfl }

/-- Between any two points of its life an order keeps those columns. -/
theorem Evolves.keeps {first : Account} {last : Option Account} (evolves : Evolves (some first) last)
    (regular : first.order.Regular) :
    ∃ account, last = some account ∧ account.order.Regular ∧ first.order.Keeps account.order :=
  evolves.related (fun account => account.order.Regular)
    (fun before after => before.order.Keeps after.order)
    Allowed.regular (fun account => .refl account.order) (fun left right => left.trans right)
    Allowed.keeps regular

end Account

end VouchSpec
