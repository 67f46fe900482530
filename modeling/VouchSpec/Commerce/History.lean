import VouchSpec.Commerce.Evolution
import VouchSpec.Commerce.Standard

/-! The history of an order: the recorded changes of each status form a trail
of allowed transitions that ends in the stored status. -/

namespace VouchSpec

def OrderStatus.Edge (prior next : OrderStatus) : Prop := next ∈ orderTransitions prior

def PaymentStatus.Edge (prior next : PaymentStatus) : Prop := next ∈ paymentTransitions prior

/-- The recorded changes of the payment status, oldest first. -/
def paymentChanges (history : List HistoryRow) : List (PaymentStatus × PaymentStatus) :=
  history.filterMap fun row =>
    match row.change with
    | .payment prior next => some (prior, next)
    | .order _ _ => none

/-- The recorded changes of the order status, oldest first. -/
def orderChanges (history : List HistoryRow) : List (Option OrderStatus × OrderStatus) :=
  history.filterMap fun row =>
    match row.change with
    | .order prior next => some (prior, next)
    | .payment _ _ => none

theorem paymentChanges_append (left right : List HistoryRow) :
    paymentChanges (left ++ right) = paymentChanges left ++ paymentChanges right :=
  List.filterMap_append

theorem orderChanges_append (left right : List HistoryRow) :
    orderChanges (left ++ right) = orderChanges left ++ orderChanges right :=
  List.filterMap_append

/-- The payment changes lead from pending to this status. -/
def PaymentTrail (history : List HistoryRow) (status : PaymentStatus) : Prop :=
  Trail.Linked PaymentStatus.Edge .pending (paymentChanges history) status

/-- The order changes begin with the creation and lead to this status. -/
def OrderTrail (history : List HistoryRow) (status : OrderStatus) : Prop :=
  ∃ moves, orderChanges history =
      (none, .checkoutPending) :: moves.map (fun move => (some move.1, move.2)) ∧
    Trail.Linked OrderStatus.Edge .checkoutPending moves status

/-- One more recorded change extends the trail. -/
theorem OrderTrail.extend {history added : List HistoryRow} {prior next : OrderStatus}
    (trail : OrderTrail history prior) (hAdded : orderChanges added = [(some prior, next)])
    (hEdge : prior.Edge next) : OrderTrail (history ++ added) next := by
  obtain ⟨moves, hMoves, linked⟩ := trail
  refine ⟨moves ++ [(prior, next)], ?_, linked.snoc hEdge⟩
  rw [orderChanges_append, hMoves, hAdded]
  simp

theorem OrderTrail.frame {history added : List HistoryRow} {status : OrderStatus}
    (trail : OrderTrail history status) (hAdded : orderChanges added = []) :
    OrderTrail (history ++ added) status := by
  unfold OrderTrail
  rwa [orderChanges_append, hAdded, List.append_nil]

theorem PaymentTrail.extend {history added : List HistoryRow} {prior next : PaymentStatus}
    (trail : PaymentTrail history prior) (hAdded : paymentChanges added = [(prior, next)])
    (hEdge : prior.Edge next) : PaymentTrail (history ++ added) next := by
  unfold PaymentTrail
  rw [paymentChanges_append, hAdded]
  exact Trail.Linked.snoc trail hEdge

theorem PaymentTrail.frame {history added : List HistoryRow} {status : PaymentStatus}
    (trail : PaymentTrail history status) (hAdded : paymentChanges added = []) :
    PaymentTrail (history ++ added) status := by
  unfold PaymentTrail
  rwa [paymentChanges_append, hAdded, List.append_nil]

/-- A trail that has left the pending status without failing has recorded a
capture. -/
theorem captured_of_linked {moves : List (PaymentStatus × PaymentStatus)} {status : PaymentStatus}
    (linked : Trail.Linked PaymentStatus.Edge .pending moves status)
    (hPending : status ≠ .pending) (hFailed : status ≠ .failed) : (.pending, .captured) ∈ moves := by
  generalize hFirst : PaymentStatus.pending = first at linked
  induction linked with
  | nil => exact absurd hFirst.symm hPending
  | @snoc prior next moves earlier allowed ih =>
      rw [PaymentStatus.Edge] at allowed
      cases prior with
      | pending =>
          have hCaptured : next = .captured := by
            cases next <;> simp [paymentTransitions] at allowed hFailed ⊢
          rw [hCaptured, ← hFirst]
          exact List.mem_append_right _ (List.mem_singleton.mpr rfl)
      | failed => simp [paymentTransitions] at allowed
      | _ => exact List.mem_append_left _ (ih (by simp) (by simp))

/-- Both histories of an account agree with its statuses. -/
structure Account.Traced (account : Account) : Prop where
  payment : PaymentTrail account.history account.order.paymentStatus
  order : OrderTrail account.history account.order.orderStatus

namespace Account

theorem opened_traced {order : OrderRow} (hNew : order.New) (sourceReference occurredAt : String) :
    (opened order sourceReference occurredAt).Traced where
  payment := by
    change PaymentTrail _ order.paymentStatus
    rw [hNew.paymentStatus]
    exact Trail.Linked.nil _
  order := by
    change OrderTrail _ order.orderStatus
    rw [hNew.orderStatus]
    exact ⟨[], rfl, Trail.Linked.nil _⟩

/-- An applied event records the transitions that it makes. -/
theorem Traced.payment_effect {account : Account} (traced : account.Traced)
    (regular : account.order.Regular) {event : ProviderEvent}
    (hBound : account.order.providerPaymentId.isSome) (hAdmits : account.order.Admits event) :
    (account.after (.payment account.order event)).Traced := by
  obtain ⟨hPayment, hOrder⟩ := OrderRow.advance_status event account.order
  refine ⟨?_, ?_⟩
  · change PaymentTrail (account.history ++ event.history account.order)
      (account.order.advance event).paymentStatus
    rw [hPayment]
    apply traced.payment.extend _ hAdmits.1
    unfold ProviderEvent.history
    cases event.type.orderTarget <;> rfl
  · change OrderTrail (account.history ++ event.history account.order)
      (account.order.advance event).orderStatus
    rw [hOrder]
    cases hTarget : event.type.orderTarget with
    | none =>
        apply traced.order.frame
        unfold ProviderEvent.history
        rw [hTarget]
        rfl
    | some next =>
        have hWaiting := (regular.paymentPending_of_admits hBound hAdmits (by rw [hTarget]; rfl)).1
        apply traced.order.extend
        · unfold ProviderEvent.history
          rw [hTarget]
          rfl
        · rw [hWaiting]
          cases hType : event.type <;> simp [hType, EventType.orderTarget] at hTarget <;>
            subst hTarget <;> simp [OrderStatus.Edge, orderTransitions]

/-- Every allowed effect records the transitions that it makes. -/
theorem Allowed.traced {account : Account} {effect : Effect} (allowed : account.Allowed effect)
    (regular : account.order.Regular) (traced : account.Traced) : (account.after effect).Traced := by
  cases allowed with
  | checkout checkoutId payment occurredAt hStatus hFree =>
      have hEdge : account.order.orderStatus.Edge .paymentPending := by
        simp [OrderStatus.Edge, orderTransitions, hStatus]
      exact ⟨traced.payment.frame rfl, traced.order.extend rfl hEdge⟩
  | binding paymentId occurredAt hCheckout hFree =>
      exact ⟨traced.payment.frame rfl, traced.order.frame rfl⟩
  | payment event hBound hMatches hAdmits =>
      exact traced.payment_effect regular (by simp [hBound]) hAdmits
  | costing idempotencyKey timestamp amounts hAmounts hOpen =>
      exact ⟨traced.payment.frame rfl, traced.order.frame rfl⟩
  | fulfillment target deliveryStatus sourceReference occurredAt hTarget hEdge =>
      exact ⟨traced.payment.frame rfl, traced.order.extend rfl hEdge⟩
  | delivery evidence sourceReference occurredAt hCosts hEdge =>
      exact ⟨traced.payment.frame rfl, traced.order.extend rfl hEdge⟩

theorem Evolves.traced {account : Account} (evolves : Evolves none (some account)) :
    account.Traced :=
  (evolves.invariant (fun account => account.order.Regular ∧ account.Traced)
    (fun hNew sourceReference occurredAt =>
      ⟨hNew.regular, opened_traced hNew sourceReference occurredAt⟩)
    (fun allowed h => ⟨allowed.regular h.1, allowed.traced h.1 h.2⟩) (by simp) account rfl).2

end Account

namespace Commerce

/-- The statuses of an order agree with each other, with its evidence and with
its history. -/
structure Consistent (db : Commerce) (order : OrderRow) : Prop where
  pending : order.paymentStatus = .pending ↔
    order.orderStatus = .checkoutPending ∨ order.orderStatus = .paymentPending
  failed : order.paymentStatus = .failed ↔ order.orderStatus = .paymentFailed
  captured : order.orderStatus ∈ [.queued, .running, .delivered, .fulfillmentFailed] →
    (.pending, .captured) ∈ paymentChanges (db.historyOf order.orderId)
  delivered : order.orderStatus = .delivered → order.directCostsRecorded = true ∧
    order.receiptId ≠ none ∧ order.receiptSha256 ≠ none ∧ order.envelopeSha256 ≠ none ∧
      order.signingKeyid ≠ none
  orderTrail : OrderTrail (db.historyOf order.orderId) order.orderStatus
  paymentTrail : PaymentTrail (db.historyOf order.orderId) order.paymentStatus

variable {p : Platform} {db : Commerce}

theorem WellFormed.consistent (wellFormed : WellFormed p db) {order : OrderRow}
    (hOrder : order ∈ db.orders.rows) : db.Consistent order := by
  obtain ⟨account, hAccount, rfl⟩ := account?_of_order (order?_eq_some.mpr ⟨hOrder, rfl⟩)
  have hEvolves := wellFormed.accounts account.order.orderId
  rw [hAccount] at hEvolves
  have hHistory := (account?_eq_some.mp hAccount).2.2.2
  have regular := hEvolves.regular
  have traced := hEvolves.traced
  have hOrderTrail := traced.order
  have hPaymentTrail := traced.payment
  rw [hHistory] at hOrderTrail hPaymentTrail
  exact {
    pending := regular.pending
    failed := regular.failed
    captured := by
      intro hFulfilled
      apply captured_of_linked hPaymentTrail
      · rw [Ne, regular.pending]
        rintro (hStatus | hStatus) <;> simp [hStatus] at hFulfilled
      · rw [Ne, regular.failed]
        intro hStatus
        simp [hStatus] at hFulfilled
    delivered := by
      intro hDelivered
      obtain ⟨hCosts, hReceiptId, hReceipt, hEnvelope, hKey⟩ := regular.delivered hDelivered
      exact ⟨hCosts, Option.isSome_iff_ne_none.mp hReceiptId, Option.isSome_iff_ne_none.mp hReceipt,
        Option.isSome_iff_ne_none.mp hEnvelope, Option.isSome_iff_ne_none.mp hKey⟩
    orderTrail := hOrderTrail
    paymentTrail := hPaymentTrail }

/-- In every run from an empty store, the statuses of every order agree with
each other, with its evidence and with its history. -/
theorem statuses_consistent (p : Platform) (environment : Environment) (calls : List Call) :
    ∀ order ∈ (Runs.run (step p) (empty environment) calls).orders.rows,
      (Runs.run (step p) (empty environment) calls).Consistent order := by
  intro order hOrder
  have hReachable : Reachable p (Runs.run (step p) (empty environment) calls) :=
    ⟨environment, calls, rfl⟩
  exact hReachable.wellFormed.consistent hOrder

theorem statuses_consistent_opening :
    (Runs.run (step .standard) (empty .sandbox) (Sample.opening "fake")).Consistent
      (Sample.order .fake) :=
  statuses_consistent .standard .sandbox (Sample.opening "fake") (Sample.order .fake)
    (by decide +kernel)

end Commerce

end VouchSpec
