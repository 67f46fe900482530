import VouchSpec.Commerce.Tables
import VouchSpec.Library.Greedy

/-! Reconciliation of a payment: pending provider events are applied to the
order, pass after pass, until a pass makes no progress. -/

namespace VouchSpec

/-- The order columns that an applied event sets. -/
def OrderRow.advance (event : ProviderEvent) (order : OrderRow) : OrderRow :=
  match event.type.target with
  | .captured =>
      { order with
        paymentStatus := .captured
        orderStatus := .queued
        collectedAmountMinor := event.amountMinor
        processingFeeMinor := event.feeMinor
        updatedAt := event.occurredAt }
  | .failed =>
      { order with
        paymentStatus := .failed
        orderStatus := .paymentFailed
        updatedAt := event.occurredAt }
  | .refunded =>
      { order with
        paymentStatus := .refunded
        refundedAmountMinor := event.amountMinor
        updatedAt := event.occurredAt }
  | target => { order with paymentStatus := target, updatedAt := event.occurredAt }

/-- The financial entries that an applied event adds. -/
def ProviderEvent.entries (event : ProviderEvent) (orderId : String) : List EntryRow :=
  match event.type.target with
  | .captured =>
      [{ orderId, category := .grossCollected, amountMinor := event.amountMinor,
         contributionImpactMinor := event.amountMinor, sourceReference := event.eventId,
         recordedAt := event.occurredAt },
       { orderId, category := .processingFee, amountMinor := event.feeMinor,
         contributionImpactMinor := -event.feeMinor, sourceReference := event.eventId,
         recordedAt := event.occurredAt }]
  | .refunded =>
      [{ orderId, category := .refund, amountMinor := event.amountMinor,
         contributionImpactMinor := -event.amountMinor, sourceReference := event.eventId,
         recordedAt := event.occurredAt }]
  | _ => []

/-- The order status that an applied event leads to, if it sets one. -/
def EventType.orderTarget : EventType → Option OrderStatus
  | captured => some .queued
  | failed => some .paymentFailed
  | _ => none

/-- The history rows that an applied event adds. -/
def ProviderEvent.history (event : ProviderEvent) (order : OrderRow) : List HistoryRow :=
  { orderId := order.orderId, change := .payment order.paymentStatus event.type.target,
    sourceReference := event.eventId, occurredAt := event.occurredAt } ::
  match event.type.orderTarget with
  | none => []
  | some next =>
      [{ orderId := order.orderId, change := .order (some order.orderStatus) next,
         sourceReference := event.eventId, occurredAt := event.occurredAt }]

@[simp] theorem OrderRow.advance_keys (event : ProviderEvent) (order : OrderRow) :
    (order.advance event).keys = order.keys := by
  unfold OrderRow.advance
  split <;> rfl

/-- The event is for the quoted amount in the quoted currency. -/
def OrderRow.Matches (order : OrderRow) (event : ProviderEvent) : Prop :=
  event.amountMinor = order.quotedAmountMinor ∧ event.currency = order.currency

/-- The transition tables allow the event to be applied now. -/
def OrderRow.Admits (order : OrderRow) (event : ProviderEvent) : Prop :=
  event.type.target ∈ paymentTransitions order.paymentStatus ∧
    (event.type.target = .captured → order.orderStatus = .paymentPending)

instance (order : OrderRow) (event : ProviderEvent) : Decidable (order.Matches event) :=
  inferInstanceAs (Decidable (_ ∧ _))

instance (order : OrderRow) (event : ProviderEvent) : Decidable (order.Admits event) :=
  inferInstanceAs (Decidable (_ ∧ _))

/-- How an event is marked whose target is already the payment status. -/
def OrderRow.repeatedEffect (order : OrderRow) (event : ProviderEvent) : EventStatus :=
  if (event.type.target ≠ .captured ∨ event.feeMinor = order.processingFeeMinor) ∧
      (event.type.target ≠ .refunded ∨ event.amountMinor = order.refundedAmountMinor) then
    .appliedDuplicateEffect
  else .rejectedEffectConflict

namespace Commerce

/-- Set columns of one order that no constraint covers. -/
def setOrder (db : Commerce) (orderId : String) (change : OrderRow → OrderRow)
    (hKeys : ∀ row, (change row).keys = row.keys) : Commerce :=
  { db with orders := db.orders.update (fun row => row.orderId = orderId) change hKeys }

/-- Set the status columns of one provider event. -/
def setEvent (db : Commerce) (eventId : String) (change : EventRow → EventRow)
    (hKeys : ∀ row, (change row).eventId = row.eventId) : Commerce :=
  { db with events := db.events.update (fun row => row.eventId = eventId) change hKeys }

/-- `_mark_event`. -/
def markEvent (db : Commerce) (event : ProviderEvent) (status : EventStatus) : Commerce :=
  db.setEvent event.eventId
    (fun row => { row with status, appliedAt := some event.occurredAt }) (fun _ => rfl)

/-- An event for another amount is set aside without an application time. -/
def rejectAmount (db : Commerce) (event : ProviderEvent) : Commerce :=
  db.setEvent event.eventId
    (fun row => { row with status := .rejectedAmountMismatch }) (fun _ => rfl)

/-- `_history`. -/
def addHistory (db : Commerce) (rows : List HistoryRow) : Commerce :=
  { db with history := db.history ++ rows }

/-- `_financial_entry`, for each row in turn. -/
def financialEntries (db : Commerce) : List EntryRow → Except Raised Commerce
  | [] => .ok db
  | row :: rest => do
      let entries ← Except.ofOption .integrityError (db.entries.insert? row)
      financialEntries { db with entries } rest

/-- Try to apply one pending event; the flag reports progress. -/
def applyEvent (db : Commerce) (paymentId : String) (event : ProviderEvent) :
    Except Raised (Commerce × Bool) := do
  let order ← Except.ofOption .assertionError (db.orderByPayment? paymentId)
  if event.amountMinor ≠ order.quotedAmountMinor ∨ event.currency ≠ order.currency then
    .ok (db.rejectAmount event, true)
  else if order.paymentStatus = event.type.target then
    .ok (db.markEvent event (order.repeatedEffect event), true)
  else match requirePaymentTransition order.paymentStatus event.type.target with
    | .error _ => .ok (db, false)
    | .ok () =>
        if event.type.target = .captured ∧ order.orderStatus ≠ .paymentPending then
          .ok (db, false)
        else do
          let moved := db.setOrder order.orderId (OrderRow.advance event)
            (OrderRow.advance_keys event)
          let booked ← moved.financialEntries (event.entries order.orderId)
          .ok ((booked.addHistory (event.history order)).markEvent event .applied, true)

/-- `_reconcile_payment`. A pass with progress leaves fewer events pending, so
the passes end before the fuel does. -/
def reconcilePayment (db : Commerce) (paymentId : String) : Except Raised Commerce :=
  Greedy.loop (fun state => state.pendingEvents paymentId)
    (fun state row => state.applyEvent paymentId row.payload)
    ((db.pendingEvents paymentId).length + 1) db

/-- The ways in which an attempt at an event ends. -/
inductive Attempted (db : Commerce) (order : OrderRow) (event : ProviderEvent) :
    Commerce → Bool → Prop where
  | mismatched (hMatches : ¬order.Matches event) : Attempted db order event (db.rejectAmount event) true
  | repeated (hMatches : order.Matches event) (hStatus : order.paymentStatus = event.type.target) :
      Attempted db order event (db.markEvent event (order.repeatedEffect event)) true
  | stuck (hMatches : order.Matches event) (hStatus : order.paymentStatus ≠ event.type.target)
      (hAdmits : ¬order.Admits event) : Attempted db order event db false
  | applied (hMatches : order.Matches event) (hStatus : order.paymentStatus ≠ event.type.target)
      (hAdmits : order.Admits event) (booked : Commerce)
      (hBooked : (db.setOrder order.orderId (OrderRow.advance event)
        (OrderRow.advance_keys event)).financialEntries (event.entries order.orderId) = .ok booked) :
      Attempted db order event
        ((booked.addHistory (event.history order)).markEvent event .applied) true

theorem applyEvent_eq_ok {db after : Commerce} {paymentId : String} {event : ProviderEvent}
    {progressed : Bool} :
    db.applyEvent paymentId event = .ok (after, progressed) ↔
      ∃ order, db.orderByPayment? paymentId = some order ∧
        Attempted db order event after progressed := by
  unfold applyEvent
  rw [Except.bind_eq_ok_iff]
  refine exists_congr fun order => ?_
  rw [Except.ofOption_eq_ok_iff]
  refine and_congr_right fun _ => ?_
  have hUnmatched : (event.amountMinor ≠ order.quotedAmountMinor ∨ event.currency ≠ order.currency) ↔
      ¬order.Matches event := by
    rw [OrderRow.Matches, not_and_or]
  by_cases hMatches : order.Matches event
  case neg =>
    rw [if_pos (hUnmatched.mpr hMatches)]
    constructor
    · rintro ⟨⟩
      exact .mismatched hMatches
    · intro h
      cases h <;> first | rfl | contradiction
  rw [if_neg (fun h => hUnmatched.mp h hMatches)]
  by_cases hStatus : order.paymentStatus = event.type.target
  case pos =>
    rw [if_pos hStatus]
    constructor
    · rintro ⟨⟩
      exact .repeated hMatches hStatus
    · intro h
      cases h <;> first | rfl | contradiction
  rw [if_neg hStatus]
  by_cases hEdge : event.type.target ∈ paymentTransitions order.paymentStatus
  case neg =>
    have hRefused : requirePaymentTransition order.paymentStatus event.type.target =
        .error (transitionRejected order.paymentStatus.value event.type.target.value) := by
      simp [requirePaymentTransition, require, hEdge]
    have hAdmits : ¬order.Admits event := fun h => hEdge h.1
    rw [hRefused]
    constructor
    · rintro ⟨⟩
      exact .stuck hMatches hStatus hAdmits
    · intro h
      cases h <;> first | rfl | contradiction
  have hAllowed : requirePaymentTransition order.paymentStatus event.type.target = .ok () :=
    require_of hEdge
  rw [hAllowed]
  by_cases hOrder : event.type.target = .captured ∧ order.orderStatus ≠ .paymentPending
  case pos =>
    have hAdmits : ¬order.Admits event := fun h => hOrder.2 (h.2 hOrder.1)
    simp only [if_pos hOrder]
    constructor
    · rintro ⟨⟩
      exact .stuck hMatches hStatus hAdmits
    · intro h
      cases h <;> first | rfl | contradiction
  have hAdmits : order.Admits event := by
    refine ⟨hEdge, fun hCaptured => ?_⟩
    by_contra hElsewhere
    exact hOrder ⟨hCaptured, hElsewhere⟩
  simp only [if_neg hOrder]
  rw [Except.bind_eq_ok_iff]
  constructor
  · rintro ⟨booked, hBooked, ⟨⟩⟩
    exact .applied hMatches hStatus hAdmits booked hBooked
  · intro h
    cases h with
    | applied _ _ _ booked hBooked => exact ⟨booked, hBooked, rfl⟩
    | _ => contradiction

/-- Entries are added in order, or not at all. -/
theorem financialEntries_eq_ok {rows : List EntryRow} {db after : Commerce} :
    db.financialEntries rows = .ok after ↔
      ∃ entries, entries.rows = db.entries.rows ++ rows ∧ after = { db with entries } := by
  induction rows generalizing db with
  | nil =>
      rw [financialEntries, Except.ok.injEq, List.append_nil]
      constructor
      · rintro rfl
        exact ⟨db.entries, rfl, rfl⟩
      · rintro ⟨entries, hRows, rfl⟩
        cases Table.ext hRows
        rfl
  | cons row rest ih =>
      rw [financialEntries, Except.bind_eq_ok_iff]
      constructor
      · rintro ⟨first, hFirst, hRest⟩
        rw [Except.ofOption_eq_ok_iff, Table.insert?_eq_some] at hFirst
        obtain ⟨entries, hRows, rfl⟩ := ih.mp hRest
        refine ⟨entries, ?_, rfl⟩
        rw [hRows, hFirst.2, List.append_assoc, List.singleton_append]
      · rintro ⟨entries, hRows, rfl⟩
        have hDistinct := entries.distinct
        rw [hRows, List.append_cons] at hDistinct
        have hPrefix := (List.pairwise_append.mp hDistinct).1
        refine ⟨⟨db.entries.rows ++ [row], hPrefix⟩, ?_, ?_⟩
        · rw [Except.ofOption_eq_ok_iff, Table.insert?_eq_some]
          refine ⟨fun stored hStored => ?_, rfl⟩
          exact (List.pairwise_append.mp hPrefix).2.2 stored hStored row (by simp)
        · exact ih.mpr ⟨entries, by rw [hRows, List.append_cons], rfl⟩

section
variable {db after : Commerce} {order : OrderRow} {event : ProviderEvent} {progressed : Bool}

/-- An attempt sets the status columns of its own event, or nothing. -/
theorem Attempted.events (attempted : Attempted db order event after progressed) :
    (progressed = false ∧ after = db) ∨
      (progressed = true ∧ ∃ (status : EventStatus) (appliedAt : EventRow → Option String),
        status ≠ .pending ∧
        after.events.rows = Table.changed db.events.rows (fun row => row.eventId = event.eventId)
          fun row => { row with status, appliedAt := appliedAt row }) := by
  cases attempted with
  | mismatched =>
      exact Or.inr ⟨rfl, .rejectedAmountMismatch, fun row => row.appliedAt, by decide, rfl⟩
  | repeated =>
      refine Or.inr ⟨rfl, order.repeatedEffect event, fun _ => some event.occurredAt, ?_, rfl⟩
      unfold OrderRow.repeatedEffect
      split <;> decide
  | stuck => exact Or.inl ⟨rfl, rfl⟩
  | applied _ _ _ booked hBooked =>
      obtain ⟨entries, -, rfl⟩ := financialEntries_eq_ok.mp hBooked
      exact Or.inr ⟨rfl, .applied, fun _ => some event.occurredAt, by decide, rfl⟩

end

/-- Attempting pending events consumes them one by one. -/
theorem applyEvent_consuming (paymentId : String) :
    Greedy.Consuming (fun db : Commerce => db.pendingEvents paymentId)
      (fun db row => db.applyEvent paymentId row.payload) where
  nodup db := pendingEvents_nodup db paymentId
  idle := by
    intro db row after hAttempt
    obtain ⟨order, -, attempted⟩ := applyEvent_eq_ok.mp hAttempt
    rcases attempted.events with ⟨-, hSame⟩ | ⟨hFlag, -⟩
    · exact hSame
    · cases hFlag
  consumes := by
    intro db row after hPending hAttempt other
    obtain ⟨hRow, hPayment, hStatus⟩ := mem_pendingEvents.mp hPending
    obtain ⟨order, -, attempted⟩ := applyEvent_eq_ok.mp hAttempt
    rcases attempted.events with ⟨hFlag, -⟩ | ⟨-, status, appliedAt, hMoved, hRows⟩
    · cases hFlag
    rw [mem_pendingEvents, mem_pendingEvents, hRows, Table.mem_changed]
    simp only [decide_eq_true_eq]
    constructor
    · rintro ⟨⟨old, -, -, rfl⟩ | ⟨hOther, hDifferent⟩, hOtherPayment, hOtherStatus⟩
      · exact absurd hOtherStatus hMoved
      · refine ⟨⟨hOther, hOtherPayment, hOtherStatus⟩, ?_⟩
        rintro rfl
        exact hDifferent rfl
    · rintro ⟨⟨hOther, hOtherPayment, hOtherStatus⟩, hDifferent⟩
      refine ⟨Or.inr ⟨hOther, fun hSame => ?_⟩, hOtherPayment, hOtherStatus⟩
      exact hDifferent (event_eq_of_eventId hOther hRow hSame)

/-- Reconciliation ends with every pending event of the payment stuck. -/
theorem reconcilePayment_saturated {db after : Commerce} {paymentId : String}
    (hReconciled : db.reconcilePayment paymentId = .ok after) :
    ∀ row ∈ after.pendingEvents paymentId,
      after.applyEvent paymentId row.payload = .ok (after, false) :=
  Greedy.loop_saturated (applyEvent_consuming paymentId) (Nat.lt_succ_self _) hReconciled

end Commerce

end VouchSpec
