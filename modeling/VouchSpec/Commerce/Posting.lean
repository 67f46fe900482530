import Mathlib.Data.Fintype.Basic
import VouchSpec.Commerce.Evolution

/-! The events stored for a payment and the order they are posted to: which
statuses stored events justify, and what the consumed ones have led to. -/

namespace VouchSpec

instance : Fintype PaymentStatus where
  elems := {.pending, .captured, .available, .refundPending, .refunded, .disputed, .failed}
  complete status := by cases status <;> decide

/-- The payment statuses that transitions can lead to. -/
def PaymentStatus.leads : PaymentStatus → List PaymentStatus
  | .pending => [.pending, .captured, .available, .refundPending, .refunded, .disputed, .failed]
  | .captured => [.captured, .available, .refundPending, .refunded, .disputed]
  | .available => [.available, .refundPending, .refunded, .disputed]
  | .refundPending => [.refundPending, .refunded, .disputed]
  | .refunded => [.refunded]
  | .disputed => [.disputed]
  | .failed => [.failed]

theorem PaymentStatus.mem_leads_self (status : PaymentStatus) : status ∈ status.leads := by
  cases status <;> decide

theorem PaymentStatus.leads_edge {first prior next : PaymentStatus} (hPrior : prior ∈ first.leads)
    (hEdge : next ∈ paymentTransitions prior) : next ∈ first.leads := by
  revert hPrior hEdge
  revert first prior next
  decide

theorem EventType.target_injective : Function.Injective EventType.target := by
  intro left right
  cases left <;> cases right <;> simp [EventType.target]

/-- The stored events of an order's payment agree with its payment status. -/
structure OrderRow.Posted (order : OrderRow) (rows : List EventRow) : Prop where
  consumed : ∀ row ∈ rows, order.Matches row.payload → row.status ≠ .pending →
    order.paymentStatus ∈ row.eventType.target.leads
  captured : order.paymentStatus ≠ .pending → order.paymentStatus ≠ .failed →
    ∃ event ∈ rows.map EventRow.payload, order.Matches event ∧ event.type = .captured ∧
      event.feeMinor = order.processingFeeMinor
  current : order.paymentStatus ≠ .pending →
    ∃ event ∈ rows.map EventRow.payload, order.Matches event ∧ event.type.target = order.paymentStatus
  refunding : order.paymentStatus = .refunded →
    ∃ event ∈ rows.map EventRow.payload, order.Matches event ∧ event.type = .refundPending

namespace OrderRow

/-- A pending order without stored events. -/
theorem posted_nil {order : OrderRow} (hPending : order.paymentStatus = .pending) :
    order.Posted [] where
  consumed := by simp
  captured h := absurd hPending h
  current h := absurd hPending h
  refunding h := by simp [hPending] at h

/-- An event that has only arrived changes nothing. -/
theorem Posted.arrived {order : OrderRow} {rows : List EventRow} (posted : order.Posted rows)
    {row : EventRow} (hPending : row.status = .pending) : order.Posted (rows ++ [row]) where
  consumed := by
    intro other hOther hMatches hConsumed
    rcases List.mem_append.mp hOther with hOld | hNew
    · exact posted.consumed other hOld hMatches hConsumed
    · rw [List.mem_singleton.mp hNew] at hConsumed
      exact absurd hPending hConsumed
  captured hPaid hFailed := by
    obtain ⟨event, hEvent, h⟩ := posted.captured hPaid hFailed
    exact ⟨event, by simp [List.mem_map.mp hEvent], h⟩
  current hStatus := by
    obtain ⟨event, hEvent, h⟩ := posted.current hStatus
    exact ⟨event, by simp [List.mem_map.mp hEvent], h⟩
  refunding hStatus := by
    obtain ⟨event, hEvent, h⟩ := posted.refunding hStatus
    exact ⟨event, by simp [List.mem_map.mp hEvent], h⟩

/-- The rows after the status columns of one event were set. -/
def remarked (eventId : String) (status : EventStatus) (appliedAt : EventRow → Option String)
    (rows : List EventRow) : List EventRow :=
  Table.changed rows (fun row => row.eventId = eventId)
    fun row => { row with status, appliedAt := appliedAt row }

theorem remarked_payloads (eventId : String) (status : EventStatus)
    (appliedAt : EventRow → Option String) (rows : List EventRow) :
    (remarked eventId status appliedAt rows).map EventRow.payload = rows.map EventRow.payload := by
  unfold remarked Table.changed
  rw [List.map_map]
  apply List.map_congr_left
  intro row _
  simp only [Function.comp_apply]
  split <;> rfl

/-- Consuming an event, when the order already is where the event leads or
the event is for another amount. -/
theorem Posted.remark {order : OrderRow} {rows : List EventRow} (posted : order.Posted rows)
    {event : ProviderEvent} (hOnly : ∀ row ∈ rows, row.eventId = event.eventId → row.payload = event)
    (hConsumed : order.Matches event → order.paymentStatus ∈ event.type.target.leads)
    (status : EventStatus) (appliedAt : EventRow → Option String) :
    order.Posted (remarked event.eventId status appliedAt rows) := by
  have hPayloads := remarked_payloads event.eventId status appliedAt rows
  refine ⟨?_, by rw [hPayloads]; exact posted.captured, by rw [hPayloads]; exact posted.current,
    by rw [hPayloads]; exact posted.refunding⟩
  intro row hRow hMatches hNotPending
  rcases Table.mem_changed.mp hRow with ⟨old, hOld, hId, rfl⟩ | ⟨hOld, -⟩
  · have hPayload : old.payload = event := hOnly old hOld (by simpa using hId)
    change order.Matches old.payload at hMatches
    change order.paymentStatus ∈ old.payload.type.target.leads
    rw [hPayload] at hMatches ⊢
    exact hConsumed hMatches
  · exact posted.consumed row hOld hMatches hNotPending

theorem advance_matches (event other : ProviderEvent) (order : OrderRow) :
    (order.advance event).Matches other ↔ order.Matches other := by
  obtain ⟨-, -, -, hAmount, hCurrency, -⟩ := advance_frame event order
  rw [Matches, Matches, hAmount, hCurrency]

/-- Applying a stored event. -/
theorem Posted.advance {order : OrderRow} {rows : List EventRow} (posted : order.Posted rows)
    {event : ProviderEvent} (hOnly : ∀ row ∈ rows, row.eventId = event.eventId → row.payload = event)
    (hStored : event ∈ rows.map EventRow.payload) (hMatches : order.Matches event)
    (hAdmits : order.Admits event) (status : EventStatus) (appliedAt : EventRow → Option String) :
    (order.advance event).Posted (remarked event.eventId status appliedAt rows) := by
  have hPayloads := remarked_payloads event.eventId status appliedAt rows
  have hStatus := (advance_status event order).1
  have hEdge := hAdmits.1
  refine ⟨?_, ?_, ?_, ?_⟩
  · intro row hRow hRowMatches hNotPending
    rw [hStatus]
    rw [advance_matches] at hRowMatches
    rcases Table.mem_changed.mp hRow with ⟨old, hOld, hId, rfl⟩ | ⟨hOld, -⟩
    · have hPayload : old.payload = event := hOnly old hOld (by simpa using hId)
      change event.type.target ∈ old.payload.type.target.leads
      rw [hPayload]
      exact PaymentStatus.mem_leads_self _
    · exact PaymentStatus.leads_edge (posted.consumed row hOld hRowMatches hNotPending) hEdge
  · intro hNotPending hNotFailed
    simp only [hPayloads, advance_matches]
    rw [hStatus] at hNotPending hNotFailed
    by_cases hType : event.type = .captured
    · exact ⟨event, hStored, hMatches, hType, by simp [OrderRow.advance, hType, EventType.target]⟩
    · -- The payment had been captured before, and the fee stays.
      have hBefore : order.paymentStatus ≠ .pending ∧ order.paymentStatus ≠ .failed := by
        cases hOld : order.paymentStatus <;> rw [hOld] at hEdge <;>
          cases hKind : event.type <;>
            simp [hKind, EventType.target, paymentTransitions] at hEdge hType hNotFailed ⊢
      obtain ⟨first, hFirst, hFirstMatches, hFirstType, hFee⟩ := posted.captured hBefore.1 hBefore.2
      refine ⟨first, hFirst, hFirstMatches, hFirstType, hFee.trans ?_⟩
      cases hKind : event.type <;> simp [OrderRow.advance, hKind, EventType.target] at hType ⊢
  · intro _
    simp only [hPayloads, advance_matches, hStatus]
    exact ⟨event, hStored, hMatches, rfl⟩
  · intro hRefunded
    simp only [hPayloads, advance_matches]
    rw [hStatus] at hRefunded
    have hBefore : order.paymentStatus = .refundPending := by
      rw [hRefunded] at hEdge
      cases hOld : order.paymentStatus <;> rw [hOld] at hEdge <;> simp [paymentTransitions] at hEdge ⊢
    obtain ⟨first, hFirst, hFirstMatches, hTarget⟩ := posted.current (by simp [hBefore])
    exact ⟨first, hFirst, hFirstMatches,
      EventType.target_injective (hTarget.trans hBefore)⟩

end OrderRow

namespace Commerce

/-- The stored events of one payment. -/
def eventsOf (db : Commerce) (paymentId : String) : List EventRow :=
  db.events.rows.filter fun row => row.paymentId = paymentId

variable {p : Platform} {db after : Commerce}

theorem eventsOf_remarked {event : ProviderEvent} {status : EventStatus}
    {appliedAt : EventRow → Option String}
    (hRows : after.events.rows =
      OrderRow.remarked event.eventId status appliedAt db.events.rows) (paymentId : String) :
    after.eventsOf paymentId =
      OrderRow.remarked event.eventId status appliedAt (db.eventsOf paymentId) := by
  unfold eventsOf
  rw [hRows]
  unfold OrderRow.remarked Table.changed
  rw [List.filter_map]
  congr 1
  apply List.filter_congr
  intro row _
  simp only [Function.comp_apply]
  split <;> rfl

/-- The order of a payment after an effect on it. -/
theorem orderByPayment?_changed {orderId : String} {change : OrderRow → OrderRow}
    (hKeys : ∀ row, (change row).keys = row.keys)
    (hRows : after.orders.rows =
      Table.changed db.orders.rows (fun row => row.orderId = orderId) change) (paymentId : String) :
    after.orderByPayment? paymentId =
      (db.orderByPayment? paymentId).map fun row => if row.orderId = orderId then change row else row := by
  unfold orderByPayment? Table.find?
  rw [hRows, Table.find?_changed]
  · apply Option.map_congr
    intro row _
    simp only [decide_eq_true_eq]
  · intro row _
    rw [show (change row).providerPaymentId = row.providerPaymentId from
      congrArg OrderKeys.providerPaymentId (hKeys row)]

/-- What an attempt at an event does to its order and to the table of events. -/
theorem Attempted.posting {order : OrderRow} {event : ProviderEvent} {progressed : Bool}
    (attempted : Attempted db order event after progressed)
    (hOrder : db.orderByPayment? event.paymentId = some order) :
    (after = db ∧ progressed = false) ∨
      ∃ status appliedAt later, after.events.rows =
          OrderRow.remarked event.eventId status appliedAt db.events.rows ∧
        after.orderByPayment? event.paymentId = some later ∧
        after.costRecords = db.costRecords ∧
        ((later = order ∧
            (order.Matches event → order.paymentStatus = event.type.target)) ∨
          (later = order.advance event ∧ order.Matches event ∧ order.Admits event)) := by
  cases attempted with
  | mismatched hMatches =>
      exact Or.inr ⟨.rejectedAmountMismatch, EventRow.appliedAt, order, rfl, hOrder, rfl,
        Or.inl ⟨rfl, fun h => absurd h hMatches⟩⟩
  | repeated hMatches hStatus =>
      exact Or.inr ⟨order.repeatedEffect event, fun _ => some event.occurredAt, order, rfl, hOrder,
        rfl, Or.inl ⟨rfl, fun _ => hStatus⟩⟩
  | stuck => exact Or.inl ⟨rfl, rfl⟩
  | applied hMatches _ hAdmits booked hBooked =>
      obtain ⟨entries, -, rfl⟩ := financialEntries_eq_ok.mp hBooked
      refine Or.inr ⟨.applied, fun _ => some event.occurredAt, order.advance event, rfl, ?_, rfl,
        Or.inr ⟨rfl, hMatches, hAdmits⟩⟩
      have hChanged := orderByPayment?_changed (OrderRow.advance_keys event)
        (rfl : (db.setOrder order.orderId (OrderRow.advance event)
          (OrderRow.advance_keys event)).orders.rows = _) event.paymentId
      rw [hOrder, Option.map_some, if_pos rfl] at hChanged
      exact hChanged

end Commerce

end VouchSpec
