import VouchSpec.Commerce.Ledger
import VouchSpec.Commerce.Posting

/-! The ingestion of one event as a whole: reconciliation never raises on a
well-formed store, and it leaves the payment's events posted and stuck. -/

namespace VouchSpec

namespace Account

/-- No entry of a category that an event adds is there before it is applied. -/
theorem Balanced.fresh_entries {account : Account} (balanced : account.Balanced)
    {event : ProviderEvent} (hAdmits : account.order.Admits event) :
    ∀ row ∈ event.entries account.order.orderId, entryCount account.entries row.category = 0 := by
  have hEdge := hAdmits.1
  intro row hRow
  rw [balanced.counted]
  cases hType : event.type with
  | captured =>
      have hPending : account.order.paymentStatus = .pending := by
        cases hStatus : account.order.paymentStatus <;>
          simp [hType, EventType.target, hStatus, paymentTransitions] at hEdge ⊢
      simp only [ProviderEvent.entries, hType, EventType.target, List.mem_cons, List.not_mem_nil,
        or_false] at hRow
      rcases hRow with rfl | rfl <;>
        simp [OrderRow.expectedEntries, PaymentStatus.Paid, hPending]
  | refunded =>
      have hStatus : account.order.paymentStatus = .refundPending := by
        cases hStatus : account.order.paymentStatus <;>
          simp [hType, EventType.target, hStatus, paymentTransitions] at hEdge ⊢
      simp only [ProviderEvent.entries, hType, EventType.target, List.mem_cons, List.not_mem_nil,
        or_false] at hRow
      rw [hRow]
      simp [OrderRow.expectedEntries, hStatus]
  | _ => simp [ProviderEvent.entries, hType, EventType.target] at hRow

/-- The fee of a payment that was never captured. -/
theorem Balanced.fee_of_unpaid {account : Account} (balanced : account.Balanced)
    (hUnpaid : ¬account.order.paymentStatus.Paid) : account.order.processingFeeMinor = 0 := by
  rw [← balanced.fee]
  exact Commerce.categoryAmount_eq_zero ((balanced.counted .processingFee).trans (if_neg hUnpaid))

end Account

namespace Commerce

variable {p : Platform} {db after : Commerce}

theorem entries_distinct (event : ProviderEvent) (orderId : String) :
    (event.entries orderId).Pairwise fun first second => ¬first.keys = second.keys := by
  cases hType : event.type <;> simp [ProviderEvent.entries, hType, EventType.target, EntryRow.keys]

/-- The entries of an admitted event can be added. -/
theorem WellFormed.financialEntries_returns (wellFormed : WellFormed p db) {order : OrderRow}
    (hOrder : order ∈ db.orders.rows) {event : ProviderEvent} (hAdmits : order.Admits event) :
    ∃ booked, (db.setOrder order.orderId (OrderRow.advance event)
      (OrderRow.advance_keys event)).financialEntries (event.entries order.orderId) = .ok booked := by
  obtain ⟨account, hAccount, rfl, balanced⟩ := wellFormed.balanced hOrder
  have hFresh := balanced.fresh_entries hAdmits
  rw [(account?_eq_some.mp hAccount).2.1] at hFresh
  have hDistinct : (db.entries.rows ++ event.entries account.order.orderId).Pairwise
      fun first second => ¬first.keys = second.keys := by
    apply List.pairwise_append.mpr
    refine ⟨db.entries.distinct, entries_distinct event _, ?_⟩
    intro stored hStored row hRow hSame
    simp only [EntryRow.keys, Prod.mk.injEq] at hSame
    have hOwner := (payment_owner account.order event).1 row hRow
    have hCount := hFresh row hRow
    rw [entryCount, List.countP_eq_zero] at hCount
    apply hCount stored
    · exact List.mem_filter.mpr ⟨hStored, by simp [hSame.1, hOwner]⟩
    · simp [hSame.2.1]
  exact ⟨_, financialEntries_eq_ok.mpr ⟨⟨_, hDistinct⟩, rfl, rfl⟩⟩

/-- An attempt at an event of a bound payment never raises. -/
theorem WellFormed.applyEvent_returns (wellFormed : WellFormed p db) {paymentId : String}
    {order : OrderRow} (hOrder : db.orderByPayment? paymentId = some order) (event : ProviderEvent) :
    ∃ result, db.applyEvent paymentId event = .ok result := by
  suffices hAttempted : ∃ after progressed, Attempted db order event after progressed by
    obtain ⟨after, progressed, attempted⟩ := hAttempted
    exact ⟨(after, progressed), applyEvent_eq_ok.mpr ⟨order, hOrder, attempted⟩⟩
  by_cases hMatches : order.Matches event
  case neg => exact ⟨_, _, .mismatched hMatches⟩
  by_cases hStatus : order.paymentStatus = event.type.target
  case pos => exact ⟨_, _, .repeated hMatches hStatus⟩
  by_cases hAdmits : order.Admits event
  case neg => exact ⟨_, _, .stuck hMatches hStatus hAdmits⟩
  obtain ⟨booked, hBooked⟩ := wellFormed.financialEntries_returns
    (orderByPayment?_eq_some.mp hOrder).1 hAdmits
  exact ⟨_, _, .applied hMatches hStatus hAdmits booked hBooked⟩

/-- The store is well formed and the payment is bound. -/
private def Bound (p : Platform) (paymentId : String) (db : Commerce) : Prop :=
  WellFormed p db ∧ ∃ order, db.orderByPayment? paymentId = some order

private theorem bound_attempt {paymentId : String} {row : EventRow} {progressed : Bool}
    (bound : Bound p paymentId db) (hPending : row ∈ db.pendingEvents paymentId)
    (hAttempt : db.applyEvent paymentId row.payload = .ok (after, progressed)) :
    Bound p paymentId after := by
  obtain ⟨wellFormed, -⟩ := bound
  obtain ⟨-, rfl, -⟩ := mem_pendingEvents.mp hPending
  obtain ⟨order, hOrder, attempted⟩ := applyEvent_eq_ok.mp hAttempt
  obtain ⟨hAfter, continues⟩ := (attempted.moves hOrder).wellFormed_continues wellFormed
  obtain ⟨hStored, hBound⟩ := orderByPayment?_eq_some.mp hOrder
  obtain ⟨later, hLater, hStill, -⟩ := continues.orderByPayment wellFormed hStored hBound
  exact ⟨hAfter, later, orderByPayment?_eq_some.mpr ⟨hLater, hStill⟩⟩

/-- Reconciliation of a bound payment never raises. -/
theorem WellFormed.reconcilePayment_returns (wellFormed : WellFormed p db) {paymentId : String}
    {order : OrderRow} (hOrder : db.orderByPayment? paymentId = some order) :
    ∃ after, db.reconcilePayment paymentId = .ok after := by
  apply Greedy.loop_returns (Bound p paymentId) (applyEvent_consuming paymentId)
  · intro state row next progressed bound hPending hAttempt
    exact bound_attempt bound hPending hAttempt
  · rintro state row ⟨hState, found, hFound⟩ -
    exact hState.applyEvent_returns hFound row.payload
  · exact ⟨wellFormed, order, hOrder⟩

/-- The order of a payment, posted to, in a store reconciled from another. -/
structure PostedFrom (start db : Commerce) (paymentId : String) (order : OrderRow) : Prop where
  bound : db.orderByPayment? paymentId = some order
  posted : order.Posted (db.eventsOf paymentId)
  payloads : db.events.rows.map EventRow.payload = start.events.rows.map EventRow.payload
  costRecords : db.costRecords = start.costRecords

/-- An attempt at a pending event keeps the order posted to. -/
theorem PostedFrom.attempt {start : Commerce} {paymentId : String} {order : OrderRow}
    {row : EventRow} {progressed : Bool} (postedFrom : PostedFrom start db paymentId order)
    (hPending : row ∈ db.pendingEvents paymentId)
    (hAttempt : db.applyEvent paymentId row.payload = .ok (after, progressed)) :
    ∃ later, PostedFrom start after paymentId later ∧
      (later = order ∨ later = order.advance row.payload ∧ order.Admits row.payload) := by
  obtain ⟨hRow, rfl, -⟩ := mem_pendingEvents.mp hPending
  obtain ⟨found, hFound, attempted⟩ := applyEvent_eq_ok.mp hAttempt
  obtain rfl : found = order := Option.some.inj (hFound.symm.trans postedFrom.bound)
  rcases attempted.posting hFound with
    ⟨rfl, -⟩ | ⟨status, appliedAt, later, hRows, hLater, hCosts, hOutcome⟩
  · exact ⟨found, postedFrom, Or.inl rfl⟩
  have hOnly : ∀ other ∈ db.eventsOf row.paymentId, other.eventId = row.payload.eventId →
      other.payload = row.payload := by
    intro other hOther hId
    rw [event_eq_of_eventId (List.mem_filter.mp hOther).1 hRow hId]
  have hStored : row.payload ∈ (db.eventsOf row.paymentId).map EventRow.payload :=
    List.mem_map_of_mem (List.mem_filter.mpr ⟨hRow, by simp⟩)
  have hPayloads : after.events.rows.map EventRow.payload = start.events.rows.map EventRow.payload := by
    rw [hRows, OrderRow.remarked_payloads, postedFrom.payloads]
  refine ⟨later, ⟨hLater, ?_, hPayloads, hCosts.trans postedFrom.costRecords⟩, ?_⟩
  · rw [eventsOf_remarked hRows]
    rcases hOutcome with ⟨rfl, hThere⟩ | ⟨rfl, hMatches, hAdmits⟩
    · apply postedFrom.posted.remark hOnly
      intro hMatches
      rw [hThere hMatches]
      exact PaymentStatus.mem_leads_self _
    · exact postedFrom.posted.advance hOnly hStored hMatches hAdmits status appliedAt
  · rcases hOutcome with ⟨rfl, -⟩ | ⟨rfl, -, hAdmits⟩
    · exact Or.inl rfl
    · exact Or.inr ⟨rfl, hAdmits⟩

/-- Reconciliation posts to the order, and keeps a property of orders that
every admitted event of the payment keeps. -/
theorem PostedFrom.reconcile {paymentId : String} {order : OrderRow}
    (postedFrom : PostedFrom db db paymentId order) (property : OrderRow → Prop)
    (hProperty : property order)
    (hAdvance : ∀ order row, row ∈ db.events.rows.map EventRow.payload → row.paymentId = paymentId →
      OrderRow.Admits order row → property order → property (order.advance row))
    (hReturns : db.reconcilePayment paymentId = .ok after) :
    ∃ later, PostedFrom db after paymentId later ∧ property later := by
  apply Greedy.loop_invariant
    (fun state => ∃ later, PostedFrom db state paymentId later ∧ property later)
    (applyEvent_consuming paymentId) ?_ ⟨order, postedFrom, hProperty⟩ hReturns
  rintro state row next progressed ⟨current, hCurrent, hHolds⟩ hPending hAttempt
  obtain ⟨later, hLater, hMoved⟩ := hCurrent.attempt hPending hAttempt
  refine ⟨later, hLater, ?_⟩
  rcases hMoved with rfl | ⟨rfl, hAdmits⟩
  · exact hHolds
  · obtain ⟨hRow, hPayment, -⟩ := mem_pendingEvents.mp hPending
    apply hAdvance current row.payload _ hPayment hAdmits hHolds
    rw [← hCurrent.payloads]
    exact List.mem_map_of_mem hRow

private theorem Attempted.idle {order : OrderRow} {event : ProviderEvent}
    (attempted : Attempted db order event after false) :
    order.Matches event ∧ order.paymentStatus ≠ event.type.target ∧ ¬order.Admits event := by
  cases attempted with
  | stuck hMatches hStatus hAdmits => exact ⟨hMatches, hStatus, hAdmits⟩

/-- A pending event that is stuck has the quoted amount, and leads nowhere from
the order's status. -/
theorem stuck_of_saturated {paymentId : String} {order : OrderRow} {row : EventRow}
    (hOrder : db.orderByPayment? paymentId = some order)
    (hStuck : db.applyEvent paymentId row.payload = .ok (db, false)) :
    order.Matches row.payload ∧ order.paymentStatus ≠ row.eventType.target ∧
      ¬order.Admits row.payload := by
  obtain ⟨found, hFound, attempted⟩ := applyEvent_eq_ok.mp hStuck
  obtain rfl : found = order := Option.some.inj (hFound.symm.trans hOrder)
  exact attempted.idle

/-- What a returning ingestion of a new event leaves behind. -/
structure IngestedFrom (before after : Commerce) (event : ProviderEvent) (order : OrderRow) : Prop where
  bound : after.orderByPayment? event.paymentId = some order
  posted : order.Posted (after.eventsOf event.paymentId)
  payloads : after.events.rows.map EventRow.payload =
    before.events.rows.map EventRow.payload ++ [event]
  costRecords : after.costRecords = before.costRecords
  stuck : ∀ row ∈ after.pendingEvents event.paymentId,
    after.applyEvent event.paymentId row.payload = .ok (after, false)

theorem eventsOf_arrived {events : Table EventRow.eventId Eq} {row : EventRow}
    (hRows : events.rows = db.events.rows ++ [row]) :
    ({ db with events } : Commerce).eventsOf row.paymentId = db.eventsOf row.paymentId ++ [row] := by
  unfold eventsOf
  rw [hRows, List.filter_append]
  simp

/-- The ingestion of a new event returns when its payment is bound to an order
of its provider, and posts to that order. -/
theorem WellFormed.ingestEvent_new (wellFormed : WellFormed p db) {event : ProviderEvent}
    {order : OrderRow} (received : String) (hFresh : db.event? event.eventId = none)
    (hOrder : db.orderByPayment? event.paymentId = some order)
    (hProvider : order.provider = event.provider)
    (hPosted : order.Posted (db.eventsOf event.paymentId)) (property : OrderRow → Prop)
    (hProperty : property order)
    (hAdvance : ∀ order other, (other = event ∨ other ∈ db.events.rows.map EventRow.payload) →
      other.paymentId = event.paymentId → OrderRow.Admits order other → property order →
      property (order.advance other)) :
    ∃ after result later, db.ingestEvent p event received = .ok (after, result) ∧
      IngestedFrom db after event later ∧ property later := by
  have hDistinct : (db.events.rows ++ [newEvent p event received]).Pairwise
      fun first second => ¬first.eventId = second.eventId := by
    apply List.pairwise_append.mpr
    refine ⟨db.events.distinct, List.pairwise_singleton _ _, ?_⟩
    intro stored hStored added hAdded hSame
    rw [List.mem_singleton.mp hAdded] at hSame
    have hFound : db.event? event.eventId = some stored := event?_eq_some.mpr ⟨hStored, hSame⟩
    rw [hFresh] at hFound
    cases hFound
  have hInsert : db.events.insert? (newEvent p event received) =
      some ⟨db.events.rows ++ [newEvent p event received], hDistinct⟩ := by
    unfold Table.insert?
    rw [dif_pos hDistinct]
  generalize hEvents : (⟨db.events.rows ++ [newEvent p event received], hDistinct⟩ :
    Table EventRow.eventId Eq) = events at hInsert
  have hRows : events.rows = db.events.rows ++ [newEvent p event received] := by rw [← hEvents]
  have hArrived : WellFormed p { db with events } :=
    Move.wellFormed wellFormed (.arrived hOrder hProvider hRows)
  obtain ⟨after, hReconciled⟩ := hArrived.reconcilePayment_returns
    (hOrder : ({ db with events } : Commerce).orderByPayment? event.paymentId = some order)
  have hStart : PostedFrom { db with events } { db with events } event.paymentId order := by
    refine ⟨hOrder, ?_, rfl, rfl⟩
    have hOwn : ({ db with events } : Commerce).eventsOf event.paymentId =
        db.eventsOf event.paymentId ++ [newEvent p event received] := eventsOf_arrived hRows
    rw [hOwn]
    exact hPosted.arrived rfl
  obtain ⟨later, hLater, hHolds⟩ := hStart.reconcile property hProperty (by
    intro current other hOther hPayment hAdmits hCurrent
    apply hAdvance current other _ hPayment hAdmits hCurrent
    change other ∈ events.rows.map EventRow.payload at hOther
    rw [hRows, List.map_append, List.mem_append] at hOther
    exact hOther.symm.imp (fun h => List.mem_singleton.mp h) id) hReconciled
  have hPayloads : after.events.rows.map EventRow.payload =
      db.events.rows.map EventRow.payload ++ [event] := by
    rw [hLater.payloads]
    change events.rows.map EventRow.payload = _
    rw [hRows, List.map_append]
    rfl
  have hStored : ∃ stored, after.event? event.eventId = some stored := by
    have hMember : event ∈ after.events.rows.map EventRow.payload := by rw [hPayloads]; simp
    obtain ⟨stored, hStored, rfl⟩ := List.mem_map.mp hMember
    exact ⟨stored, event?_eq_some.mpr ⟨hStored, rfl⟩⟩
  obtain ⟨stored, hFound⟩ := hStored
  have hView : ∃ view, after.orderView order.orderId = .ok view := by
    have hMoves : Moves p { db with events } after := reconcilePayment_moves hReconciled
    have continues := (hMoves.wellFormed_continues hArrived).2
    obtain ⟨last, hLast, -⟩ := continues.order hArrived
      (order?_eq_some.mpr ⟨(orderByPayment?_eq_some.mp hOrder).1, rfl⟩ :
        ({ db with events } : Commerce).order? order.orderId = some order)
    unfold orderView
    rw [requireOrder_eq_ok.mpr hLast]
    exact ⟨_, rfl⟩
  obtain ⟨view, hView⟩ := hView
  refine ⟨after, ⟨false, event.eventId, stored.status, view⟩, later, ?_, ?_, hHolds⟩
  · exact ingestEvent_eq_ok.mpr (Or.inr ⟨order, events, stored, hFresh, hOrder, hProvider, hInsert,
      hReconciled, hFound, hView, rfl⟩)
  · exact ⟨hLater.bound, hLater.posted, hPayloads, hLater.costRecords,
      reconcilePayment_saturated hReconciled⟩

end Commerce

end VouchSpec
