import VouchSpec.Commerce.Reversal

/-! Payments that are taken back. A reversal of a live payment leaves it spent,
and no event makes a spent payment live again. -/

namespace VouchSpec

/-- The payment is past being live. -/
def PaymentStatus.Spent (status : PaymentStatus) : Prop := status ≠ .pending ∧ ¬status.Live

theorem PaymentStatus.Spent.edge {status : PaymentStatus} {type : EventType} (spent : status.Spent)
    (hEdge : type.target ∈ paymentTransitions status) : type.target.Spent := by
  obtain ⟨hPending, hLive⟩ := spent
  cases status
  case pending => exact absurd rfl hPending
  case captured => exact absurd (Or.inl rfl) hLive
  case available => exact absurd (Or.inr rfl) hLive
  all_goals
    cases type
    all_goals simp [EventType.target, paymentTransitions] at hEdge
    all_goals simp [Spent, Live, EventType.target]

theorem EventType.Reverses.spent {type : EventType} (reverses : type.Reverses) : type.target.Spent := by
  rcases reverses with rfl | rfl
  all_goals simp [PaymentStatus.Spent, PaymentStatus.Live, EventType.target]

namespace Commerce

variable {p : Platform} {db after : Commerce} {orderId : String}

/-- An attempt at an event leaves each order as it is, or advances it. -/
theorem Attempted.follow {paid later : OrderRow} {event : ProviderEvent} {progressed : Bool}
    (attempted : Attempted db paid event after progressed) (hStored : paid ∈ db.orders.rows)
    (hLater : db.order? orderId = some later) :
    after.order? orderId = some later ∨
      later = paid ∧ later.Admits event ∧ after.order? orderId = some (later.advance event) := by
  rcases attempted.order? hStored with hSame | ⟨-, hAdmits, -, hLookup⟩
  · left
    unfold Commerce.order? at hLater ⊢
    rw [hSame, hLater]
  by_cases hOwn : orderId = paid.orderId
  · subst hOwn
    obtain rfl : later = paid := Option.some.inj (hLater.symm.trans (order?_eq_some.mpr ⟨hStored, rfl⟩))
    exact Or.inr ⟨rfl, hAdmits, by rw [hLookup, if_pos rfl]⟩
  · exact Or.inl (by rw [hLookup, if_neg hOwn, hLater])

/-- Reconciliation keeps of each order what its advances keep. -/
theorem reconcilePayment_kept {paymentId : String} {order : OrderRow} (property : OrderRow → Prop)
    (hAdvance : ∀ order event, property order → OrderRow.Admits order event → property (order.advance event))
    (hOrder : db.order? orderId = some order) (hProperty : property order)
    (hReturns : db.reconcilePayment paymentId = .ok after) :
    ∃ later, after.order? orderId = some later ∧ property later := by
  refine Greedy.loop_invariant (fun state => ∃ later, state.order? orderId = some later ∧ property later)
    (applyEvent_consuming paymentId) ?_ ⟨order, hOrder, hProperty⟩ hReturns
  rintro state row next progressed ⟨later, hLater, hHolds⟩ hPending hAttempt
  obtain ⟨paid, hPaid, attempted⟩ := applyEvent_eq_ok.mp hAttempt
  rcases attempted.follow (orderByPayment?_eq_some.mp hPaid).1 hLater with hSame | ⟨-, hAdmits, hNext⟩
  · exact ⟨later, hSame, hHolds⟩
  · exact ⟨_, hNext, hAdvance later row.payload hHolds hAdmits⟩

/-- No event makes a spent payment live again. -/
theorem ingest_spent {order : OrderRow} (hOrder : db.order? orderId = some order)
    (spent : order.paymentStatus.Spent) (eventValue : Json) (receivedAt : Option String) (utcNow : Int) :
    ∃ later, (db.step p (.ingestProviderEvent eventValue receivedAt utcNow)).order? orderId = some later ∧
      later.paymentStatus.Spent := by
  rw [step_ingest]
  cases hIngest : db.ingestProviderEvent p eventValue receivedAt utcNow with
  | error error => exact ⟨order, hOrder, spent⟩
  | ok result =>
      obtain ⟨event, instant, -, -, hIngested⟩ := ingestProviderEvent_eq_ok.mp hIngest
      rcases ingestEvent_eq_ok.mp hIngested with
        ⟨_, _, -, -, -, hSame, -⟩ | ⟨paid, events, _, -, hPaid, -, -, hReconciled, -⟩
      · exact ⟨order, hSame ▸ hOrder, spent⟩
      have hStart : ({ db with events } : Commerce).order? orderId = some order := hOrder
      refine reconcilePayment_kept (fun order => order.paymentStatus.Spent) ?_ hStart spent hReconciled
      intro later event hSpent hAdmits
      rw [(OrderRow.advance_status event later).1]
      exact hSpent.edge hAdmits.1

/-- A matching reversal of a live payment is applied at the first attempt. -/
theorem Attempted.reversal {order : OrderRow} {event : ProviderEvent} {progressed : Bool}
    (attempted : Attempted db order event after progressed)
    (hOrder : db.orderByPayment? event.paymentId = some order) (hMatches : order.Matches event)
    (live : order.paymentStatus.Live) (hReverses : event.type.Reverses) :
    after.order? order.orderId = some (order.advance event) := by
  have hApart : order.paymentStatus ≠ event.type.target := fun hSame => hReverses.spent.2 (hSame ▸ live)
  have hLater : after.orderByPayment? event.paymentId = some (order.advance event) := by
    rcases attempted.posting hOrder with ⟨-, rfl⟩ | ⟨_, _, later, -, hLater, -, hOutcome⟩
    · cases attempted with
      | stuck _ _ hAdmits => exact absurd (OrderRow.admits_reversal live hReverses) hAdmits
    · rcases hOutcome with ⟨-, hSame⟩ | ⟨rfl, -⟩
      · exact absurd (hSame hMatches) hApart
      · exact hLater
  have hKeys := congrArg OrderKeys.orderId (OrderRow.advance_keys event order)
  exact order?_eq_some.mpr ⟨(orderByPayment?_eq_some.mp hLater).1, hKeys⟩

/-- The order while the event that takes its payment back has not been applied, or after it. -/
structure Facing (db : Commerce) (order : OrderRow) (row : EventRow) (later : OrderRow) : Prop where
  stored : db.order? order.orderId = some later
  payment : later.providerPaymentId = some row.paymentId
  amount : later.Matches row.payload
  course : later.paymentStatus.Spent ∨ later.paymentStatus.Live ∧ row ∈ db.events.rows

theorem Facing.attempt {order later paid : OrderRow} {row item : EventRow} {progressed : Bool}
    (facing : Facing db order row later) (hReverses : row.eventType.Reverses) (hItem : item ∈ db.events.rows)
    (hPaid : db.orderByPayment? item.paymentId = some paid)
    (attempted : Attempted db paid item.payload after progressed) : ∃ next, Facing after order row next := by
  obtain ⟨hStored, hBound⟩ := orderByPayment?_eq_some.mp hPaid
  by_cases hRow : item = row ∧ later.paymentStatus.Live
  · obtain ⟨rfl, live⟩ := hRow
    obtain rfl : later = paid := Option.some.inj
      ((orderByPayment?_eq_some.mpr ⟨(order?_eq_some.mp facing.stored).1, facing.payment⟩).symm.trans hPaid)
    have hNext := attempted.reversal hPaid facing.amount live hReverses
    obtain ⟨-, -, -, hAmount, hCurrency, -⟩ := OrderRow.advance_frame item.payload later
    rw [(order?_eq_some.mp facing.stored).2] at hNext
    refine ⟨_, hNext, (OrderRow.advance_bindings item.payload later).2.1.trans facing.payment, ?_, Or.inl ?_⟩
    · rw [OrderRow.Matches, hAmount, hCurrency]
      exact facing.amount
    · rw [(OrderRow.advance_status item.payload later).1]
      exact hReverses.spent
  have hWaits : later.paymentStatus.Live → row ∈ db.events.rows → row ∈ after.events.rows := by
    intro live hHere
    rcases attempted.events with ⟨-, rfl⟩ | ⟨-, status, appliedAt, -, hRows⟩
    · exact hHere
    rw [hRows]
    refine Table.mem_changed.mpr (Or.inr ⟨hHere, fun hSame => hRow ⟨?_, live⟩⟩)
    exact (event_eq_of_eventId hHere hItem (of_decide_eq_true hSame)).symm
  rcases attempted.follow hStored facing.stored with hSame | ⟨-, hAdmits, hNext⟩
  · refine ⟨later, hSame, facing.payment, facing.amount, ?_⟩
    exact facing.course.imp id fun h => ⟨h.1, hWaits h.1 h.2⟩
  · obtain ⟨-, -, -, hAmount, hCurrency, -⟩ := OrderRow.advance_frame item.payload later
    refine ⟨_, hNext, (OrderRow.advance_bindings item.payload later).2.1.trans facing.payment, ?_, ?_⟩
    · rw [OrderRow.Matches, hAmount, hCurrency]
      exact facing.amount
    rw [(OrderRow.advance_status item.payload later).1]
    rcases facing.course with spent | ⟨live, hHere⟩
    · exact Or.inl (spent.edge hAdmits.1)
    · by_cases hBack : item.eventType.Reverses
      · exact Or.inl hBack.spent
      · exact Or.inr ⟨live.edge hAdmits.1 hBack, hWaits live hHere⟩

/-- Reconciliation does not leave a reversal of a live payment waiting. -/
theorem reconcilePayment_reversal {order : OrderRow} {row : EventRow} (hOrder : db.order? order.orderId = some order)
    (hRow : row ∈ db.events.rows) (hPending : row.status = .pending)
    (hBound : order.providerPaymentId = some row.paymentId) (hMatches : order.Matches row.payload)
    (live : order.paymentStatus.Live) (hReverses : row.eventType.Reverses)
    (hReturns : db.reconcilePayment row.paymentId = .ok after) :
    ∃ later, after.order? order.orderId = some later ∧ later.paymentStatus.Spent := by
  obtain ⟨later, facing⟩ := Greedy.loop_invariant (fun state => ∃ later, Facing state order row later)
    (applyEvent_consuming row.paymentId) (by
      rintro state item next progressed ⟨later, facing⟩ hItem hAttempt
      obtain ⟨hHere, hPayment, -⟩ := mem_pendingEvents.mp hItem
      obtain ⟨paid, hPaid, attempted⟩ := applyEvent_eq_ok.mp hAttempt
      exact facing.attempt hReverses hHere (hPayment ▸ hPaid) attempted)
    ⟨order, hOrder, hBound, hMatches, Or.inr ⟨live, hRow⟩⟩ hReturns
  refine ⟨later, facing.stored, ?_⟩
  rcases facing.course with spent | ⟨hLive, hHere⟩
  · exact spent
  · have hStuck := reconcilePayment_saturated hReturns row (mem_pendingEvents.mpr ⟨hHere, rfl, hPending⟩)
    have hPaid := orderByPayment?_eq_some.mpr ⟨(order?_eq_some.mp facing.stored).1, facing.payment⟩
    exact absurd (OrderRow.admits_reversal hLive hReverses) (stuck_of_saturated hPaid hStuck).2.2

/-- The ingestion of a reversal takes a live payment back. -/
theorem ingest_reversal {order : OrderRow} {event : ProviderEvent} {eventValue : Json}
    {receivedAt : Option String} {utcNow : Int} {result : Commerce × Ingested}
    (hOrder : db.order? orderId = some order) (live : order.paymentStatus.Live)
    (hValid : db.validateEvent p eventValue = .ok event) (reversal : db.Reversal order event)
    (hReturns : db.ingestProviderEvent p eventValue receivedAt utcNow = .ok result) :
    ∃ later, (db.step p (.ingestProviderEvent eventValue receivedAt utcNow)).order? orderId = some later ∧
      later.paymentStatus.Spent := by
  obtain ⟨hStored, rfl⟩ := order?_eq_some.mp hOrder
  rw [step_ingest, hReturns]
  obtain ⟨found, instant, hFound, -, hIngested⟩ := ingestProviderEvent_eq_ok.mp hReturns
  obtain rfl : event = found := Except.ok.inj (hValid.symm.trans hFound)
  rcases ingestEvent_eq_ok.mp hIngested with
    ⟨stored, _, hSeen, -⟩ | ⟨paid, events, _, -, hPaid, -, hInsert, hReconciled, -⟩
  · rw [reversal.arrives] at hSeen
    cases hSeen
  have hRow : newEvent p event (orElseNow p receivedAt utcNow) ∈ events.rows := by
    rw [(Table.insert?_eq_some.mp hInsert).2]
    exact List.mem_append_right _ (List.mem_singleton.mpr rfl)
  have hStart : ({ db with events } : Commerce).order? order.orderId = some order := hOrder
  exact reconcilePayment_reversal hStart hRow rfl reversal.bound reversal.amount live reversal.reverses hReconciled

end Commerce

end VouchSpec
