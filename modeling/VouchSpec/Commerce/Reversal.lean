import VouchSpec.Commerce.Ingestion
import VouchSpec.Commerce.Origin

/-! Live payments, and the events that take them back. In every reachable store
no event waits that would take a live payment back, so a payment that is live
stays so until a new event of that kind arrives. -/

namespace VouchSpec

/-- The payment is captured or available. -/
def PaymentStatus.Live (status : PaymentStatus) : Prop := status = .captured ∨ status = .available

instance (status : PaymentStatus) : Decidable status.Live := inferInstanceAs (Decidable (_ ∨ _))

/-- The event starts a refund or a dispute. -/
def EventType.Reverses (type : EventType) : Prop := type = .refundPending ∨ type = .disputed

instance (type : EventType) : Decidable type.Reverses := inferInstanceAs (Decidable (_ ∨ _))

/-- A live payment moves on only by a reversal, or it stays live. -/
theorem PaymentStatus.Live.edge {status : PaymentStatus} {type : EventType} (live : status.Live)
    (hEdge : type.target ∈ paymentTransitions status) (hForward : ¬type.Reverses) : type.target.Live := by
  rcases live with rfl | rfl
  all_goals
    cases type
    all_goals simp [EventType.target, paymentTransitions, EventType.Reverses] at hEdge hForward
  exact Or.inr rfl

/-- A reversal is always possible while the payment is live. -/
theorem OrderRow.admits_reversal {order : OrderRow} {event : ProviderEvent}
    (live : order.paymentStatus.Live) (hReverses : event.type.Reverses) : order.Admits event := by
  rcases hReverses with hType | hType
  all_goals
    refine ⟨?_, by simp [hType, EventType.target]⟩
    rcases live with h | h
    all_goals simp [h, hType, EventType.target, paymentTransitions]

/-- A payment that is not pending is bound. -/
theorem Account.Evolves.paid_bound {account : Account} (evolves : Account.Evolves none (some account)) :
    account.order.providerPaymentId = none → account.order.paymentStatus = .pending := by
  refine (evolves.invariant (fun account => account.order.Regular ∧
    (account.order.providerPaymentId = none → account.order.paymentStatus = .pending))
    (fun hNew _ _ => ⟨hNew.regular, fun _ => hNew.paymentStatus⟩) ?_ (by simp) account rfl).2
  intro account effect allowed h
  refine ⟨allowed.regular h.1, ?_⟩
  cases allowed with
  | checkout _ _ _ hStatus _ => exact fun _ => h.1.pending.mpr (Or.inl hStatus)
  | binding => exact fun hNone => by cases hNone
  | payment event hBound =>
      intro hNone
      rw [account.after_order, Effect.payment, (OrderRow.advance_bindings event _).2.1, hBound] at hNone
      cases hNone
  | costing => exact h.2
  | fulfillment => exact h.2
  | delivery => exact h.2

namespace Commerce

/-- The event is new, and starts a refund or a dispute of the order's payment. -/
structure Reversal (db : Commerce) (order : OrderRow) (event : ProviderEvent) : Prop where
  arrives : db.event? event.eventId = none
  bound : order.providerPaymentId = some event.paymentId
  provider : order.provider = event.provider
  amount : order.Matches event
  reverses : event.type.Reverses

/-- No stored event waits to take the order's payment back. -/
def Drained (db : Commerce) (order : OrderRow) : Prop :=
  ∀ row ∈ db.events.rows, row.status = .pending → order.providerPaymentId = some row.paymentId →
    order.Matches row.payload → ¬row.eventType.Reverses

/-- No stored event waits to take a live payment back. -/
def AllDrained (db : Commerce) : Prop :=
  ∀ order ∈ db.orders.rows, order.paymentStatus.Live → db.Drained order

variable {p : Platform} {db after : Commerce}

theorem Drained.congr {order later : OrderRow} (drained : db.Drained order)
    (hEvents : after.events = db.events) (hPayment : later.providerPaymentId = order.providerPaymentId)
    (hAmount : later.quotedAmountMinor = order.quotedAmountMinor)
    (hCurrency : later.currency = order.currency) : after.Drained later := by
  intro row hRow hPending hBound hMatches
  rw [hEvents] at hRow
  rw [hPayment] at hBound
  rw [OrderRow.Matches, hAmount, hCurrency] at hMatches
  exact drained row hRow hPending hBound hMatches

/-- An operation that leaves the payments of live orders as they are. -/
theorem Acts.allDrained {orderId : String} {condition : OrderRow → Prop} {effect : OrderRow → Effect}
    {order : OrderRow} (acts : Acts db after orderId condition effect order) (drained : db.AllDrained)
    (hKeeps : order ∈ db.orders.rows → condition order →
      ((effect order).change order).paymentStatus.Live → order.paymentStatus.Live ∧
        ((effect order).change order).providerPaymentId = order.providerPaymentId ∧
        ((effect order).change order).quotedAmountMinor = order.quotedAmountMinor ∧
        ((effect order).change order).currency = order.currency) : after.AllDrained := by
  intro later hLater live
  obtain ⟨hStored, rfl⟩ := order?_eq_some.mp acts.stored
  rw [acts.affects.orders] at hLater
  rcases Table.mem_changed.mp hLater with ⟨old, hOld, hSame, rfl⟩ | ⟨hOld, -⟩
  · obtain rfl : old = order := Option.some.inj
      ((order?_eq_some.mpr ⟨hOld, by simpa using hSame⟩).symm.trans acts.stored)
    obtain ⟨hLive, hPayment, hAmount, hCurrency⟩ := hKeeps hStored acts.condition live
    exact (drained _ hOld hLive).congr acts.events hPayment hAmount hCurrency
  · exact (drained later hOld live).congr acts.events rfl rfl rfl

/-- What an attempt at an event does to the orders. -/
theorem Attempted.order? {order : OrderRow} {event : ProviderEvent} {progressed : Bool}
    (attempted : Attempted db order event after progressed) (hStored : order ∈ db.orders.rows) :
    after.orders = db.orders ∨ (order.Matches event ∧ order.Admits event ∧
      after.orders.rows = Table.changed db.orders.rows (fun row => row.orderId = order.orderId)
        (OrderRow.advance event) ∧
      ∀ other, after.order? other =
        if other = order.orderId then some (order.advance event) else db.order? other) := by
  cases attempted with
  | mismatched => exact Or.inl rfl
  | repeated => exact Or.inl rfl
  | stuck => exact Or.inl rfl
  | applied hMatches _ hAdmits booked hBooked =>
      obtain ⟨entries, -, rfl⟩ := financialEntries_eq_ok.mp hBooked
      refine Or.inr ⟨hMatches, hAdmits, rfl, fun other => ?_⟩
      have hFound : db.order? order.orderId = some order := order?_eq_some.mpr ⟨hStored, rfl⟩
      unfold Commerce.order? Table.find? at hFound ⊢
      refine (Table.find?_changed fun row _ => ?_).trans ?_
      · exact congrArg (fun keys : OrderKeys => decide (keys.orderId = other))
          (OrderRow.advance_keys event row)
      by_cases hOther : other = order.orderId
      · subst hOther
        rw [hFound, if_pos rfl, Option.map_some, if_pos (by simp)]
      · rw [if_neg hOther]
        refine (Option.map_congr fun row hRow => ?_).trans Option.map_id'
        have hId := List.find?_some hRow
        simp only [decide_eq_true_eq] at hId
        rw [if_neg (by simp [hId, hOther])]

/-- Reconciliation of a payment leaves other payments as they are. -/
structure Elsewhere (paymentId : String) (db after : Commerce) : Prop where
  orders : ∀ order ∈ after.orders.rows, order.providerPaymentId ≠ some paymentId →
    order ∈ db.orders.rows
  events : ∀ row ∈ after.events.rows, row.paymentId ≠ paymentId → row ∈ db.events.rows

theorem reconcilePayment_elsewhere {paymentId : String}
    (hReturns : db.reconcilePayment paymentId = .ok after) : Elsewhere paymentId db after := by
  apply Greedy.loop_invariant (Elsewhere paymentId db) (applyEvent_consuming paymentId) ?_
    ⟨fun _ h _ => h, fun _ h _ => h⟩ hReturns
  intro state row next progressed elsewhere hPending hAttempt
  obtain ⟨hRow, hPayment, -⟩ := mem_pendingEvents.mp hPending
  obtain ⟨order, hOrder, attempted⟩ := applyEvent_eq_ok.mp hAttempt
  obtain ⟨hStored, hBound⟩ := orderByPayment?_eq_some.mp hOrder
  constructor
  · intro other hOther hElse
    rcases attempted.order? hStored with hSame | ⟨-, -, hRows, -⟩
    · exact elsewhere.orders other (hSame ▸ hOther) hElse
    rw [hRows] at hOther
    rcases Table.mem_changed.mp hOther with ⟨old, hOld, hSame, rfl⟩ | ⟨hOld, -⟩
    · obtain rfl : old = order := Option.some.inj ((order?_eq_some.mpr
        ⟨hOld, by simpa using hSame⟩).symm.trans (order?_eq_some.mpr ⟨hStored, rfl⟩))
      rw [(OrderRow.advance_bindings row.payload old).2.1] at hElse
      exact absurd hBound hElse
    · exact elsewhere.orders other hOld hElse
  · intro other hOther hElse
    rcases attempted.events with ⟨-, rfl⟩ | ⟨-, status, appliedAt, -, hRows⟩
    · exact elsewhere.events other hOther hElse
    rw [hRows] at hOther
    rcases Table.mem_changed.mp hOther with ⟨old, hOld, hSame, rfl⟩ | ⟨hOld, -⟩
    · obtain rfl : old = row := event_eq_of_eventId hOld hRow (of_decide_eq_true hSame)
      exact absurd hPayment hElse
    · exact elsewhere.events other hOld hElse

/-- After a new event no event waits to take a live payment back. -/
theorem ingestEvent_allDrained {event : ProviderEvent} {received : String} {result : Ingested}
    (drained : db.AllDrained) (hReturns : db.ingestEvent p event received = .ok (after, result)) :
    after.AllDrained := by
  rcases ingestEvent_eq_ok.mp hReturns with
    ⟨_, _, -, -, -, rfl, -⟩ | ⟨order, events, _, -, hOrder, -, hInsert, hReconciled, -⟩
  · exact drained
  have elsewhere := reconcilePayment_elsewhere hReconciled
  intro later hLater live row hRow hPending hBound hMatches hReverses
  by_cases hPayment : row.paymentId = event.paymentId
  · -- The events of this payment are saturated, and a reversal would not be stuck.
    rw [hPayment] at hBound
    have hStuck := reconcilePayment_saturated hReconciled row
      (mem_pendingEvents.mpr ⟨hRow, hPayment, hPending⟩)
    exact (stuck_of_saturated (orderByPayment?_eq_some.mpr ⟨hLater, hBound⟩) hStuck).2.2
      (OrderRow.admits_reversal live hReverses)
  · have hOld : later ∈ db.orders.rows := elsewhere.orders later hLater (by
      rw [hBound]
      simpa using hPayment)
    have hStored : row ∈ events.rows := elsewhere.events row hRow hPayment
    rw [(Table.insert?_eq_some.mp hInsert).2, List.mem_append, List.mem_singleton] at hStored
    rcases hStored with hStored | rfl
    · exact drained later hOld live row hStored hPending hBound hMatches hReverses
    · exact hPayment rfl

theorem step_allDrained (wellFormed : WellFormed p db) (drained : db.AllDrained) (call : Call) :
    (db.step p call).AllDrained := by
  unfold step
  split
  case h_2 => exact drained
  next next hCommitted =>
  cases call <;> simp only [committed, Except.map_eq_ok_iff, Prod.exists] at hCommitted
  all_goals obtain ⟨after, view, hReturns, rfl⟩ := hCommitted
  case createQuote =>
    rcases createQuote_origin hReturns with rfl | ⟨_, _, -, -, rfl⟩
    · exact drained
    · exact drained
  case createOrder =>
    rcases createOrder_opens wellFormed.quotes_priced hReturns with
      rfl | ⟨order, orders, _, _, hNew, hRows, rfl⟩
    · exact drained
    · intro later hLater live
      change later ∈ orders.rows at hLater
      rw [hRows, List.mem_append, List.mem_singleton] at hLater
      rcases hLater with hOld | rfl
      · exact drained later hOld live
      · rw [hNew.paymentStatus] at live
        rcases live with h | h <;> cases h
  case attachCheckout =>
    rcases attachCheckout_acts hReturns with rfl | ⟨_, order, acts⟩
    · exact drained
    apply acts.allDrained drained
    intro hStored hFree live
    have hPending := (wellFormed.order_regular hStored).pending.mpr (Or.inl hFree.1)
    change order.paymentStatus.Live at live
    rw [hPending] at live
    rcases live with h | h <;> cases h
  case bindProviderPayment =>
    rcases bindProviderPayment_acts hReturns with rfl | ⟨order, acts⟩
    · exact drained
    apply acts.allDrained drained
    intro hStored hFree live
    obtain ⟨account, hAccount, rfl⟩ := account?_of_order acts.stored
    have hPending := (hAccount ▸ wellFormed.accounts _).paid_bound hFree.2
    change account.order.paymentStatus.Live at live
    rw [hPending] at live
    rcases live with h | h <;> cases h
  case ingestProviderEvent =>
    obtain ⟨event, _, -, -, hIngested⟩ := ingestProviderEvent_eq_ok.mp hReturns
    exact ingestEvent_allDrained drained hIngested
  case recordDirectCosts =>
    rcases recordDirectCosts_acts hReturns with rfl | ⟨_, _, -, acts⟩
    · exact drained
    · exact acts.allDrained drained fun _ _ live => ⟨live, rfl, rfl, rfl⟩
  case deliver =>
    rcases deliver_acts hReturns with ⟨rfl, -⟩ | ⟨_, acts⟩
    · exact drained
    · exact acts.allDrained drained fun _ _ live => ⟨live, rfl, rfl, rfl⟩
  all_goals
    rcases transitionOrder_acts hReturns with ⟨rfl, -⟩ | ⟨_, acts⟩
    · exact drained
    · exact acts.allDrained drained fun _ _ live => ⟨live, rfl, rfl, rfl⟩

/-- In every reachable store no event waits to take a live payment back. -/
theorem Reachable.allDrained (reachable : Reachable p db) : db.AllDrained := by
  obtain ⟨environment, reaches⟩ := reachable
  refine (reaches.invariant (fun db => WellFormed p db ∧ db.AllDrained)
    (fun _ call h => ⟨step_wellFormed h.1 call, step_allDrained h.1 h.2 call⟩)
    ⟨empty_wellFormed environment, ?_⟩).2
  intro order hOrder
  cases hOrder

/-- An order of a live payment that no event waits to take back. -/
structure Shielded (db : Commerce) (order later : OrderRow) : Prop where
  stored : db.order? order.orderId = some later
  live : later.paymentStatus.Live
  payment : later.providerPaymentId = order.providerPaymentId
  amount : later.quotedAmountMinor = order.quotedAmountMinor
  currency : later.currency = order.currency
  drained : db.Drained later

/-- An attempt at a pending event keeps a shielded order shielded. -/
theorem Shielded.attempt {order later paid : OrderRow} {row : EventRow}
    {progressed : Bool} (shielded : Shielded db order later) (hRow : row ∈ db.events.rows)
    (hPending : row.status = .pending) (hOrder : db.orderByPayment? row.paymentId = some paid)
    (attempted : Attempted db paid row.payload after progressed) :
    ∃ next, Shielded after order next := by
  obtain ⟨hStored, hBound⟩ := orderByPayment?_eq_some.mp hOrder
  have hEvents : ∀ other ∈ after.events.rows, other.status = .pending → other ∈ db.events.rows := by
    intro other hOther hWaits
    rcases attempted.events with ⟨-, rfl⟩ | ⟨-, status, appliedAt, hMoved, hRows⟩
    · exact hOther
    rw [hRows] at hOther
    rcases Table.mem_changed.mp hOther with ⟨old, -, -, rfl⟩ | ⟨hOld, -⟩
    · exact absurd hWaits hMoved
    · exact hOld
  have hDrained : after.Drained later := fun other hOther hWaits =>
    shielded.drained other (hEvents other hOther hWaits) hWaits
  rcases attempted.order? hStored with hSame | ⟨hMatches, hAdmits, -, hLookup⟩
  · refine ⟨later, ?_, shielded.live, shielded.payment, shielded.amount, shielded.currency, hDrained⟩
    have hStill := shielded.stored
    unfold Commerce.order? at hStill ⊢
    rw [hSame, hStill]
  by_cases hOwn : order.orderId = paid.orderId
  · obtain rfl : later = paid := Option.some.inj
      (shielded.stored.symm.trans (hOwn ▸ order?_eq_some.mpr ⟨hStored, rfl⟩))
    obtain ⟨hStatus, -⟩ := OrderRow.advance_status row.payload later
    obtain ⟨-, -, -, hAmount, hCurrency, -⟩ := OrderRow.advance_frame row.payload later
    have hPayment := (OrderRow.advance_bindings row.payload later).2.1
    refine ⟨later.advance row.payload, by rw [hLookup, if_pos hOwn], ?_,
      hPayment.trans shielded.payment, hAmount.trans shielded.amount, hCurrency.trans shielded.currency,
      hDrained.congr rfl hPayment hAmount hCurrency⟩
    rw [hStatus]
    exact shielded.live.edge hAdmits.1 (shielded.drained row hRow hPending hBound hMatches)
  · exact ⟨later, by rw [hLookup, if_neg hOwn, shielded.stored], shielded.live, shielded.payment,
      shielded.amount, shielded.currency, hDrained⟩

/-- A live payment stays live while no reversal of it arrives. -/
theorem ingest_live (drained : db.AllDrained) {orderId : String} {order : OrderRow}
    (hOrder : db.order? orderId = some order) (live : order.paymentStatus.Live) {eventValue : Json}
    {receivedAt : Option String} {utcNow : Int}
    (hForward : ∀ event, db.validateEvent p eventValue = .ok event → ¬db.Reversal order event) :
    ∃ later, (db.step p (.ingestProviderEvent eventValue receivedAt utcNow)).order? orderId = some later ∧
      later.paymentStatus.Live := by
  rw [step_ingest]
  obtain ⟨hStored, rfl⟩ := order?_eq_some.mp hOrder
  cases hIngest : db.ingestProviderEvent p eventValue receivedAt utcNow with
  | error error => exact ⟨order, hOrder, live⟩
  | ok result =>
      obtain ⟨event, instant, hValid, -, hIngested⟩ := ingestProviderEvent_eq_ok.mp hIngest
      rcases ingestEvent_eq_ok.mp hIngested with
        ⟨_, _, -, -, -, hSame, -⟩ | ⟨paid, events, _, hFresh, hPaid, hProvider, hInsert, hReconciled, -⟩
      · exact ⟨order, hSame ▸ hOrder, live⟩
      have hStart : Shielded { db with events } order order := by
        refine ⟨hOrder, live, rfl, rfl, rfl, ?_⟩
        intro row hRow hPending hBound hMatches hReverses
        change row ∈ events.rows at hRow
        rw [(Table.insert?_eq_some.mp hInsert).2, List.mem_append, List.mem_singleton] at hRow
        rcases hRow with hOld | rfl
        · exact drained order hStored live row hOld hPending hBound hMatches hReverses
        · obtain rfl : order = paid := Option.some.inj
            ((orderByPayment?_eq_some.mpr ⟨hStored, hBound⟩).symm.trans hPaid)
          exact hForward event hValid ⟨hFresh, hBound, hProvider, hMatches, hReverses⟩
      obtain ⟨later, shielded⟩ := Greedy.loop_invariant
        (fun state => ∃ later, Shielded state order later) (applyEvent_consuming event.paymentId) (by
          rintro state row next progressed ⟨later, shielded⟩ hPending hAttempt
          obtain ⟨hRow, hPayment, hWaits⟩ := mem_pendingEvents.mp hPending
          obtain ⟨current, hCurrent, attempted⟩ := applyEvent_eq_ok.mp hAttempt
          exact shielded.attempt hRow hWaits (hPayment ▸ hCurrent) attempted) ⟨order, hStart⟩ hReconciled
      exact ⟨later, shielded.stored, shielded.live⟩

/-- No event moves an order out of fulfillment, or back before it. -/
theorem ingest_settled (wellFormed : WellFormed p db) {orderId : String} {order : OrderRow}
    (hOrder : db.order? orderId = some order) (hSettled : order.orderStatus ≠ .checkoutPending ∧
      order.orderStatus ≠ .paymentPending) {eventValue : Json} {receivedAt : Option String}
    {utcNow : Int} :
    ∃ later, (db.step p (.ingestProviderEvent eventValue receivedAt utcNow)).order? orderId = some later ∧
      later.orderStatus = order.orderStatus := by
  rw [step_ingest]
  cases hIngest : db.ingestProviderEvent p eventValue receivedAt utcNow with
  | error error => exact ⟨order, hOrder, rfl⟩
  | ok result =>
      obtain ⟨event, instant, hValid, -, hIngested⟩ := ingestProviderEvent_eq_ok.mp hIngest
      rcases ingestEvent_eq_ok.mp hIngested with
        ⟨_, _, -, -, -, hSame, -⟩ | ⟨paid, events, _, -, hPaid, hProvider, hInsert, hReconciled, -⟩
      · exact ⟨order, hSame ▸ hOrder, rfl⟩
      have hArrived : WellFormed p { db with events } :=
        Move.wellFormed wellFormed (.arrived hPaid hProvider (Table.insert?_eq_some.mp hInsert).2)
      refine (Greedy.loop_invariant (fun state => WellFormed p state ∧
        ∃ later, state.order? orderId = some later ∧ later.orderStatus = order.orderStatus)
        (applyEvent_consuming event.paymentId) ?_ ⟨hArrived, order, hOrder, rfl⟩ hReconciled).2
      rintro state row next progressed ⟨hState, later, hLater, hStatus⟩ hPending hAttempt
      obtain ⟨-, hPayment, -⟩ := mem_pendingEvents.mp hPending
      rw [← hPayment] at hAttempt
      obtain ⟨current, hCurrent, attempted⟩ := applyEvent_eq_ok.mp hAttempt
      obtain ⟨hStored, hBound⟩ := orderByPayment?_eq_some.mp hCurrent
      refine ⟨((attempted.moves hCurrent).wellFormed_continues hState).1, ?_⟩
      rcases attempted.order? hStored with hSame | ⟨-, hAdmits, -, hLookup⟩
      · refine ⟨later, ?_, hStatus⟩
        unfold Commerce.order? at hLater ⊢
        rw [hSame, hLater]
      rw [hLookup]
      by_cases hOwn : orderId = current.orderId
      · subst hOwn
        obtain rfl : later = current := Option.some.inj
          (hLater.symm.trans (order?_eq_some.mpr ⟨hStored, rfl⟩))
        refine ⟨_, if_pos rfl, (OrderRow.advance_status row.payload later).2.trans ?_⟩
        cases hTarget : row.payload.type.orderTarget with
        | none => exact hStatus
        | some target =>
            have hWaiting := ((hState.order_regular hStored).paymentPending_of_admits
              (by simp [hBound]) hAdmits (by rw [hTarget]; rfl)).1
            exact absurd (hStatus.symm.trans hWaiting) hSettled.2
      · exact ⟨later, by rw [if_neg hOwn, hLater], hStatus⟩

end Commerce

end VouchSpec
