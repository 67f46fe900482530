import VouchSpec.Commerce.Evolution

/-! Calls made again. An operation that finds what it would write returns the
stored order and changes nothing, in every later state of the run. -/

namespace VouchSpec

/-- The columns of an order that its view repeats. -/
structure OrderView.Shows (view : OrderView) (order : OrderRow) : Prop where
  orderId : view.orderId = order.orderId
  quoteId : view.quoteId = order.quoteId
  buyerReference : view.buyerReference = order.buyerReference
  provider : view.provider = order.provider
  providerCheckoutId : view.providerCheckoutId = order.providerCheckoutId
  providerPaymentId : view.providerPaymentId = order.providerPaymentId
  orderStatus : view.orderStatus = order.orderStatus
  paymentStatus : view.paymentStatus = order.paymentStatus
  quotedAmountMinor : view.quotedAmountMinor = order.quotedAmountMinor
  collectedAmountMinor : view.collectedAmountMinor = order.collectedAmountMinor
  currency : view.currency = order.currency
  receiptId : view.receiptId = order.receiptId
  receiptSha256 : view.receiptSha256 = order.receiptSha256
  envelopeSha256 : view.envelopeSha256 = order.envelopeSha256
  signingKeyid : view.signingKeyid = order.signingKeyid

namespace Commerce

variable {p : Platform} {db after : Commerce}

/-- A view is of a stored order. -/
theorem orderView_shows {orderId : String} {view : OrderView}
    (hView : db.orderView orderId = .ok view) :
    ∃ order, db.order? orderId = some order ∧ view.Shows order := by
  unfold orderView at hView
  simp only [Except.bind_eq_ok_iff, Except.pure_eq_ok_iff, requireOrder_eq_ok] at hView
  obtain ⟨order, hOrder, rfl⟩ := hView
  exact ⟨order, hOrder, rfl, rfl, rfl, rfl, rfl, rfl, rfl, rfl, rfl, rfl, rfl, rfl, rfl, rfl, rfl⟩

/-- A stored order has a view. -/
theorem orderView_returns {orderId : String} {order : OrderRow}
    (hOrder : db.order? orderId = some order) :
    ∃ view, db.orderView orderId = .ok view ∧ view.Shows order := by
  have hView : ∃ view, db.orderView orderId = .ok view := by
    unfold orderView
    rw [requireOrder_eq_ok.mpr hOrder]
    exact ⟨_, rfl⟩
  obtain ⟨view, hView⟩ := hView
  obtain ⟨found, hFound, shows⟩ := orderView_shows hView
  obtain rfl : order = found := Option.some.inj (hOrder.symm.trans hFound)
  exact ⟨view, hView, shows⟩

theorem getOrder_eq_orderView (orderId : String) : db.getOrder orderId = db.orderView orderId := by
  unfold getOrder orderView
  cases db.requireOrder orderId <;> rfl

theorem getQuote_eq_ok {quoteId : String} {quote : Quote} :
    db.getQuote quoteId = .ok quote ↔
      ∃ row, db.quote? quoteId = some row ∧ row.environment = db.environment ∧ row.quote = quote := by
  unfold getQuote
  simp only [Except.bind_eq_ok_iff, Except.pure_eq_ok_iff, Except.ofOption_eq_ok_iff]
  refine exists_congr fun row => ?_
  rw [Table.find?_eq_some, quote?_eq_some]
  · simp only [decide_eq_true_eq]
    constructor
    · rintro ⟨⟨hRow, hId, hEnvironment⟩, hQuote⟩
      exact ⟨⟨hRow, hId⟩, hEnvironment, hQuote⟩
    · rintro ⟨⟨hRow, hId⟩, hEnvironment, hQuote⟩
      exact ⟨⟨hRow, hId, hEnvironment⟩, hQuote⟩
  · intro first second hFirst hSecond
    simp only [decide_eq_true_eq] at hFirst hSecond
    rw [hFirst.1, hSecond.1]

/-- A quote is read alike in every later state. -/
theorem Continues.getQuote (continues : Continues db after) {quoteId : String} {quote : Quote}
    (hQuote : db.getQuote quoteId = .ok quote) : after.getQuote quoteId = .ok quote := by
  obtain ⟨row, hRow, hEnvironment, rfl⟩ := getQuote_eq_ok.mp hQuote
  exact getQuote_eq_ok.mpr
    ⟨row, continues.quotes hRow, hEnvironment.trans continues.environment.symm, rfl⟩

theorem parseTimestamp_timestamp (p : Platform) (instant : Int) :
    parseTimestamp p (p.timestamp instant) = .ok (instant / 1000000 * 1000000) :=
  p.parseTimestampAs_timestamp _ _ instant

/-- A formatted time is not empty. -/
theorem orElseNow_timestamp (p : Platform) (instant utcNow : Int) :
    orElseNow p (some (p.timestamp instant)) utcNow = p.timestamp instant := by
  have hChars : (p.timestamp instant).toList = (p.isoformat (instant / 1000000)).toList ++ ['Z'] := by
    rw [Platform.timestamp, String.toList_append]
    rfl
  unfold orElseNow
  apply if_neg
  intro hEmpty
  rw [hEmpty] at hChars
  simp at hChars

/-- Validation only reads the environment of the store. -/
theorem validateEvent_congr {start : Commerce} (hEnvironment : db.environment = start.environment)
    (value : Json) : db.validateEvent p value = start.validateEvent p value := by
  unfold validateEvent
  rw [hEnvironment]

/-- The ledger holds the event's identifier with the digest of its content. -/
def Recorded (p : Platform) (db : Commerce) (event : ProviderEvent) : Prop :=
  ∃ row, db.event? event.eventId = some row ∧
    row.payloadDigest = (p.sha256 event.payload).hexdigest

theorem Recorded.continues {event : ProviderEvent} (recorded : Recorded p db event)
    (continues : Continues db after) : Recorded p after event := by
  obtain ⟨row, hRow, hDigest⟩ := recorded
  obtain ⟨later, hLater, -, hSame, -⟩ := continues.events hRow
  exact ⟨later, hLater, hSame.trans hDigest⟩

/-- One identifier has one content digest. -/
theorem Recorded.digest_eq {first second : ProviderEvent} (hFirst : Recorded p db first)
    (hSecond : Recorded p db second) (hId : first.eventId = second.eventId) :
    (p.sha256 first.payload).hexdigest = (p.sha256 second.payload).hexdigest := by
  obtain ⟨row, hRow, hDigest⟩ := hFirst
  obtain ⟨other, hOther, hOtherDigest⟩ := hSecond
  rw [hId, hOther] at hRow
  cases hRow
  rw [← hDigest, hOtherDigest]

/-- The order of a payment in a later state, found by either key. -/
theorem Continues.bound (continues : Continues db after) (wellFormed : WellFormed p db)
    {paymentId : String} {order : OrderRow} (hOrder : db.orderByPayment? paymentId = some order) :
    ∃ later, after.orderByPayment? paymentId = some later ∧
      after.order? order.orderId = some later ∧ order.Keeps later := by
  obtain ⟨hStored, hBound⟩ := orderByPayment?_eq_some.mp hOrder
  obtain ⟨later, hLater, hStill, keeps⟩ := continues.orderByPayment wellFormed hStored hBound
  exact ⟨later, orderByPayment?_eq_some.mpr ⟨hLater, hStill⟩,
    order?_eq_some.mpr ⟨hLater, keeps.orderId⟩, keeps⟩

/-- A returning ingestion leaves its event recorded and shows its order. -/
theorem WellFormed.ingestEvent_recorded (wellFormed : WellFormed p db) {event : ProviderEvent}
    {received : String} {result : Ingested}
    (hReturns : db.ingestEvent p event received = .ok (after, result)) :
    Recorded p after event ∧
      ∃ order, after.orderByPayment? event.paymentId = some order ∧ result.order.Shows order := by
  have hShown : ∀ {order : OrderRow}, db.orderByPayment? event.paymentId = some order →
      after.orderView order.orderId = .ok result.order →
      ∃ order, after.orderByPayment? event.paymentId = some order ∧ result.order.Shows order := by
    intro order hOrder hView
    have continues := ((ingestEvent_moves hReturns).wellFormed_continues wellFormed).2
    obtain ⟨later, hLater, hById, -⟩ := continues.bound wellFormed hOrder
    obtain ⟨shown, hShown, shows⟩ := orderView_shows hView
    obtain rfl : shown = later := Option.some.inj (hShown.symm.trans hById)
    exact ⟨shown, hLater, shows⟩
  rcases ingestEvent_eq_ok.mp hReturns with
    ⟨stored, order, hStored, hDigest, hOrder, rfl, hView, -⟩ |
    ⟨order, events, stored, -, hOrder, hProvider, hInsert, hReconciled, -, hView, -⟩
  · exact ⟨⟨stored, hStored, hDigest⟩, hShown hOrder hView⟩
  · refine ⟨?_, hShown hOrder hView⟩
    have hRows := (Table.insert?_eq_some.mp hInsert).2
    have hArrived : WellFormed p { db with events } :=
      Move.wellFormed wellFormed (.arrived hOrder hProvider hRows)
    have hRecorded : Recorded p { db with events } event :=
      ⟨newEvent p event received, event?_eq_some.mpr ⟨by rw [hRows]; simp, rfl⟩, rfl⟩
    exact hRecorded.continues ((reconcilePayment_moves hReconciled).wellFormed_continues hArrived).2

/-- A recorded event is not applied again, whenever it is said to be received. -/
theorem ingestEvent_replay {event : ProviderEvent} {order : OrderRow}
    (recorded : Recorded p db event) (hOrder : db.orderByPayment? event.paymentId = some order)
    (received : String) :
    ∃ result, db.ingestEvent p event received = .ok (db, result) ∧ result.order.Shows order := by
  obtain ⟨row, hRow, hDigest⟩ := recorded
  obtain ⟨view, hView, shows⟩ :=
    orderView_returns (order?_eq_some.mpr ⟨(orderByPayment?_eq_some.mp hOrder).1, rfl⟩)
  exact ⟨⟨true, event.eventId, row.status, view⟩,
    ingestEvent_eq_ok.mpr (Or.inl ⟨row, order, hRow, hDigest, hOrder, rfl, hView, rfl⟩), shows⟩

/-- A returning binding leaves the payment bound to the order of its checkout. -/
theorem bindProviderPayment_bound {orderId paymentId checkoutId occurredAt : String}
    {view : OrderView}
    (hReturns : db.bindProviderPayment p orderId paymentId checkoutId occurredAt = .ok (after, view)) :
    Pattern.stripePaymentId paymentId = true ∧
      ∃ order, after.order? orderId = some order ∧ view.Shows order ∧ order.provider = .stripe ∧
        order.providerCheckoutId = some checkoutId ∧ order.providerPaymentId = some paymentId := by
  unfold bindProviderPayment at hReturns
  simp only [Except.bind_eq_ok_iff, requireOrder_eq_ok, require_eq_ok] at hReturns
  obtain ⟨_, hPattern, _, -, order, hOrder, _, ⟨hProvider, hCheckout⟩, hRest⟩ := hReturns
  refine ⟨hPattern, ?_⟩
  split at hRest
  · next bound hBound =>
      simp only [Except.bind_eq_ok_iff, Except.pure_eq_ok_iff, Prod.mk.injEq, require_eq_ok] at hRest
      obtain ⟨_, hSame, _, hView, rfl, rfl⟩ := hRest
      obtain ⟨shown, hShown, shows⟩ := orderView_shows hView
      obtain rfl : order = shown := Option.some.inj (hOrder.symm.trans hShown)
      exact ⟨order, hOrder, shows, hProvider, hCheckout, by rw [hBound, hSame]⟩
  · simp only [Except.bind_eq_ok_iff, Except.pure_eq_ok_iff, Prod.mk.injEq,
      updateOrder_eq_ok] at hRest
    obtain ⟨_, ⟨orders, hRows, rfl⟩, _, hView, rfl, rfl⟩ := hRest
    obtain ⟨shown, hShown, shows⟩ := orderView_shows hView
    refine ⟨shown, hShown, shows, ?_⟩
    obtain ⟨hStored, rfl⟩ := order?_eq_some.mp hOrder
    obtain ⟨hMember, hId⟩ := order?_eq_some.mp hShown
    change shown ∈ orders.rows at hMember
    rw [hRows, Table.mem_changed] at hMember
    rcases hMember with ⟨old, hOld, hOldId, rfl⟩ | ⟨-, hOther⟩
    · obtain rfl := order_eq_of_orderId hOld hStored (of_decide_eq_true hOldId)
      exact ⟨hProvider, hCheckout, rfl⟩
    · exact absurd (decide_eq_true hId) hOther

/-- A payment that is already bound is not bound again. -/
theorem bindProviderPayment_replay {orderId paymentId checkoutId occurredAt : String}
    {order : OrderRow} {moment : Int} (hPattern : Pattern.stripePaymentId paymentId = true)
    (hMoment : parseTimestamp p occurredAt = .ok moment) (hOrder : db.order? orderId = some order)
    (hProvider : order.provider = .stripe) (hCheckout : order.providerCheckoutId = some checkoutId)
    (hPayment : order.providerPaymentId = some paymentId) :
    ∃ view, db.bindProviderPayment p orderId paymentId checkoutId occurredAt = .ok (db, view) ∧
      view.Shows order := by
  obtain ⟨view, hView, shows⟩ := orderView_returns hOrder
  refine ⟨view, ?_, shows⟩
  unfold bindProviderPayment
  simp only [Except.bind_eq_ok_iff, requireOrder_eq_ok, require_eq_ok]
  refine ⟨(), hPattern, moment, hMoment, order, hOrder, (), ⟨hProvider, hCheckout⟩, ?_⟩
  rw [hPayment]
  simp [require_of, hView, bind, Except.bind, pure, Except.pure]

end Commerce

end VouchSpec
