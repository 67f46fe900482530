import VouchSpec.Commerce.Lifecycle

/-! What the store's operations can do to its tables: every call, whatever its
arguments, is a sequence of the moves below. -/

namespace VouchSpec

namespace Commerce

/-- The columns that every stored quote has. -/
structure Priced (row : QuoteRow) : Prop where
  amount : row.amountMinor = legacyStripeAmountMinor
  currency : row.currency = freshValidationCurrency

/-- One change of the tables. -/
inductive Move (p : Platform) : Commerce → Commerce → Prop where
  | quoted {db : Commerce} {quotes : Table QuoteRow.quoteId Eq} {row : QuoteRow} (hPriced : Priced row)
      (hRows : quotes.rows = db.quotes.rows ++ [row]) : Move p db { db with quotes }
  | opened {db : Commerce} {orders : Table OrderRow.keys OrderKeys.Clash} {order : OrderRow}
      {sourceReference occurredAt : String} (hNew : order.New)
      (hRows : orders.rows = db.orders.rows ++ [order]) :
      Move p db ({ db with orders }.addHistory
        [{ orderId := order.orderId, change := .order none .checkoutPending, sourceReference,
           occurredAt }])
  | affected {db after : Commerce} {orderId : String} {account : Account} {effect : Effect}
      (hAccount : db.account? orderId = some account) (hAllowed : account.Allowed effect)
      (hAffects : db.Affects after orderId effect) (hEvents : after.events = db.events) :
      Move p db after
  | arrived {db : Commerce} {events : Table EventRow.eventId Eq} {event : ProviderEvent}
      {order : OrderRow} {received : String} (hOrder : db.orderByPayment? event.paymentId = some order)
      (hProvider : order.provider = event.provider)
      (hRows : events.rows = db.events.rows ++ [newEvent p event received]) :
      Move p db { db with events }
  | settled {db : Commerce} {eventId : String} {status : EventStatus}
      {appliedAt : EventRow → Option String} :
      Move p db (db.setEvent eventId
        (fun row => { row with status, appliedAt := appliedAt row }) (fun _ => rfl))

/-- Any number of moves. -/
abbrev Moves (p : Platform) : Commerce → Commerce → Prop := Relation.ReflTransGen (Move p)

variable {p : Platform} {db after : Commerce}

theorem account?_of_order {orderId : String} {order : OrderRow} (hOrder : db.order? orderId = some order) :
    ∃ account, db.account? orderId = some account ∧ account.order = order := by
  unfold account?
  rw [hOrder]
  exact ⟨_, rfl, rfl⟩

theorem requireOrder_eq_ok {orderId : String} {order : OrderRow} :
    db.requireOrder orderId = .ok order ↔ db.order? orderId = some order := by
  simp [requireOrder]

theorem updateOrder_eq_ok {orderId : String} {change : OrderRow → OrderRow} {error : Raised} :
    db.updateOrder orderId change error = .ok after ↔
      ∃ orders, orders.rows =
          Table.changed db.orders.rows (fun row => row.orderId = orderId) change ∧
        after = { db with orders } := by
  unfold updateOrder
  simp only [Except.bind_eq_ok_iff, Except.ofOption_eq_ok_iff, Except.pure_eq_ok_iff,
    Table.update?_eq_some]
  constructor
  · rintro ⟨orders, hRows, rfl⟩
    exact ⟨orders, hRows, rfl⟩
  · rintro ⟨orders, hRows, rfl⟩
    exact ⟨orders, hRows, rfl⟩

/-- A new order's columns. -/
theorem newOrder_new {quote : QuoteRow} (hPriced : Priced quote) (provider : Provider)
    (idempotencyKey buyerReference timestamp : String) :
    (db.newOrder p quote provider idempotencyKey buyerReference timestamp).New where
  orderStatus := rfl
  paymentStatus := rfl
  quotedAmount := hPriced.amount
  currency := hPriced.currency
  amounts := ⟨rfl, rfl, rfl⟩
  bindings := ⟨rfl, rfl⟩
  evidence := ⟨rfl, rfl, rfl, rfl⟩
  flags := ⟨rfl, rfl⟩

/-- Every quote built for this store has the price of the Stripe adapter. -/
theorem buildFreshValidationQuote_amount {requestValue : Json} {generatedAt : DateTime}
    {quoteId drawn : String} {quote : Quote}
    (hBuilt : buildFreshValidationQuote p requestValue generatedAt quoteId drawn true = .ok quote) :
    quote.amountMinor = legacyStripeAmountMinor := by
  unfold buildFreshValidationQuote at hBuilt
  simp only [Except.bind_eq_ok_iff, Except.pure_eq_ok_iff] at hBuilt
  obtain ⟨_, -, _, -, _, -, rfl⟩ := hBuilt
  rfl

theorem createQuote_moves {requestValue : Json} {quoteId : String} {generatedAt : DateTime}
    {paymentProvider drawn : String} {liveCheckoutEnabled : Bool} {quote : Quote}
    (hReturns : db.createQuote p requestValue quoteId generatedAt paymentProvider
      liveCheckoutEnabled drawn = .ok (after, quote)) : Moves p db after := by
  unfold createQuote at hReturns
  simp only [Except.bind_eq_ok_iff] at hReturns
  obtain ⟨provider, -, _, -, _, -, request, -, preview, hPreview, hRest⟩ := hReturns
  split at hRest
  · cases hRest
    exact .refl
  split at hRest
  · simp only [Except.bind_eq_ok_iff, Except.pure_eq_ok_iff, Prod.mk.injEq] at hRest
    obtain ⟨_, -, rfl, -⟩ := hRest
    exact .refl
  · simp only [Except.bind_eq_ok_iff, Except.pure_eq_ok_iff, Prod.mk.injEq,
      Except.ofOption_eq_ok_iff, Table.insert?_eq_some] at hRest
    obtain ⟨quotes, ⟨-, hRows⟩, rfl, -⟩ := hRest
    exact .single (.quoted ⟨buildFreshValidationQuote_amount hPreview, rfl⟩ hRows)

theorem createOrder_opens {quoteId idempotencyKey buyerReference : String} {now : DateTime}
    {view : OrderView} (hPriced : ∀ row ∈ db.quotes.rows, Priced row)
    (hReturns : db.createOrder p quoteId idempotencyKey buyerReference now = .ok (after, view)) :
    after = db ∨ ∃ order orders sourceReference occurredAt, order.New ∧
      orders.rows = db.orders.rows ++ [order] ∧
      after = { db with orders }.addHistory
        [{ orderId := order.orderId, change := .order none .checkoutPending, sourceReference,
           occurredAt }] := by
  unfold createOrder at hReturns
  simp only [Except.bind_eq_ok_iff] at hReturns
  obtain ⟨_, -, _, -, _, -, hRest⟩ := hReturns
  split at hRest
  · simp only [Except.bind_eq_ok_iff, Except.pure_eq_ok_iff, Prod.mk.injEq] at hRest
    obtain ⟨_, -, _, -, rfl, -⟩ := hRest
    exact Or.inl rfl
  · simp only [Except.bind_eq_ok_iff, Except.pure_eq_ok_iff, Prod.mk.injEq,
      Except.ofOption_eq_ok_iff, Table.insert?_eq_some] at hRest
    obtain ⟨quote, hQuote, _, -, _, -, _, -, provider, -, _, -, orders, ⟨-, hRows⟩, _, -, rfl, -⟩ :=
      hRest
    have hStored := (quote?_eq_some.mp hQuote).1
    exact Or.inr ⟨_, orders, _, _, newOrder_new (hPriced quote hStored) _ _ _ _, hRows, rfl⟩

theorem createOrder_moves {quoteId idempotencyKey buyerReference : String} {now : DateTime}
    {view : OrderView} (hPriced : ∀ row ∈ db.quotes.rows, Priced row)
    (hReturns : db.createOrder p quoteId idempotencyKey buyerReference now = .ok (after, view)) :
    Moves p db after := by
  rcases createOrder_opens hPriced hReturns with rfl | ⟨order, orders, _, _, hNew, hRows, rfl⟩
  · exact .refl
  · exact .single (.opened hNew hRows)

/-- The operation's effect on a stored order that meets its condition. -/
structure Acts (db after : Commerce) (orderId : String) (condition : OrderRow → Prop)
    (effect : OrderRow → Effect) (order : OrderRow) : Prop where
  stored : db.order? orderId = some order
  condition : condition order
  affects : db.Affects after orderId (effect order)
  events : after.events = db.events

/-- An allowed effect on a stored order is a move. -/
theorem Acts.moves {orderId : String} {condition : OrderRow → Prop} {effect : OrderRow → Effect}
    {order : OrderRow} (acts : Acts db after orderId condition effect order)
    (hAllowed : ∀ account : Account, condition account.order → account.Allowed (effect account.order)) :
    Moves p db after := by
  obtain ⟨account, hAccount, rfl⟩ := account?_of_order acts.stored
  exact .single (.affected hAccount (hAllowed account acts.condition) acts.affects acts.events)

private theorem transition_checkout {status : OrderStatus}
    (hEdge : .paymentPending ∈ orderTransitions status) : status = .checkoutPending := by
  cases status <;> simp_all [orderTransitions]

theorem attachCheckout_acts {orderId checkoutId occurredAt : String} {paymentId : Option String}
    {view : OrderView}
    (hReturns : db.attachCheckout p orderId checkoutId occurredAt paymentId = .ok (after, view)) :
    after = db ∨ ∃ payment order, Acts db after orderId
      (fun order => order.orderStatus = .checkoutPending ∧ order.providerCheckoutId = none)
      (fun order => .checkout order checkoutId payment occurredAt) order := by
  unfold attachCheckout at hReturns
  simp only [Except.bind_eq_ok_iff, requireOrder_eq_ok] at hReturns
  obtain ⟨_, -, order, hOrder, payment, -, hRest⟩ := hReturns
  split at hRest
  · simp only [Except.bind_eq_ok_iff, Except.pure_eq_ok_iff, Prod.mk.injEq] at hRest
    obtain ⟨_, -, _, -, rfl, -⟩ := hRest
    exact Or.inl rfl
  · next hFree =>
      simp only [Except.bind_eq_ok_iff, Except.pure_eq_ok_iff, Prod.mk.injEq,
        requireOrderTransition, require_eq_ok, updateOrder_eq_ok] at hRest
      obtain ⟨_, hEdge, _, ⟨orders, hRows, rfl⟩, _, -, rfl, -⟩ := hRest
      obtain rfl := (order?_eq_some.mp hOrder).2
      refine Or.inr ⟨payment, order, hOrder, ⟨transition_checkout hEdge, hFree⟩, ?_, rfl⟩
      exact ⟨rfl, rfl, hRows, (List.append_nil _).symm, (List.append_nil _).symm, rfl,
        fun _ => rfl, by simp [Effect.checkout]⟩

theorem attachCheckout_moves {orderId checkoutId occurredAt : String} {paymentId : Option String}
    {view : OrderView}
    (hReturns : db.attachCheckout p orderId checkoutId occurredAt paymentId = .ok (after, view)) :
    Moves p db after := by
  rcases attachCheckout_acts hReturns with rfl | ⟨payment, order, acts⟩
  · exact .refl
  · exact acts.moves fun account hFree => .checkout checkoutId payment occurredAt hFree.1 hFree.2

theorem bindProviderPayment_acts {orderId paymentId checkoutId occurredAt : String}
    {view : OrderView}
    (hReturns : db.bindProviderPayment p orderId paymentId checkoutId occurredAt = .ok (after, view)) :
    after = db ∨ ∃ order, Acts db after orderId
      (fun order => order.providerCheckoutId = some checkoutId ∧ order.providerPaymentId = none)
      (fun _ => .binding paymentId occurredAt) order := by
  unfold bindProviderPayment at hReturns
  simp only [Except.bind_eq_ok_iff, requireOrder_eq_ok, require_eq_ok] at hReturns
  obtain ⟨_, -, _, -, order, hOrder, _, ⟨-, hCheckout⟩, hRest⟩ := hReturns
  split at hRest
  · simp only [Except.bind_eq_ok_iff, Except.pure_eq_ok_iff, Prod.mk.injEq] at hRest
    obtain ⟨_, -, _, -, rfl, -⟩ := hRest
    exact Or.inl rfl
  · next hFree =>
      simp only [Except.bind_eq_ok_iff, Except.pure_eq_ok_iff, Prod.mk.injEq,
        updateOrder_eq_ok] at hRest
      obtain ⟨_, ⟨orders, hRows, rfl⟩, _, -, rfl, -⟩ := hRest
      refine Or.inr ⟨order, hOrder, ⟨hCheckout, hFree⟩, ?_, rfl⟩
      exact ⟨rfl, rfl, hRows, (List.append_nil _).symm, (List.append_nil _).symm,
        (List.append_nil _).symm, fun _ => rfl, by simp [Effect.binding]⟩

theorem bindProviderPayment_moves {orderId paymentId checkoutId occurredAt : String}
    {view : OrderView}
    (hReturns : db.bindProviderPayment p orderId paymentId checkoutId occurredAt = .ok (after, view)) :
    Moves p db after := by
  rcases bindProviderPayment_acts hReturns with rfl | ⟨order, acts⟩
  · exact .refl
  · exact acts.moves fun account hBound => .binding paymentId occurredAt (by simp [hBound.1]) hBound.2

/-- The entries and history rows of an event are the order's own. -/
theorem payment_owner (order : OrderRow) (event : ProviderEvent) :
    (∀ row ∈ event.entries order.orderId, row.orderId = order.orderId) ∧
      ∀ row ∈ event.history order, row.orderId = order.orderId := by
  constructor
  · intro row hRow
    unfold ProviderEvent.entries at hRow
    split at hRow <;> simp only [List.mem_cons, List.not_mem_nil, or_false] at hRow
    · rcases hRow with rfl | rfl <;> rfl
    · rw [hRow]
  · intro row hRow
    unfold ProviderEvent.history at hRow
    split at hRow <;> simp only [List.mem_cons, List.not_mem_nil, or_false] at hRow
    · rw [hRow]
    · rcases hRow with rfl | rfl <;> rfl

theorem Attempted.moves {order : OrderRow} {event : ProviderEvent} {progressed : Bool}
    (attempted : Attempted db order event after progressed)
    (hOrder : db.orderByPayment? event.paymentId = some order) : Moves p db after := by
  cases attempted with
  | mismatched => exact .single .settled
  | repeated => exact .single .settled
  | stuck => exact .refl
  | applied hMatches _ hAdmits booked hBooked =>
      obtain ⟨entries, hEntries, rfl⟩ := financialEntries_eq_ok.mp hBooked
      obtain ⟨hStored, hBound⟩ := orderByPayment?_eq_some.mp hOrder
      have hOwner := payment_owner order event
      have acts : Acts db { db.setOrder order.orderId (OrderRow.advance event) (OrderRow.advance_keys event)
            with entries, history := db.history ++ event.history order } order.orderId
          (fun order => order.providerPaymentId = some event.paymentId ∧ order.Matches event ∧
            order.Admits event)
          (fun order => .payment order event) order := by
        refine ⟨order?_eq_some.mpr ⟨hStored, rfl⟩, ⟨hBound, hMatches, hAdmits⟩, ?_, rfl⟩
        exact ⟨rfl, rfl, rfl, hEntries, (List.append_nil _).symm, rfl,
          fun row => congrArg OrderKeys.orderId (OrderRow.advance_keys event row),
          hOwner.1, by simp [Effect.payment], hOwner.2⟩
      refine .trans (acts.moves ?_) (.single .settled)
      rintro account ⟨hPayment, hMatch, hAdmit⟩
      exact .payment event hPayment hMatch hAdmit

theorem reconcilePayment_moves {paymentId : String}
    (hReturns : db.reconcilePayment paymentId = .ok after) : Moves p db after := by
  refine Greedy.loop_invariant (Moves p db) (applyEvent_consuming paymentId) ?_ .refl
    hReturns
  intro state row next progressed hState hPending hAttempt
  obtain ⟨-, rfl, -⟩ := mem_pendingEvents.mp hPending
  obtain ⟨order, hOrder, attempted⟩ := applyEvent_eq_ok.mp hAttempt
  exact hState.trans (attempted.moves hOrder)

/-- What a returning ingestion did: it found the event stored, or stored it
and reconciled its payment. -/
theorem ingestEvent_eq_ok {event : ProviderEvent} {received : String} {result : Ingested} :
    db.ingestEvent p event received = .ok (after, result) ↔
      (∃ stored order, db.event? event.eventId = some stored ∧
        stored.payloadDigest = (p.sha256 event.payload).hexdigest ∧
        db.orderByPayment? event.paymentId = some order ∧ after = db ∧
        db.orderView order.orderId = .ok result.order ∧
        result = ⟨true, event.eventId, stored.status, result.order⟩) ∨
      (∃ order events stored, db.event? event.eventId = none ∧
        db.orderByPayment? event.paymentId = some order ∧ order.provider = event.provider ∧
        db.events.insert? (newEvent p event received) = some events ∧
        { db with events }.reconcilePayment event.paymentId = .ok after ∧
        after.event? event.eventId = some stored ∧
        after.orderView order.orderId = .ok result.order ∧
        result = ⟨false, event.eventId, stored.status, result.order⟩) := by
  unfold ingestEvent
  cases hStored : db.event? event.eventId with
  | some stored =>
      simp only [Except.bind_eq_ok_iff, Except.pure_eq_ok_iff, Prod.mk.injEq, require_eq_ok,
        Except.ofOption_eq_ok_iff, reduceCtorEq, false_and, exists_false, or_false,
        Option.some.injEq]
      constructor
      · rintro ⟨_, hDigest, order, hOrder, view, hView, rfl, rfl⟩
        exact ⟨stored, order, rfl, hDigest, hOrder, rfl, hView, rfl⟩
      · rintro ⟨_, order, rfl, hDigest, hOrder, rfl, hView, hResult⟩
        exact ⟨(), hDigest, order, hOrder, result.order, hView, rfl, hResult.symm⟩
  | none =>
      simp only [Except.bind_eq_ok_iff, Except.pure_eq_ok_iff, Prod.mk.injEq, require_eq_ok,
        Except.ofOption_eq_ok_iff, reduceCtorEq, false_and, exists_false, false_or, true_and]
      constructor
      · rintro ⟨order, hOrder, _, hProvider, events, hInsert, next, hReconciled, stored, hFound,
          view, hView, rfl, rfl⟩
        exact ⟨order, events, stored, hOrder, hProvider, hInsert, hReconciled, hFound, hView, rfl⟩
      · rintro ⟨order, events, stored, hOrder, hProvider, hInsert, hReconciled, hFound, hView,
          hResult⟩
        exact ⟨order, hOrder, (), hProvider, events, hInsert, after, hReconciled, stored, hFound,
          result.order, hView, rfl, hResult.symm⟩

theorem ingestEvent_moves {event : ProviderEvent} {received : String} {result : Ingested}
    (hReturns : db.ingestEvent p event received = .ok (after, result)) : Moves p db after := by
  rcases ingestEvent_eq_ok.mp hReturns with
    ⟨_, _, -, -, -, rfl, -⟩ | ⟨order, events, _, -, hOrder, hProvider, hInsert, hReconciled, -⟩
  · exact .refl
  · have hRows := (Table.insert?_eq_some.mp hInsert).2
    exact .head (.arrived hOrder hProvider hRows) (reconcilePayment_moves hReconciled)

theorem ingestProviderEvent_eq_ok {eventValue : Json} {receivedAt : Option String} {utcNow : Int}
    {result : Commerce × Ingested} :
    db.ingestProviderEvent p eventValue receivedAt utcNow = .ok result ↔
      ∃ event instant, db.validateEvent p eventValue = .ok event ∧
        parseTimestamp p (orElseNow p receivedAt utcNow) = .ok instant ∧
        db.ingestEvent p event (orElseNow p receivedAt utcNow) = .ok result := by
  unfold ingestProviderEvent
  simp only [Except.bind_eq_ok_iff, exists_and_left]

/-- Accepted costs list every category once. -/
theorem directCosts?_categories {costs : List (String × Json)} {amounts : List (DirectCost × Nat)}
    (hAmounts : directCosts? costs = some amounts) : amounts.map Prod.fst = DirectCost.all := by
  unfold directCosts? at hAmounts
  split at hAmounts
  · have hFirst : ∀ (categories : List DirectCost) (found : List (DirectCost × Nat)),
        categories.mapM (fun category => (costAmount? costs category).map (category, ·)) =
          some found → found.map Prod.fst = categories := by
      intro categories
      induction categories with
      | nil =>
          rintro found hFound
          simp only [List.mapM_nil, Option.pure_def, Option.some.injEq] at hFound
          rw [← hFound]
          rfl
      | cons category rest ih =>
          intro found hFound
          simp only [List.mapM_cons, Option.bind_eq_bind, Option.pure_def, Option.bind_eq_some_iff,
            Option.map_eq_some_iff, Option.some.injEq] at hFound
          obtain ⟨_, ⟨amount, -, rfl⟩, tail, hTail, rfl⟩ := hFound
          rw [List.map_cons, ih tail hTail]
    exact hFirst _ _ hAmounts
  · cases hAmounts

theorem recordDirectCosts_acts {orderId : String} {costs : List (String × Json)}
    {idempotencyKey : String} {recordedAt : Option String} {utcNow : Int} {view : OrderView}
    (hReturns : db.recordDirectCosts p orderId costs idempotencyKey recordedAt utcNow =
      .ok (after, view)) :
    after = db ∨ ∃ amounts order, amounts.map Prod.fst = DirectCost.all ∧ Acts db after orderId
      (fun order => order.directCostsRecorded = false)
      (fun order => .costing order idempotencyKey (orElseNow p recordedAt utcNow) amounts) order := by
  unfold recordDirectCosts at hReturns
  simp only [Except.bind_eq_ok_iff, requireOrder_eq_ok, Except.ofOption_eq_ok_iff] at hReturns
  obtain ⟨amounts, hAmounts, _, -, _, -, order, hOrder, hRest⟩ := hReturns
  split at hRest
  · simp only [Except.bind_eq_ok_iff, Except.pure_eq_ok_iff, Prod.mk.injEq] at hRest
    obtain ⟨_, -, _, -, rfl, -⟩ := hRest
    exact Or.inl rfl
  · simp only [Except.bind_eq_ok_iff, Except.pure_eq_ok_iff, Prod.mk.injEq, require_eq_ok,
      Except.ofOption_eq_ok_iff, Table.insert?_eq_some, financialEntries_eq_ok] at hRest
    obtain ⟨_, hOpen, costRecords, ⟨-, hCosts⟩, _, ⟨entries, hEntries, rfl⟩, _, -, rfl, -⟩ := hRest
    obtain rfl := (order?_eq_some.mp hOrder).2
    refine Or.inr ⟨amounts, order, directCosts?_categories hAmounts, hOrder, hOpen, ?_, rfl⟩
    refine ⟨rfl, rfl, rfl, hEntries, hCosts, (List.append_nil _).symm, fun _ => rfl, ?_, ?_, ?_⟩
    · intro row hRow
      obtain ⟨_, -, rfl⟩ := List.mem_map.mp hRow
      rfl
    · simp [Effect.costing]
    · simp [Effect.costing]

theorem transitionOrder_acts {orderId : String} {target : OrderStatus}
    {sourceReference occurredAt : String} {deliveryStatus : DeliveryStatus} {view : OrderView}
    (hReturns : db.transitionOrder p orderId target sourceReference occurredAt deliveryStatus =
      .ok (after, view)) :
    (after = db ∧ ∃ order, db.order? orderId = some order ∧ order.orderStatus = target) ∨
      ∃ order, Acts db after orderId (fun order => target ∈ orderTransitions order.orderStatus)
        (fun order => .fulfillment order target deliveryStatus sourceReference occurredAt) order := by
  unfold transitionOrder at hReturns
  simp only [Except.bind_eq_ok_iff, requireOrder_eq_ok] at hReturns
  obtain ⟨_, -, order, hOrder, hRest⟩ := hReturns
  split at hRest
  · next hStatus =>
      simp only [Except.bind_eq_ok_iff, Except.pure_eq_ok_iff, Prod.mk.injEq] at hRest
      obtain ⟨_, -, rfl, -⟩ := hRest
      exact Or.inl ⟨rfl, order, hOrder, hStatus⟩
  · simp only [Except.bind_eq_ok_iff, Except.pure_eq_ok_iff, Prod.mk.injEq,
      requireOrderTransition, require_eq_ok] at hRest
    obtain ⟨_, hEdge, _, -, rfl, -⟩ := hRest
    obtain rfl := (order?_eq_some.mp hOrder).2
    refine Or.inr ⟨order, hOrder, hEdge, ?_, rfl⟩
    exact ⟨rfl, rfl, rfl, (List.append_nil _).symm, (List.append_nil _).symm, rfl,
      fun _ => rfl, by simp [Effect.fulfillment]⟩

theorem deliver_acts {orderId : String} {evidence : Evidence} {sourceReference occurredAt : String}
    {view : OrderView}
    (hReturns : db.deliver p orderId evidence sourceReference occurredAt = .ok (after, view)) :
    (after = db ∧ ∃ order, db.order? orderId = some order ∧ order.orderStatus = .delivered) ∨
      ∃ order, Acts db after orderId
        (fun order => order.directCostsRecorded = true ∧ .delivered ∈ orderTransitions order.orderStatus)
        (fun order => .delivery order evidence sourceReference occurredAt) order := by
  unfold deliver at hReturns
  simp only [Except.bind_eq_ok_iff, requireOrder_eq_ok, require_eq_ok] at hReturns
  obtain ⟨_, -, _, -, _, -, _, -, _, -, order, hOrder, _, hCosts, hRest⟩ := hReturns
  split at hRest
  · next hStatus =>
      simp only [Except.bind_eq_ok_iff, Except.pure_eq_ok_iff, Prod.mk.injEq] at hRest
      obtain ⟨_, -, _, -, rfl, -⟩ := hRest
      exact Or.inl ⟨rfl, order, hOrder, hStatus⟩
  · simp only [Except.bind_eq_ok_iff, Except.pure_eq_ok_iff, Prod.mk.injEq,
      requireOrderTransition, require_eq_ok, updateOrder_eq_ok] at hRest
    obtain ⟨_, hEdge, _, ⟨orders, hRows, rfl⟩, _, -, rfl, -⟩ := hRest
    obtain rfl := (order?_eq_some.mp hOrder).2
    refine Or.inr ⟨order, hOrder, ⟨hCosts, hEdge⟩, ?_, rfl⟩
    exact ⟨rfl, rfl, hRows, (List.append_nil _).symm, (List.append_nil _).symm, rfl,
      fun _ => rfl, by simp [Effect.delivery]⟩

private theorem transitionOrder_moves {orderId : String} {target : OrderStatus}
    {sourceReference occurredAt : String} {deliveryStatus : DeliveryStatus} {view : OrderView}
    (hTarget : target = .running ∨ target = .fulfillmentFailed)
    (hReturns : db.transitionOrder p orderId target sourceReference occurredAt deliveryStatus =
      .ok (after, view)) : Moves p db after := by
  rcases transitionOrder_acts hReturns with ⟨rfl, -⟩ | ⟨order, acts⟩
  · exact .refl
  · exact acts.moves fun account hEdge =>
      .fulfillment target deliveryStatus sourceReference occurredAt hTarget hEdge

/-- Every call is a sequence of moves. -/
theorem step_moves (hPriced : ∀ row ∈ db.quotes.rows, Priced row) (call : Call) :
    Moves p db (db.step p call) := by
  unfold step
  split
  · next next hCommitted =>
      cases call <;> simp only [committed, Except.map_eq_ok_iff, Prod.exists] at hCommitted
      all_goals obtain ⟨next, view, hReturns, rfl⟩ := hCommitted
      case createQuote => exact createQuote_moves hReturns
      case createOrder => exact createOrder_moves hPriced hReturns
      case attachCheckout => exact attachCheckout_moves hReturns
      case bindProviderPayment => exact bindProviderPayment_moves hReturns
      case ingestProviderEvent =>
        obtain ⟨event, _, -, -, hIngested⟩ := ingestProviderEvent_eq_ok.mp hReturns
        exact ingestEvent_moves hIngested
      case recordDirectCosts =>
        rcases recordDirectCosts_acts hReturns with rfl | ⟨amounts, order, hAmounts, acts⟩
        · exact .refl
        · exact acts.moves fun account hOpen => .costing _ _ amounts hAmounts hOpen
      case beginFulfillment => exact transitionOrder_moves (Or.inl rfl) hReturns
      case deliver =>
        rcases deliver_acts hReturns with ⟨rfl, -⟩ | ⟨order, acts⟩
        · exact .refl
        · exact acts.moves fun account hReady => .delivery _ _ _ hReady.1 hReady.2
      case failFulfillment => exact transitionOrder_moves (Or.inr rfl) hReturns
  · exact .refl

end Commerce

end VouchSpec
