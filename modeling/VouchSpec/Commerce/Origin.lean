import VouchSpec.Commerce.Moves

/-! Where orders come from: the columns that the creation of an order and its
checkout write. No other operation changes them, or adds a quote or an order. -/

namespace VouchSpec

/-- The columns of an order that its creation and its checkout write. -/
structure Origin where
  orderId : String
  quoteId : String
  idempotencyKey : String
  buyerReference : String
  checkoutId : Option String := none
  paymentId : Option String := none

def OrderRow.origin (order : OrderRow) : Origin where
  orderId := order.orderId
  quoteId := order.quoteId
  idempotencyKey := order.idempotencyKey
  buyerReference := order.buyerReference
  checkoutId := order.providerCheckoutId
  paymentId := order.providerPaymentId

theorem OrderRow.advance_origin (event : ProviderEvent) (order : OrderRow) :
    (order.advance event).origin = order.origin := by
  unfold OrderRow.advance
  split <;> rfl

/-- The order with its checkout. -/
def OrderRow.attached (checkoutId : String) (payment : Option String) (occurredAt : String)
    (order : OrderRow) : OrderRow :=
  { order with providerCheckoutId := some checkoutId, providerPaymentId := payment,
               orderStatus := .paymentPending, updatedAt := occurredAt }

theorem OrderKeys.Clash.symm {left right : OrderKeys} (hClash : left.Clash right) : right.Clash left := by
  have hSymm : ∀ {first second}, sameValue first second → sameValue second first := by
    rintro first second ⟨hSome, rfl⟩
    exact ⟨hSome, rfl⟩
  rcases hClash with h | h | h | h | h | h
  · exact Or.inl h.symm
  · exact Or.inr (Or.inl h.symm)
  · exact Or.inr (Or.inr (Or.inl h.symm))
  · exact Or.inr (Or.inr (Or.inr (Or.inl (hSymm h))))
  · exact Or.inr (Or.inr (Or.inr (Or.inr (Or.inl (hSymm h)))))
  · exact Or.inr (Or.inr (Or.inr (Or.inr (Or.inr (hSymm h)))))

namespace Commerce

variable {p : Platform} {db after : Commerce}

/-- The same quotes, and orders of the same origins. -/
structure SameOrigins (db after : Commerce) : Prop where
  environment : after.environment = db.environment
  quotes : after.quotes = db.quotes
  orders : after.orders.rows.map OrderRow.origin = db.orders.rows.map OrderRow.origin

theorem SameOrigins.refl (db : Commerce) : SameOrigins db db := ⟨rfl, rfl, rfl⟩

theorem SameOrigins.trans {first second third : Commerce} (left : SameOrigins first second)
    (right : SameOrigins second third) : SameOrigins first third :=
  ⟨right.environment.trans left.environment, right.quotes.trans left.quotes,
    right.orders.trans left.orders⟩

/-- Every order has the origin of an earlier one. -/
theorem SameOrigins.mem (same : SameOrigins db after) {order : OrderRow}
    (hOrder : order ∈ after.orders.rows) : ∃ old ∈ db.orders.rows, old.origin = order.origin := by
  have hOrigin : order.origin ∈ after.orders.rows.map OrderRow.origin :=
    List.mem_map_of_mem hOrder
  rw [same.orders] at hOrigin
  exact List.mem_map.mp hOrigin

private theorem map_changed {rows : List OrderRow} {selected : OrderRow → Bool}
    {change : OrderRow → OrderRow} (hKeeps : ∀ row, (change row).origin = row.origin) :
    (Table.changed rows selected change).map OrderRow.origin = rows.map OrderRow.origin := by
  unfold Table.changed
  rw [List.map_map]
  apply List.map_congr_left
  intro row _
  simp only [Function.comp_apply]
  split
  · exact hKeeps row
  · rfl

/-- An effect that keeps the origins. -/
theorem Affects.sameOrigins {orderId : String} {effect : Effect} (affects : Affects db after orderId effect)
    (hKeeps : ∀ row, (effect.change row).origin = row.origin) : SameOrigins db after :=
  ⟨affects.environment, affects.quotes, by rw [affects.orders, map_changed hKeeps]⟩

theorem Attempted.sameOrigins {order : OrderRow} {event : ProviderEvent} {progressed : Bool}
    (attempted : Attempted db order event after progressed) : SameOrigins db after := by
  cases attempted with
  | mismatched => exact ⟨rfl, rfl, rfl⟩
  | repeated => exact ⟨rfl, rfl, rfl⟩
  | stuck => exact .refl db
  | applied _ _ _ booked hBooked =>
      obtain ⟨entries, -, rfl⟩ := financialEntries_eq_ok.mp hBooked
      exact ⟨rfl, rfl, map_changed (OrderRow.advance_origin event)⟩

theorem reconcilePayment_sameOrigins {paymentId : String}
    (hReturns : db.reconcilePayment paymentId = .ok after) : SameOrigins db after := by
  refine Greedy.loop_invariant (SameOrigins db) (applyEvent_consuming paymentId) ?_ (.refl db) hReturns
  intro state row next progressed hState _ hAttempt
  obtain ⟨_, -, attempted⟩ := applyEvent_eq_ok.mp hAttempt
  exact hState.trans attempted.sameOrigins

theorem ingestProviderEvent_sameOrigins {eventValue : Json} {receivedAt : Option String} {utcNow : Int}
    {result : Ingested}
    (hReturns : db.ingestProviderEvent p eventValue receivedAt utcNow = .ok (after, result)) :
    SameOrigins db after := by
  obtain ⟨event, _, -, -, hIngested⟩ := ingestProviderEvent_eq_ok.mp hReturns
  rcases ingestEvent_eq_ok.mp hIngested with
    ⟨_, _, -, -, -, rfl, -⟩ | ⟨_, events, _, -, -, -, -, hReconciled, -⟩
  · exact .refl _
  · have same := reconcilePayment_sameOrigins hReconciled
    exact ⟨same.environment, same.quotes, same.orders⟩

theorem recordDirectCosts_sameOrigins {orderId : String} {costs : List (String × Json)}
    {idempotencyKey : String} {recordedAt : Option String} {utcNow : Int} {view : OrderView}
    (hReturns : db.recordDirectCosts p orderId costs idempotencyKey recordedAt utcNow =
      .ok (after, view)) : SameOrigins db after := by
  rcases recordDirectCosts_acts hReturns with rfl | ⟨_, _, -, acts⟩
  · exact .refl _
  · exact acts.affects.sameOrigins fun _ => rfl

theorem transitionOrder_sameOrigins {orderId : String} {target : OrderStatus}
    {sourceReference occurredAt : String} {deliveryStatus : DeliveryStatus} {view : OrderView}
    (hReturns : db.transitionOrder p orderId target sourceReference occurredAt deliveryStatus =
      .ok (after, view)) : SameOrigins db after := by
  rcases transitionOrder_acts hReturns with ⟨rfl, -⟩ | ⟨_, acts⟩
  · exact .refl _
  · exact acts.affects.sameOrigins fun _ => rfl

theorem deliver_sameOrigins {orderId : String} {evidence : Evidence} {sourceReference occurredAt : String}
    {view : OrderView}
    (hReturns : db.deliver p orderId evidence sourceReference occurredAt = .ok (after, view)) :
    SameOrigins db after := by
  rcases deliver_acts hReturns with ⟨rfl, -⟩ | ⟨_, acts⟩
  · exact .refl _
  · exact acts.affects.sameOrigins fun _ => rfl

/-- A quote is created under the identifier that it was given. -/
theorem createQuote_origin {requestValue : Json} {quoteId : String} {generatedAt : DateTime}
    {paymentProvider drawn : String} {liveCheckoutEnabled : Bool} {quote : Quote}
    (hReturns : db.createQuote p requestValue quoteId generatedAt paymentProvider liveCheckoutEnabled
      drawn = .ok (after, quote)) :
    after = db ∨ ∃ row quotes, db.quotes.insert? row = some quotes ∧ row.quoteId = quoteId ∧
      after = { db with quotes } := by
  unfold createQuote at hReturns
  simp only [Except.bind_eq_ok_iff] at hReturns
  obtain ⟨_, -, _, -, _, -, _, -, preview, -, hRest⟩ := hReturns
  split at hRest
  · cases hRest
    exact Or.inl rfl
  split at hRest
  · simp only [Except.bind_eq_ok_iff, Except.pure_eq_ok_iff, Prod.mk.injEq] at hRest
    obtain ⟨_, -, rfl, -⟩ := hRest
    exact Or.inl rfl
  · simp only [Except.bind_eq_ok_iff, Except.pure_eq_ok_iff, Prod.mk.injEq,
      Except.ofOption_eq_ok_iff] at hRest
    obtain ⟨quotes, hInsert, rfl, -⟩ := hRest
    exact Or.inr ⟨_, quotes, hInsert, rfl, rfl⟩

/-- The origin of a new order. -/
def newOrigin (p : Platform) (db : Commerce) (quoteId idempotencyKey buyerReference : String) : Origin where
  orderId := db.orderIdFor p quoteId idempotencyKey buyerReference
  quoteId := quoteId
  idempotencyKey := idempotencyKey
  buyerReference := buyerReference

/-- An order is created for the quote, key and buyer that it was given. -/
theorem createOrder_origin {quoteId idempotencyKey buyerReference : String} {now : DateTime}
    {view : OrderView}
    (hReturns : db.createOrder p quoteId idempotencyKey buyerReference now = .ok (after, view)) :
    after = db ∨ ∃ order orders row, db.orders.insert? order = some orders ∧
      order.origin = newOrigin p db quoteId idempotencyKey buyerReference ∧
      row.orderId = order.orderId ∧ after = { db with orders }.addHistory [row] := by
  unfold createOrder at hReturns
  simp only [Except.bind_eq_ok_iff] at hReturns
  obtain ⟨_, -, _, -, _, -, hRest⟩ := hReturns
  split at hRest
  · simp only [Except.bind_eq_ok_iff, Except.pure_eq_ok_iff, Prod.mk.injEq] at hRest
    obtain ⟨_, -, _, -, rfl, -⟩ := hRest
    exact Or.inl rfl
  · simp only [Except.bind_eq_ok_iff, Except.pure_eq_ok_iff, Prod.mk.injEq,
      Except.ofOption_eq_ok_iff] at hRest
    obtain ⟨quote, hQuote, _, -, _, -, _, -, provider, -, _, -, orders, hInsert, _, -, rfl, -⟩ := hRest
    obtain ⟨-, rfl⟩ := quote?_eq_some.mp hQuote
    exact Or.inr ⟨_, orders, _, hInsert, rfl, rfl, rfl⟩

/-- What an attached checkout writes. -/
theorem attachCheckout_origin {orderId checkoutId occurredAt : String} {paymentId : Option String}
    {view : OrderView}
    (hReturns : db.attachCheckout p orderId checkoutId occurredAt paymentId = .ok (after, view)) :
    after = db ∨ ∃ orders row payment, orders.rows = Table.changed db.orders.rows
        (fun row => row.orderId = orderId) (OrderRow.attached checkoutId payment occurredAt) ∧
      (payment = some checkoutId ∨ payment = paymentId) ∧ row.orderId = orderId ∧
      after = { db with orders }.addHistory [row] := by
  unfold attachCheckout at hReturns
  simp only [Except.bind_eq_ok_iff, requireOrder_eq_ok] at hReturns
  obtain ⟨_, -, order, -, payment, hPayment, hRest⟩ := hReturns
  split at hRest
  · simp only [Except.bind_eq_ok_iff, Except.pure_eq_ok_iff, Prod.mk.injEq] at hRest
    obtain ⟨_, -, _, -, rfl, -⟩ := hRest
    exact Or.inl rfl
  · simp only [Except.bind_eq_ok_iff, Except.pure_eq_ok_iff, Prod.mk.injEq, updateOrder_eq_ok] at hRest
    obtain ⟨_, -, _, ⟨orders, hRows, rfl⟩, _, -, rfl, -⟩ := hRest
    refine Or.inr ⟨orders, _, payment, hRows, ?_, rfl, rfl⟩
    unfold checkoutPayment at hPayment
    split at hPayment <;> simp only [Except.bind_eq_ok_iff, Except.pure_eq_ok_iff] at hPayment
    · obtain ⟨_, -, rfl⟩ := hPayment
      exact Or.inl rfl
    · obtain ⟨_, -, _, -, rfl⟩ := hPayment
      exact Or.inr rfl

end Commerce

end VouchSpec
