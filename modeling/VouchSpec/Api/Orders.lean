import VouchSpec.Api.Quotes

/-! A repeated `POST /v1/commerce/orders` of an API with the sandbox provider.
Each operation on the way finds what the first request has stored. -/

namespace VouchSpec

open Access

namespace Commerce

variable {p : Platform} {db after : Commerce}

/-- What a returning creation of an order leaves behind. -/
theorem createOrder_stores {quoteId idempotencyKey buyerReference : String} {now : DateTime}
    {view : OrderView}
    (hReturns : db.createOrder p quoteId idempotencyKey buyerReference now = .ok (after, view)) :
    Pattern.idempotency idempotencyKey = true ∧ Pattern.buyer buyerReference = true ∧
      ∃ order, after.order? view.orderId = some order ∧ order.quoteId = quoteId ∧
        order.idempotencyKey = idempotencyKey ∧ order.buyerReference = buyerReference := by
  unfold createOrder at hReturns
  simp only [Except.bind_eq_ok_iff, require_eq_ok] at hReturns
  obtain ⟨_, hKey, _, hBuyer, _, -, hRest⟩ := hReturns
  refine ⟨hKey, hBuyer, ?_⟩
  split at hRest
  · next existing hExisting =>
      simp only [Except.bind_eq_ok_iff, Except.pure_eq_ok_iff, Prod.mk.injEq, require_eq_ok] at hRest
      obtain ⟨_, ⟨hQuote, hReference⟩, _, hView, rfl, rfl⟩ := hRest
      obtain ⟨shown, hShown, shows⟩ := orderView_shows hView
      obtain ⟨hStored, hSame⟩ := orderByIdempotencyKey?_eq_some.mp hExisting
      obtain rfl : existing = shown :=
        Option.some.inj ((order?_eq_some.mpr ⟨hStored, rfl⟩).symm.trans hShown)
      exact ⟨existing, shows.orderId ▸ hShown, hQuote, hSame, hReference⟩
  · simp only [Except.bind_eq_ok_iff, Except.pure_eq_ok_iff, Prod.mk.injEq, require_eq_ok,
      Except.ofOption_eq_ok_iff] at hRest
    obtain ⟨quote, hQuote, _, -, _, -, _, -, provider, -, _, -, orders, hInsert, _, hView, rfl, rfl⟩ :=
      hRest
    obtain ⟨shown, hShown, shows⟩ := orderView_shows hView
    have hQuoteId := (quote?_eq_some.mp hQuote).2
    obtain rfl := Option.some.inj
      ((order?_eq_some.mpr ⟨Table.mem_of_insert? hInsert, rfl⟩).symm.trans hShown)
    exact ⟨_, shows.orderId ▸ hShown, hQuoteId, rfl, rfl⟩

/-- An order is not created twice, whatever has become of it. -/
theorem createOrder_replay {idempotencyKey : String} {now : DateTime} {order : OrderRow}
    (hKey : Pattern.idempotency idempotencyKey = true) (hBuyer : Pattern.buyer order.buyerReference = true)
    (hAware : now.aware = true) (hOrder : order ∈ db.orders.rows)
    (hSame : order.idempotencyKey = idempotencyKey) :
    ∃ view, db.createOrder p order.quoteId idempotencyKey order.buyerReference now = .ok (db, view) ∧
      view.orderId = order.orderId := by
  obtain ⟨view, hView, shows⟩ := orderView_returns (order?_eq_some.mpr ⟨hOrder, rfl⟩)
  refine ⟨view, ?_, shows.orderId⟩
  have hFound := orderByIdempotencyKey?_eq_some.mpr ⟨hOrder, hSame⟩
  unfold createOrder
  simp only [Except.bind_eq_ok_iff, require_eq_ok]
  refine ⟨(), hKey, (), hBuyer, (), hAware, ?_⟩
  simp only [hFound, Except.bind_eq_ok_iff, Except.pure_eq_ok_iff, Prod.mk.injEq, require_eq_ok]
  exact ⟨(), ⟨trivial, trivial⟩, view, hView, trivial, rfl⟩

/-- The order has the checkout of the sandbox provider. -/
structure SandboxCheckout (p : Platform) (order : OrderRow) (paymentId : String) : Prop where
  identifier : FakePaymentProvider.paymentId p order.orderId = .ok paymentId
  pattern : Pattern.fakePaymentId paymentId = true
  provider : order.provider = .fake
  checkout : order.providerCheckoutId = some paymentId
  payment : order.providerPaymentId = some paymentId

theorem SandboxCheckout.keeps {order later : OrderRow} {paymentId : String}
    (checkout : SandboxCheckout p order paymentId) (keeps : order.Keeps later) :
    SandboxCheckout p later paymentId where
  identifier := keeps.orderId ▸ checkout.identifier
  pattern := checkout.pattern
  provider := keeps.provider.trans checkout.provider
  checkout := (keeps.checkout (by rw [checkout.checkout]; rfl)).trans checkout.checkout
  payment := (keeps.payment (by rw [checkout.payment]; rfl)).trans checkout.payment

/-- A sandbox identifier is accepted for orders of the sandbox provider only. -/
theorem checkoutPayment_sandbox {provider : Provider} {paymentId : String} {payment : Option String}
    (hFake : "pay_test_".toList.isPrefixOf paymentId.toList = true)
    (hReturns : db.checkoutPayment provider paymentId none = .ok payment) :
    provider = .fake ∧ db.environment = .sandbox ∧ Pattern.fakePaymentId paymentId = true ∧
      payment = some paymentId := by
  cases provider with
  | fake =>
      simp only [checkoutPayment, Except.bind_eq_ok_iff, require_eq_ok, Except.pure_eq_ok_iff] at hReturns
      obtain ⟨_, ⟨hSandbox, hPattern, -⟩, rfl⟩ := hReturns
      exact ⟨rfl, hSandbox, hPattern, rfl⟩
  | stripe =>
      simp only [checkoutPayment, Except.bind_eq_ok_iff, require_eq_ok] at hReturns
      obtain ⟨_, hPattern, -⟩ := hReturns
      simp only [List.isPrefixOf_iff_prefix] at hFake
      obtain ⟨rest, hRest⟩ := hFake
      simp only [Pattern.stripeCheckoutId, VouchSpec.Pattern.afterPrefix, ← hRest] at hPattern
      cases hEnvironment : db.environment <;> simp [hEnvironment] at hPattern

/-- What a returning checkout leaves behind. -/
theorem createCheckout_stores {orderId occurredAt : String} {view : OrderView}
    (hReturns : FakePaymentProvider.createCheckout p db orderId occurredAt = .ok (after, view)) :
    db.environment = .sandbox ∧ ∃ order paymentId, after.order? orderId = some order ∧
      SandboxCheckout p order paymentId := by
  unfold FakePaymentProvider.createCheckout at hReturns
  simp only [Except.bind_eq_ok_iff] at hReturns
  obtain ⟨paymentId, hPaymentId, hAttach⟩ := hReturns
  have hFake : "pay_test_".toList.isPrefixOf paymentId.toList = true := by
    unfold FakePaymentProvider.paymentId at hPaymentId
    simp only [Except.bind_eq_ok_iff, Except.pure_eq_ok_iff] at hPaymentId
    obtain ⟨_, -, rfl⟩ := hPaymentId
    rw [String.toList_append, List.isPrefixOf_iff_prefix]
    exact List.prefix_append _ _
  unfold attachCheckout at hAttach
  simp only [Except.bind_eq_ok_iff, requireOrder_eq_ok] at hAttach
  obtain ⟨_, -, order, hOrder, payment, hPayment, hRest⟩ := hAttach
  obtain ⟨hProvider, hSandbox, hPattern, rfl⟩ := checkoutPayment_sandbox hFake hPayment
  refine ⟨hSandbox, ?_⟩
  obtain ⟨hStored, rfl⟩ := order?_eq_some.mp hOrder
  split at hRest
  · next attached hAttached =>
      simp only [Except.bind_eq_ok_iff, Except.pure_eq_ok_iff, Prod.mk.injEq, require_eq_ok] at hRest
      obtain ⟨_, ⟨rfl, hBound⟩, _, -, rfl, -⟩ := hRest
      exact ⟨order, attached, hOrder, hPaymentId, hPattern, hProvider, hAttached, by simpa using hBound⟩
  · simp only [Except.bind_eq_ok_iff, Except.pure_eq_ok_iff, Prod.mk.injEq, updateOrder_eq_ok] at hRest
    obtain ⟨_, -, _, ⟨orders, hRows, rfl⟩, _, hView, rfl, -⟩ := hRest
    obtain ⟨shown, hShown, -⟩ := orderView_shows hView
    refine ⟨shown, paymentId, hShown, ?_⟩
    obtain ⟨hMember, hId⟩ := order?_eq_some.mp hShown
    change shown ∈ orders.rows at hMember
    rw [hRows, Table.mem_changed] at hMember
    rcases hMember with ⟨old, hOld, hOldId, rfl⟩ | ⟨-, hOther⟩
    · obtain rfl := order_eq_of_orderId hOld hStored (of_decide_eq_true hOldId)
      exact ⟨hPaymentId, hPattern, hProvider, rfl, rfl⟩
    · exact absurd (decide_eq_true hId) hOther

theorem attachCheckout_shows {orderId checkoutId occurredAt : String} {paymentId : Option String}
    {view : OrderView}
    (hReturns : db.attachCheckout p orderId checkoutId occurredAt paymentId = .ok (after, view)) :
    view.orderId = orderId := by
  have hView : after.orderView orderId = .ok view := by
    unfold attachCheckout at hReturns
    simp only [Except.bind_eq_ok_iff] at hReturns
    obtain ⟨_, -, _, -, _, -, hRest⟩ := hReturns
    split at hRest
    · simp only [Except.bind_eq_ok_iff, Except.pure_eq_ok_iff, Prod.mk.injEq] at hRest
      obtain ⟨_, -, _, hView, rfl, rfl⟩ := hRest
      exact hView
    · simp only [Except.bind_eq_ok_iff, Except.pure_eq_ok_iff, Prod.mk.injEq] at hRest
      obtain ⟨_, -, _, -, _, hView, rfl, rfl⟩ := hRest
      exact hView
  obtain ⟨order, hOrder, shows⟩ := orderView_shows hView
  exact shows.orderId.trans (order?_eq_some.mp hOrder).2

/-- A checkout is not attached twice, whatever has become of the order. -/
theorem createCheckout_replay {order : OrderRow} {paymentId occurredAt : String} {moment : Int}
    (hMoment : parseTimestamp p occurredAt = .ok moment) (hSandbox : db.environment = .sandbox)
    (hOrder : order ∈ db.orders.rows) (checkout : SandboxCheckout p order paymentId) :
    ∃ view, FakePaymentProvider.createCheckout p db order.orderId occurredAt = .ok (db, view) ∧
      db.getOrder order.orderId = .ok view := by
  have hFound := order?_eq_some.mpr ⟨hOrder, rfl⟩
  obtain ⟨view, hView, -⟩ := orderView_returns hFound
  refine ⟨view, ?_, (getOrder_eq_orderView order.orderId).trans hView⟩
  unfold FakePaymentProvider.createCheckout attachCheckout
  simp only [Except.bind_eq_ok_iff, requireOrder_eq_ok]
  refine ⟨paymentId, checkout.identifier, moment, hMoment, order, hFound, some paymentId, ?_, ?_⟩
  · rw [checkout.provider]
    simp only [checkoutPayment, Except.bind_eq_ok_iff, require_eq_ok, Except.pure_eq_ok_iff]
    exact ⟨(), ⟨hSandbox, checkout.pattern, Or.inl trivial⟩, trivial⟩
  · simp only [checkout.checkout, Except.bind_eq_ok_iff, Except.pure_eq_ok_iff, Prod.mk.injEq,
      require_eq_ok]
    exact ⟨(), ⟨trivial, Or.inr checkout.payment⟩, view, hView, trivial, rfl⟩

end Commerce

namespace Api

variable {p : Platform} {keyring : Keyring} {settings : Settings} {shop after : Shop}

/-- The ways in which an order is posted. -/
theorem returns_postOrder {tenantId : String} {now : DateTime} {body : Except Raised Json}
    {key : Except Raised String} {created : CreatedOrder} :
    (postOrder p keyring settings tenantId now body key).run.Returns shop created after ↔
      ∃ value quoteId idempotencyKey internalKey, now.aware = true ∧ body = .ok value ∧
        orderedQuote value = .ok quoteId ∧ key = .ok idempotencyKey ∧
        deriveOrderIdempotencyKey p keyring tenantId idempotencyKey = .ok internalKey ∧
        shop.access.OwnsQuote tenantId quoteId ∧
        ((shop.access.orderForQuote tenantId quoteId).isSome = true ∨
          ∃ counts, shop.access.tenantResourceCounts tenantId = .ok counts ∧
            counts.orders < settings.maxOrdersPerTenant) ∧
        ∃ commerce order access token authorization final view,
          shop.commerce.createOrder p quoteId internalKey tenantId now = .ok (commerce, order) ∧
          shop.access.bindOrder p keyring commerce tenantId order.orderId quoteId
            (some (p.timestamp now.instant)) now.instant = .ok (access, token) ∧
          access.authorizeOrder p keyring tenantId order.orderId token (some now) now.instant =
            .ok authorization ∧
          FakePaymentProvider.createCheckout p commerce order.orderId (p.timestamp now.instant) =
            .ok (final, view) ∧
          created = { order := publicOrder view, deliveryToken := token
                      deliveryTokenExpiresAt := authorization.tokenExpiresAt } ∧
          after = ⟨final, access⟩ := by
  simp only [postOrder, Program.run_bind, Program.run_check, Program.run_pure, Program.run_read,
    Routine.returns_bind, Routine.returns_reading, Routine.returns_pure, returns_onCommerce,
    returns_onAccess, returns_checkOrderLimit, timestampOf, authorizeQuote, Except.bind_eq_ok_iff,
    require_eq_ok, Except.pure_eq_ok_iff]
  constructor
  · rintro ⟨_, _, ⟨⟨_, hAware, rfl⟩, rfl⟩, value, _, ⟨hBody, rfl⟩, quoteId, _, ⟨hQuoteId, rfl⟩,
      idempotencyKey, _, ⟨hKey, rfl⟩, internalKey, _, ⟨hInternal, rfl⟩, _, _, ⟨hOwns, rfl⟩, _, _,
      ⟨rfl, hLimit⟩, order, _, ⟨commerce, hCreate, rfl⟩, token, _, ⟨access, hBind, rfl⟩, authorization, _,
      ⟨hAuthorize, rfl⟩, view, _, ⟨final, hCheckout, rfl⟩, rfl, rfl⟩
    exact ⟨value, quoteId, idempotencyKey, internalKey, hAware, hBody, hQuoteId, hKey, hInternal, hOwns,
      hLimit, commerce, order, access, token, authorization, final, view, hCreate, hBind, hAuthorize,
      hCheckout, rfl, rfl⟩
  · rintro ⟨value, quoteId, idempotencyKey, internalKey, hAware, hBody, hQuoteId, hKey, hInternal, hOwns,
      hLimit, commerce, order, access, token, authorization, final, view, hCreate, hBind, hAuthorize,
      hCheckout, rfl, rfl⟩
    exact ⟨_, shop, ⟨⟨(), hAware, rfl⟩, rfl⟩, value, shop, ⟨hBody, rfl⟩, quoteId, shop, ⟨hQuoteId, rfl⟩,
      idempotencyKey, shop, ⟨hKey, rfl⟩, internalKey, shop, ⟨hInternal, rfl⟩, (), shop, ⟨hOwns, rfl⟩, (),
      shop, ⟨rfl, hLimit⟩, order, _, ⟨commerce, hCreate, rfl⟩, token, _, ⟨access, hBind, rfl⟩,
      authorization, _, ⟨hAuthorize, rfl⟩, view, _, ⟨final, hCheckout, rfl⟩, rfl, rfl⟩

/-- What an answered post of an order leaves in the two stores. -/
structure Ordered (p : Platform) (shop : Shop) (tenantId quoteId internalKey orderId : String) : Prop where
  sandbox : shop.commerce.environment = .sandbox
  patterns : VouchSpec.Pattern.quoteId quoteId = true ∧ Pattern.orderId orderId = true ∧
    VouchSpec.Pattern.idempotency internalKey = true ∧ VouchSpec.Pattern.buyer tenantId = true
  order : ∃ order paymentId, shop.commerce.order? orderId = some order ∧ order.quoteId = quoteId ∧
    order.idempotencyKey = internalKey ∧ order.buyerReference = tenantId ∧
    Commerce.SandboxCheckout p order paymentId
  quote : ∃ binding, shop.access.quoteBinding? quoteId = some binding ∧ binding.tenantId = tenantId
  binding : ∃ row, shop.access.orderBinding? orderId = some row ∧ row.tenantId = tenantId ∧
    row.quoteId = quoteId

theorem Ordered.continues {later : Shop} {tenantId quoteId internalKey orderId : String}
    (ordered : Ordered p shop tenantId quoteId internalKey orderId) (continues : shop.Continues later)
    (wellFormed : shop.commerce.WellFormed p) : Ordered p later tenantId quoteId internalKey orderId where
  sandbox := continues.commerce.environment.trans ordered.sandbox
  patterns := ordered.patterns
  order := by
    obtain ⟨order, paymentId, hOrder, hQuote, hKey, hBuyer, checkout⟩ := ordered.order
    obtain ⟨now, hNow, -, keeps⟩ := continues.commerce.order wellFormed hOrder
    exact ⟨now, paymentId, hNow, keeps.quoteId.trans hQuote, keeps.idempotencyKey.trans hKey,
      keeps.buyerReference.trans hBuyer, checkout.keeps keeps⟩
  quote := by
    obtain ⟨binding, hBinding, hTenant⟩ := ordered.quote
    exact ⟨binding, continues.access.quoteBindings hBinding, hTenant⟩
  binding := by
    obtain ⟨row, hRow, hTenant, hQuote⟩ := ordered.binding
    obtain ⟨now, hNow, keeps⟩ := continues.access.orderBindings hRow
    exact ⟨now, hNow, keeps.tenantId.trans hTenant, keeps.quoteId.trans hQuote⟩

theorem postOrder_stores (wellFormed : shop.WellFormed p keyring) {tenantId : String} {now : DateTime}
    {body : Except Raised Json} {key : Except Raised String} {created : CreatedOrder}
    (hReturns : (postOrder p keyring settings tenantId now body key).run.Returns shop created after) :
    ∃ value quoteId idempotencyKey internalKey, body = .ok value ∧ orderedQuote value = .ok quoteId ∧
      key = .ok idempotencyKey ∧
      deriveOrderIdempotencyKey p keyring tenantId idempotencyKey = .ok internalKey ∧
      Ordered p after tenantId quoteId internalKey created.order.orderId := by
  obtain ⟨value, quoteId, idempotencyKey, internalKey, -, hBody, hQuoteId, hKey, hInternal, hOwns, -,
    commerce, order, access, token, authorization, final, view, hCreate, hBind, -, hCheckout, rfl, rfl⟩ :=
    returns_postOrder.mp hReturns
  refine ⟨value, quoteId, idempotencyKey, internalKey, hBody, hQuoteId, hKey, hInternal, ?_⟩
  obtain ⟨hKeyPattern, hBuyerPattern, stored, hStored, hQuote, hStoredKey, hBuyer⟩ :=
    Commerce.createOrder_stores hCreate
  obtain ⟨hSandbox, attached, paymentId, hAttached, checkout⟩ := Commerce.createCheckout_stores hCheckout
  have hCommerce := ((Commerce.createOrder_moves wellFormed.commerce.quotes_priced
    hCreate).wellFormed_continues wellFormed.commerce).1
  have hFinal : commerce.Continues final ∧ view.orderId = order.orderId := by
    unfold FakePaymentProvider.createCheckout at hCheckout
    simp only [Except.bind_eq_ok_iff] at hCheckout
    obtain ⟨_, -, hAttach⟩ := hCheckout
    exact ⟨((Commerce.attachCheckout_moves hAttach).wellFormed_continues hCommerce).2,
      Commerce.attachCheckout_shows hAttach⟩
  obtain ⟨later, hLater, -, keeps⟩ := hFinal.1.order hCommerce hStored
  obtain rfl := Option.some.inj (hAttached.symm.trans hLater)
  have hId : (publicOrder view).orderId = order.orderId := hFinal.2
  obtain ⟨bindable, hBinding⟩ := bindOrder_eq_ok.mp hBind
  obtain ⟨row, hRow, hTenant, hRowQuote⟩ : ∃ row, access.orderBinding? order.orderId = some row ∧
      row.tenantId = tenantId ∧ row.quoteId = quoteId := by
    rcases hBinding with ⟨existing, hExisting, hTenant, hSame, -, -, -, rfl⟩ |
      ⟨-, bindings, hInsert, -, rfl⟩
    · exact ⟨existing, hExisting, hTenant, hSame⟩
    · exact ⟨_, orderBinding?_eq_some.mpr ⟨Table.mem_of_insert? hInsert, rfl⟩, rfl, rfl⟩
  obtain ⟨binding, hQuoteBinding, hOwner⟩ := bindable.quote
  have hSameQuotes : access.quoteBindings = shop.access.quoteBindings := by
    rcases hBinding with ⟨_, -, -, -, -, -, -, rfl⟩ | ⟨-, _, -, -, rfl⟩
    · rfl
    · rfl
  change Ordered p _ tenantId quoteId internalKey (publicOrder view).orderId
  rw [hId]
  exact {
    sandbox := hFinal.1.environment.trans hSandbox
    patterns := ⟨bindable.quotePattern, bindable.orderPattern, hKeyPattern, hBuyerPattern⟩
    order := ⟨attached, paymentId, hAttached, keeps.quoteId.trans hQuote,
      keeps.idempotencyKey.trans hStoredKey, keeps.buyerReference.trans hBuyer, checkout⟩
    quote := ⟨binding, by unfold quoteBinding?; rw [hSameQuotes]; exact hQuoteBinding, hOwner⟩
    binding := ⟨row, hRow, hTenant, hRowQuote⟩ }

/-- A post leads to a state that calls of the stores lead to. -/
theorem postOrder_reaches {tenantId : String} {now : DateTime} {body : Except Raised Json}
    {key : Except Raised String} {created : CreatedOrder}
    (hReturns : (postOrder p keyring settings tenantId now body key).run.Returns shop created after) :
    Runs.Reaches (Shop.step p keyring) shop after := by
  have hRun := (follows_postOrder p keyring settings tenantId now body key).run Runs.Reaches.refl
    (fun _ _ _ left right => left.trans right) shop
  unfold Routine.Returns at hReturns
  rwa [hReturns] at hRun

/-- Each operation of a repeated post finds its row, and writes nothing. -/
theorem Ordered.postOrder (wellFormed : shop.WellFormed p keyring)
    {tenantId quoteId idempotencyKey internalKey orderId : String}
    (ordered : Ordered p shop tenantId quoteId internalKey orderId) {now : DateTime} {value : Json}
    (hQuoteId : orderedQuote value = .ok quoteId)
    (hInternal : deriveOrderIdempotencyKey p keyring tenantId idempotencyKey = .ok internalKey)
    (hActive : shop.access.Active tenantId) (hAware : now.aware = true) {row : OrderBinding}
    (hRow : shop.access.orderBinding? orderId = some row) (hState : row.tokenState = .active)
    (hExpiry : ∃ expiry, Access.parseTimestamp p row.tokenExpiresAt = .ok expiry ∧ now.instant < expiry) :
    ∃ view, shop.commerce.getOrder orderId = .ok view ∧
      (postOrder p keyring settings tenantId now (.ok value) (.ok idempotencyKey)).run.Returns shop
        { order := publicOrder view
          deliveryToken := deliveryToken p keyring shop.commerce.environment tenantId orderId row.tokenVersion
          deliveryTokenExpiresAt := row.tokenExpiresAt } shop := by
  obtain ⟨hQuotePattern, hOrderPattern, hKey, hBuyer⟩ := ordered.patterns
  obtain ⟨order, paymentId, hOrder, rfl, hSame, rfl, checkout⟩ := ordered.order
  obtain ⟨binding, hBinding, hOwner⟩ := ordered.quote
  obtain ⟨found, hFound, hTenant, hQuote⟩ := ordered.binding
  obtain rfl := Option.some.inj (hRow.symm.trans hFound)
  obtain ⟨hStored, rfl⟩ := Commerce.order?_eq_some.mp hOrder
  have bound := wellFormed.orders hRow
  obtain ⟨hRowStored, hRowId⟩ := orderBinding?_eq_some.mp hRow
  have hDigest : row.tokenDigest = deliveryDigest p keyring (deliveryToken p keyring
      shop.commerce.environment order.buyerReference order.orderId row.tokenVersion) := by
    rw [← hTenant, ← hRowId]
    exact bound.digest
  obtain ⟨created, hCreated, hCreatedId⟩ := Commerce.createOrder_replay hKey hBuyer hAware hStored hSame
  have hMoment : parseTimestamp p (p.timestamp now.instant) = _ :=
    p.parseTimestampAs_timestamp "commerce timestamp" "invalid_commerce_event" now.instant
  obtain ⟨view, hCheckout, hView⟩ :=
    Commerce.createCheckout_replay hMoment ordered.sandbox hStored checkout
  refine ⟨view, hView, returns_postOrder.mpr ⟨value, order.quoteId, idempotencyKey, internalKey, hAware, rfl,
    hQuoteId, rfl, hInternal, ⟨⟨binding, hBinding, hOwner⟩, hActive⟩, Or.inl ?_, shop.commerce, created,
    shop.access, deliveryToken p keyring shop.commerce.environment order.buyerReference order.orderId
      row.tokenVersion, ⟨row.tenantId, row.orderId, row.quoteId, row.tokenVersion, row.tokenExpiresAt,
        row.result.map Result.sha256⟩, shop.commerce, view, hCreated, ?_, ?_, ?_, rfl, rfl⟩⟩
  · unfold orderForQuote
    rw [if_pos hActive, Option.isSome_map, Table.find?, List.find?_isSome]
    exact ⟨row, hRowStored, by simp [hTenant, hQuote]⟩
  · rw [hCreatedId]
    refine bindOrder_eq_ok.mpr ⟨⟨hOrderPattern, hQuotePattern, ?_, ?_, hActive,
      ⟨binding, hBinding, hOwner⟩, ⟨order, hOrder, rfl⟩⟩, Or.inl ⟨row, hRow, hTenant, hQuote, hState,
        hDigest.symm, rfl, rfl⟩⟩
    · rw [Commerce.orElseNow_timestamp]
      exact ⟨_, p.parseTimestampAs_timestamp _ _ _⟩
    · exact hTenant ▸ bound.tenantPattern
  · rw [hCreatedId]
    exact authorizeOrder_eq_ok.mpr ⟨hAware, validToken_deliveryToken _ _ _ _, row,
      ⟨hRow, hTenant, hActive⟩, hState, hDigest.symm, hExpiry, rfl⟩
  · rw [hCreatedId]
    exact hCheckout

theorem returns_orderReply {tenantId : String} {now : DateTime} {body : Except Raised Json}
    {key : Except Raised String} {created : CreatedOrder} :
    (serve p keyring settings tenantId now (.postOrder body key)).run.Returns shop (.created created)
        after ↔
      (postOrder p keyring settings tenantId now body key).run.Returns shop created after := by
  change ((postOrder p keyring settings tenantId now body key >>=
    fun created => pure (Reply.created created)).run).Returns _ _ _ ↔ _
  simp only [Program.run_bind, Program.run_pure, Routine.returns_bind, Routine.returns_pure,
    Reply.created.injEq]
  constructor
  · rintro ⟨_, _, hRun, rfl, rfl⟩
    exact hRun
  · intro hRun
    exact ⟨created, after, hRun, rfl, rfl⟩

/-- Once a request has created an order, the same request of the tenant finds
the order with its current status and token in any later state, and writes
nothing, as long as the order's token is active and not expired. -/
theorem order_retry (p : Platform) (keyring : Keyring) (settings : Settings) {middle later : Shop}
    (reachable : shop.Reachable p keyring) {tenantId apiKey current : String} {first second : DateTime}
    {body : Except Raised Json} {key : Except Raised String} {created : CreatedOrder}
    (hAuthentic : shop.access.authenticateApiKey p keyring shop.commerce apiKey = .ok tenantId)
    (hFirst : (handle p keyring settings ⟨.ok apiKey, first, .postOrder body key⟩).run.Returns shop
      (.created created) middle)
    (reaches : Runs.Reaches (Shop.step p keyring) middle later)
    (hAgain : later.access.authenticateApiKey p keyring later.commerce current = .ok tenantId)
    (hAware : second.aware = true) {row : OrderBinding}
    (hRow : later.access.orderBinding? created.order.orderId = some row) (hState : row.tokenState = .active)
    (hExpiry : ∃ expiry, Access.parseTimestamp p row.tokenExpiresAt = .ok expiry ∧
      second.instant < expiry) :
    ∃ view, later.commerce.getOrder created.order.orderId = .ok view ∧
      (handle p keyring settings ⟨.ok current, second, .postOrder body key⟩).run.Returns later
        (.created { order := publicOrder view
                    deliveryToken := deliveryToken p keyring later.commerce.environment tenantId
                      created.order.orderId row.tokenVersion
                    deliveryTokenExpiresAt := row.tokenExpiresAt }) later := by
  obtain ⟨_, _, hCredential, hTenant, hServe⟩ := returns_handle.mp hFirst
  obtain rfl := Except.ok.inj hCredential
  obtain rfl := Except.ok.inj (hAuthentic.symm.trans hTenant)
  have hPost := returns_orderReply.mp hServe
  obtain ⟨value, quoteId, idempotencyKey, internalKey, rfl, hQuoteId, rfl, hInternal, ordered⟩ :=
    postOrder_stores reachable.wellFormed hPost
  have hMiddle := Shop.wellFormed_of_reaches reachable.wellFormed (postOrder_reaches hPost)
  have continues := Shop.continues_of_reaches hMiddle reaches
  have hLater := Shop.wellFormed_of_reaches hMiddle reaches
  obtain ⟨-, tenant, hTenantRow, -, hActive⟩ := authenticateApiKey_eq_ok.mp hAgain
  obtain ⟨view, hView, hSecond⟩ := (ordered.continues continues hMiddle.commerce).postOrder hLater hQuoteId
    hInternal (active_iff.mpr ⟨tenant, hTenantRow, hActive⟩) hAware hRow hState hExpiry
  exact ⟨view, hView, returns_handle.mpr ⟨current, tenantId, rfl, hAgain, returns_orderReply.mpr hSecond⟩⟩

end Api

namespace Sample

/-- A file with one tenant and its quote. -/
def quoted : Shop :=
  Runs.run (Shop.step .standard keyring) (Shop.empty .sandbox)
    [.provisionTenant (some tenantId) "" (drawn 1) none newYear,
      .commerce (.createQuote request quoteId ⟨newYear, true⟩ "fake" false ""),
      .bindQuote tenantId quoteId "quote-key-0001" none newYear]

theorem quoted_reachable : Shop.Reachable .standard keyring quoted := ⟨.sandbox, _, rfl⟩

/-- The sample request for an order, some microseconds after new year. -/
def orderRequest (delay : Int) : Api.Request where
  credential := .ok (apiKeyOf .sandbox (drawn 1))
  now := ⟨newYear + delay, true⟩
  action := .postOrder (.ok (.obj [("quote_id", .str quoteId)])) (.ok "order-key-0001")

/-- The credential of the order is active and not expired. -/
def usable (shop : Shop) (orderId : String) (moment : Int) : Bool :=
  match shop.access.orderBinding? orderId with
  | some row => decide (row.tokenState = .active) &&
      match Access.parseTimestamp .standard row.tokenExpiresAt with
      | .ok expiry => decide (moment < expiry)
      | .error _ => false
  | none => false

theorem usable_spec {shop : Shop} {orderId : String} {moment : Int}
    (h : usable shop orderId moment = true) : ∃ row, shop.access.orderBinding? orderId = some row ∧
      row.tokenState = .active ∧
        ∃ expiry, Access.parseTimestamp .standard row.tokenExpiresAt = .ok expiry ∧ moment < expiry := by
  unfold usable at h
  split at h
  · next row hRow =>
      simp only [Bool.and_eq_true, decide_eq_true_eq] at h
      obtain ⟨hState, hExpiry⟩ := h
      split at hExpiry
      · next expiry hParsed => exact ⟨row, hRow, hState, expiry, hParsed, of_decide_eq_true hExpiry⟩
      · cases hExpiry
  · cases h

/-- The order of the first request can still be read with its keys a day later. -/
theorem quoted_ordered : (decide (quoted.access.authenticateApiKey .standard keyring quoted.commerce
      (apiKeyOf .sandbox (drawn 1)) = .ok tenantId) &&
    match (Api.handle .standard keyring {} (orderRequest 0)).run quoted with
    | (.ok (.created created), after) =>
        decide (after.access.authenticateApiKey .standard keyring after.commerce
          (apiKeyOf .sandbox (drawn 1)) = .ok tenantId) &&
        usable after created.order.orderId (newYear + minutes 1440)
    | _ => false) = true := by decide +kernel

end Sample

/-- The request finds its order a day later, after the quote has expired. -/
theorem Api.order_retry_day : ∃ created after view,
    (handle .standard Sample.keyring {} (Sample.orderRequest 0)).run.Returns Sample.quoted
      (.created created) after ∧
    ∃ answer : CreatedOrder, answer.order = publicOrder view ∧
      (handle .standard Sample.keyring {} (Sample.orderRequest (minutes 1440))).run.Returns after
        (.created answer) after := by
  have hPost := Sample.quoted_ordered
  rw [Bool.and_eq_true] at hPost
  obtain ⟨hAuthentic, hPost⟩ := hPost
  split at hPost
  · next created after hRun =>
      simp only [Bool.and_eq_true, decide_eq_true_eq] at hPost
      obtain ⟨row, hRow, hState, hExpiry⟩ := Sample.usable_spec hPost.2
      obtain ⟨view, -, hSecond⟩ := order_retry .standard Sample.keyring {} Sample.quoted_reachable
        (of_decide_eq_true hAuthentic) hRun (.refl after) hPost.1
        (show (⟨Sample.newYear + minutes 1440, true⟩ : DateTime).aware = true from rfl) hRow hState hExpiry
      exact ⟨created, after, view, hRun, _, rfl, hSecond⟩
  · cases hPost

end VouchSpec
