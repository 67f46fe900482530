import VouchSpec.Api.Partition

/-! A tenant's share of the file. An operation for the tenant acts on its share
as on the file, and one for another tenant leaves the share as it is. -/

namespace VouchSpec

open Access

namespace Api

namespace Usage

variable (p : Platform) (keyring : Keyring) (usage : Usage) (tenantId : String)

instance (orderId : String) : Decidable (usage.OrderOf p keyring tenantId orderId) :=
  inferInstanceAs (Decidable (∃ source ∈ _, _ ∧ _))

/-- The tenant's quotes and orders with their history; payments are kept whole. -/
def commerceShare (db : Commerce) : Commerce :=
  { db with
    quotes := db.quotes.filter fun row => usage.QuoteOf p keyring tenantId row.quoteId
    orders := db.orders.filter fun row => row.buyerReference = tenantId
    history := db.history.filter fun row => usage.OrderOf p keyring tenantId row.orderId }

/-- The tenant's bindings and audit events; the tenants are kept whole. -/
def accessShare (access : Access) : Access :=
  { access with
    quoteBindings := access.quoteBindings.filter fun row => row.tenantId = tenantId
    orderBindings := access.orderBindings.filter fun row => row.tenantId = tenantId
    auditEvents := access.auditEvents.filter fun row => row.tenantId = some tenantId }

/-- The tenant's share of the file. -/
def share (shop : Shop) : Shop :=
  ⟨usage.commerceShare p keyring tenantId shop.commerce, accessShare tenantId shop.access⟩

variable {p keyring usage tenantId} {shop : Shop}

section
variable {db : Commerce}

@[simp] theorem commerceShare_environment :
    (usage.commerceShare p keyring tenantId db).environment = db.environment := rfl

theorem commerceShare_quote? {quoteId : String} (hOwner : usage.QuoteOf p keyring tenantId quoteId) :
    (usage.commerceShare p keyring tenantId db).quote? quoteId = db.quote? quoteId := by
  apply Table.find?_filter_of_imp
  intro row _ hRow
  rw [of_decide_eq_true hRow]
  exact decide_eq_true hOwner

theorem commerceShare_order? {orderId : String} :
    (usage.commerceShare p keyring tenantId db).order? orderId =
      (db.order? orderId).filter fun row => row.buyerReference = tenantId := by
  apply Table.find?_filter
  intro first second hFirst hSecond
  exact Or.inl ((of_decide_eq_true hFirst).trans (of_decide_eq_true hSecond).symm)

end

section
variable {access : Access}

@[simp] theorem accessShare_active {other : String} :
    (accessShare tenantId access).Active other ↔ access.Active other := Iff.rfl

theorem accessShare_quoteBinding? {quoteId : String} :
    (accessShare tenantId access).quoteBinding? quoteId =
      (access.quoteBinding? quoteId).filter fun row => row.tenantId = tenantId := by
  apply Table.find?_filter
  intro first second hFirst hSecond
  exact Or.inl ((of_decide_eq_true hFirst).trans (of_decide_eq_true hSecond).symm)

theorem accessShare_orderBinding? {orderId : String} :
    (accessShare tenantId access).orderBinding? orderId =
      (access.orderBinding? orderId).filter fun row => row.tenantId = tenantId := by
  apply Table.find?_filter
  intro first second hFirst hSecond
  exact Or.inl ((of_decide_eq_true hFirst).trans (of_decide_eq_true hSecond).symm)

theorem accessShare_requireActiveTenant {other : String} :
    (accessShare tenantId access).requireActiveTenant other = access.requireActiveTenant other := rfl

/-- Whether a quote is the tenant's own shows in its share. -/
theorem accessShare_ownsQuote {quoteId : String} :
    (accessShare tenantId access).OwnsQuote tenantId quoteId ↔ access.OwnsQuote tenantId quoteId := by
  unfold OwnsQuote
  rw [accessShare_quoteBinding?]
  simp only [Option.mem_def, Option.filter_eq_some_iff, decide_eq_true_eq, accessShare_active]
  refine and_congr_left fun _ => exists_congr fun row => ?_
  tauto

theorem accessShare_quoteOwned {quoteId : String} :
    (accessShare tenantId access).quoteOwned tenantId quoteId = access.quoteOwned tenantId quoteId := by
  unfold quoteOwned
  rw [decide_eq_decide]
  exact accessShare_ownsQuote

theorem accessShare_authorizeQuote {quoteId : String} :
    (accessShare tenantId access).authorizeQuote tenantId quoteId =
      access.authorizeQuote tenantId quoteId := by
  unfold authorizeQuote
  exact require_congr accessShare_ownsQuote

theorem accessShare_tenantResourceCounts :
    (accessShare tenantId access).tenantResourceCounts tenantId = access.tenantResourceCounts tenantId := by
  unfold tenantResourceCounts accessShare
  simp only [Table.filter_rows, List.countP_filter, Bool.and_self]
  rfl

theorem accessShare_orderForQuote {quoteId : String} :
    (accessShare tenantId access).orderForQuote tenantId quoteId =
      access.orderForQuote tenantId quoteId := by
  unfold orderForQuote
  simp only [accessShare_active]
  congr 2
  apply Table.find?_filter_of_imp
  intro row _ hRow
  exact decide_eq_true (of_decide_eq_true hRow).1

theorem accessShare_boundOrder? {orderId : String} :
    (accessShare tenantId access).boundOrder? tenantId orderId = access.boundOrder? tenantId orderId := by
  unfold boundOrder?
  rw [accessShare_orderBinding?, Option.filter_filter]
  congr 1
  funext row
  rw [← Bool.decide_and, decide_eq_decide, accessShare_active]
  tauto

theorem accessShare_authorizeOrder {orderId token : String} {now : Option DateTime} {utcNow : Int} :
    (accessShare tenantId access).authorizeOrder p keyring tenantId orderId token now utcNow =
      access.authorizeOrder p keyring tenantId orderId token now utcNow := by
  unfold authorizeOrder
  rw [accessShare_boundOrder?]

theorem accessShare_authorizeChange {orderId token : String} {updatedAt : Option String} {utcNow : Int} :
    (accessShare tenantId access).authorizeChange p keyring tenantId orderId token updatedAt utcNow =
      access.authorizeChange p keyring tenantId orderId token updatedAt utcNow := by
  unfold authorizeChange
  simp only [accessShare_authorizeOrder]

/-- The audit events of the tenant are part of its share. -/
theorem accessShare_audit {row : AuditRow} (hTenant : row.tenantId = some tenantId) :
    accessShare tenantId (access.audit row) = (accessShare tenantId access).audit row := by
  simp only [accessShare, audit, List.filter_append, List.filter_cons, List.filter_nil, hTenant,
    decide_true, if_true]

theorem accessShare_audit_other {row : AuditRow} (hTenant : row.tenantId ≠ some tenantId) :
    accessShare tenantId (access.audit row) = accessShare tenantId access := by
  simp only [accessShare, audit, List.filter_append, List.filter_cons, List.filter_nil, hTenant,
    decide_false, Bool.false_eq_true, if_false, List.append_nil]

theorem accessShare_storedResult {orderId : String} :
    storedResult (accessShare tenantId access) tenantId orderId = storedResult access tenantId orderId := by
  unfold storedResult
  rw [accessShare_orderBinding?, Option.filter_filter]
  simp only [Bool.and_self]

end

/-- The share of what an operation of the commerce store leaves behind. -/
def commerceOutcome {Value : Type} (usage : Usage) (p : Platform) (keyring : Keyring) (tenantId : String)
    (outcome : Except Raised (Commerce × Value)) : Except Raised (Commerce × Value) :=
  Prod.map (usage.commerceShare p keyring tenantId) id <$> outcome

/-- The share of what an operation of the access store leaves behind. -/
def accessOutcome {Value : Type} (tenantId : String) (outcome : Except Raised (Access × Value)) :
    Except Raised (Access × Value) :=
  Prod.map (accessShare tenantId) id <$> outcome

section
variable {db : Commerce}

/-- A quote of the tenant is created in its share as in the file. -/
theorem share_createQuote {value : Json} {quoteId paymentProvider drawn : String} {now : DateTime}
    {live : Bool} (hOwner : usage.QuoteOf p keyring tenantId quoteId) :
    usage.commerceOutcome p keyring tenantId
        (db.createQuote p value quoteId now paymentProvider live drawn) =
      (usage.commerceShare p keyring tenantId db).createQuote p value quoteId now paymentProvider live
        drawn := by
  unfold Commerce.createQuote
  rw [commerceShare_quote? hOwner, commerceShare_environment]
  refine Except.map_bind_of fun provider _ => ?_
  refine Except.map_bind_of fun _ _ => ?_
  refine Except.map_bind_of fun _ _ => ?_
  refine Except.map_bind_of fun request _ => ?_
  refine Except.map_bind_of fun preview _ => ?_
  split
  · rfl
  cases db.quote? quoteId with
  | some existing => exact Except.map_bind_of fun _ _ => rfl
  | none =>
      let row : QuoteRow :=
        { quoteId, environment := db.environment
          requestDigest := (preview.offered p provider db.environment now).requestDigest, request
          quote := preview.offered p provider db.environment now
          amountMinor := (preview.offered p provider db.environment now).amountMinor
          currency := freshValidationCurrency
          generatedAt := (preview.offered p provider db.environment now).generatedAt
          expiresAt := (preview.offered p provider db.environment now).expiresAt
          orderable := true, countsForGoal := false }
      have hInsert : (usage.commerceShare p keyring tenantId db).quotes.insert? row =
          (db.quotes.insert? row).map fun after =>
            after.filter fun row => usage.QuoteOf p keyring tenantId row.quoteId := by
        apply Table.insert?_filter
        · exact decide_eq_true hOwner
        · intro stored _ hSame
          change stored.quoteId = quoteId at hSame
          exact decide_eq_true (hSame ▸ hOwner)
      change _ = (Except.ofOption Raised.integrityError
        ((usage.commerceShare p keyring tenantId db).quotes.insert? row) >>= _)
      rw [hInsert]
      change usage.commerceOutcome p keyring tenantId
        (Except.ofOption .integrityError (db.quotes.insert? row) >>= _) = _
      cases db.quotes.insert? row with
      | none => rfl
      | some quotes => rfl

/-- A quote of another tenant is not in the share. -/
theorem share_createQuote_other (free : usage.CollisionFree p keyring) {after : Commerce} {value : Json}
    {other quoteId paymentProvider drawn : String} {now : DateTime} {live : Bool} {quote : Quote}
    (hOwner : usage.QuoteOf p keyring other quoteId) (hOther : other ≠ tenantId)
    (hReturns : db.createQuote p value quoteId now paymentProvider live drawn = .ok (after, quote)) :
    usage.commerceShare p keyring tenantId after = usage.commerceShare p keyring tenantId db := by
  rcases Commerce.createQuote_origin hReturns with rfl | ⟨row, quotes, hInsert, rfl, rfl⟩
  · rfl
  · unfold commerceShare
    rw [Table.filter_insert? hInsert]
    rw [decide_eq_true_eq]
    exact fun hMine => hOther (quoteOf_unique free hOwner hMine)

/-- The history of an order of the tenant is part of its share. -/
theorem share_addHistory {row : HistoryRow} (hOwner : usage.OrderOf p keyring tenantId row.orderId) :
    usage.commerceShare p keyring tenantId (db.addHistory [row]) =
      (usage.commerceShare p keyring tenantId db).addHistory [row] := by
  simp only [commerceShare, Commerce.addHistory, List.filter_append, List.filter_cons, List.filter_nil,
    hOwner, decide_true, if_true]

theorem share_addHistory_other {row : HistoryRow}
    (hOther : ¬usage.OrderOf p keyring tenantId row.orderId) :
    usage.commerceShare p keyring tenantId (db.addHistory [row]) =
      usage.commerceShare p keyring tenantId db := by
  simp only [commerceShare, Commerce.addHistory, List.filter_append, List.filter_cons, List.filter_nil,
    hOther, decide_false, Bool.false_eq_true, if_false, List.append_nil]

/-- The view of an order of the tenant shows in its share. -/
theorem share_orderView {orderId : String} (hOrder : (usage.commerceShare p keyring tenantId db).order?
    orderId = db.order? orderId) :
    (usage.commerceShare p keyring tenantId db).orderView orderId = db.orderView orderId := by
  unfold Commerce.orderView Commerce.requireOrder
  rw [hOrder]
  rfl

end

section
variable (sound : usage.Sound p keyring shop) (free : usage.CollisionFree p keyring)
include sound free

/-- The tenant's orders are found in its share. -/
theorem Sound.share_order? {orderId : String} (hOwner : usage.OrderOf p keyring tenantId orderId) :
    (usage.commerceShare p keyring tenantId shop.commerce).order? orderId =
      shop.commerce.order? orderId := by
  apply Table.find?_filter_of_imp
  intro row hRow hSelected
  have hOf := (sound.partitioned.orders row hRow).order
  change usage.OrderOf p keyring row.buyerReference row.orderId at hOf
  rw [of_decide_eq_true hSelected] at hOf
  exact decide_eq_true (orderOf_unique free hOf hOwner)

theorem Sound.share_orderByIdempotencyKey? {key : String} (hOwner : usage.KeyOf p keyring tenantId key) :
    (usage.commerceShare p keyring tenantId shop.commerce).orderByIdempotencyKey? key =
      shop.commerce.orderByIdempotencyKey? key := by
  apply Table.find?_filter_of_imp
  intro row hRow hSelected
  have hOf := (sound.partitioned.orders row hRow).key
  change usage.KeyOf p keyring row.buyerReference row.idempotencyKey at hOf
  rw [of_decide_eq_true hSelected] at hOf
  exact decide_eq_true (keyOf_unique free hOf hOwner)

/-- The view of one of the tenant's orders. -/
theorem Sound.share_getOrder {orderId : String} (hOwner : usage.OrderOf p keyring tenantId orderId) :
    (usage.commerceShare p keyring tenantId shop.commerce).getOrder orderId =
      shop.commerce.getOrder orderId := by
  have hOrder := sound.share_order? free hOwner
  unfold Commerce.getOrder Commerce.requireOrder
  rw [hOrder, share_orderView hOrder]

omit sound free in
private theorem sameValue_none {value : Option String} : ¬sameValue value none := by
  rintro ⟨hSome, rfl⟩
  cases hSome

/-- An order that clashes with a new one of the tenant is the tenant's. -/
private theorem clash_mine {quoteId key : String} {stored order : OrderRow}
    (hStored : stored ∈ shop.commerce.orders.rows)
    (hOrigin : order.origin = Commerce.newOrigin p shop.commerce quoteId key tenantId)
    (hQuote : usage.QuoteOf p keyring tenantId quoteId) (hKey : usage.KeyOf p keyring tenantId key)
    (hReceipt : order.receiptId = none)
    (hClash : OrderKeys.Clash stored.keys order.keys) : stored.buyerReference = tenantId := by
  have owns := sound.partitioned.orders stored hStored
  have hOrderOf := orderOf_of hQuote hKey
  rw [← sound.partitioned.environment] at hOrderOf
  obtain ⟨hId, hQuoteId, hSameKey, -, hCheckout, hPayment⟩ :
      order.orderId = shop.commerce.orderIdFor p quoteId key tenantId ∧ order.quoteId = quoteId ∧
        order.idempotencyKey = key ∧ order.buyerReference = tenantId ∧
        order.providerCheckoutId = none ∧ order.providerPaymentId = none := by
    simpa only [OrderRow.origin, Commerce.newOrigin, Origin.mk.injEq] using hOrigin
  rcases hClash with hSame | hSame | hSame | hSame | hSame | hSame
  · have hOf := owns.order
    change usage.OrderOf p keyring stored.buyerReference stored.orderId at hOf
    rw [show stored.orderId = order.orderId from hSame, hId] at hOf
    exact orderOf_unique free hOf hOrderOf
  · have hOf := owns.quote
    change usage.QuoteOf p keyring stored.buyerReference stored.quoteId at hOf
    rw [show stored.quoteId = order.quoteId from hSame, hQuoteId] at hOf
    exact quoteOf_unique free hOf hQuote
  · have hOf := owns.key
    change usage.KeyOf p keyring stored.buyerReference stored.idempotencyKey at hOf
    rw [show stored.idempotencyKey = order.idempotencyKey from hSame, hSameKey] at hOf
    exact keyOf_unique free hOf hKey
  · exact absurd (show sameValue stored.providerCheckoutId none from hCheckout ▸ hSame) sameValue_none
  · exact absurd (show sameValue stored.providerPaymentId none from hPayment ▸ hSame) sameValue_none
  · exact absurd (show sameValue stored.receiptId none from hReceipt ▸ hSame) sameValue_none

/-- An order of the tenant is created in its share as in the file. -/
theorem Sound.share_createOrder {quoteId key : String} {now : DateTime}
    (hQuote : usage.QuoteOf p keyring tenantId quoteId) (hKey : usage.KeyOf p keyring tenantId key) :
    usage.commerceOutcome p keyring tenantId (shop.commerce.createOrder p quoteId key tenantId now) =
      (usage.commerceShare p keyring tenantId shop.commerce).createOrder p quoteId key tenantId now := by
  unfold Commerce.createOrder
  rw [commerceShare_quote? hQuote, commerceShare_environment,
    sound.share_orderByIdempotencyKey? free hKey]
  refine Except.map_bind_of fun _ _ => ?_
  refine Except.map_bind_of fun _ _ => ?_
  refine Except.map_bind_of fun _ _ => ?_
  cases hExisting : shop.commerce.orderByIdempotencyKey? key with
  | some existing =>
      obtain ⟨hStored, hSame⟩ := Commerce.orderByIdempotencyKey?_eq_some.mp hExisting
      have owns := sound.partitioned.orders existing hStored
      have hBuyer : existing.buyerReference = tenantId := by
        have hOf := owns.key
        change usage.KeyOf p keyring existing.buyerReference existing.idempotencyKey at hOf
        exact keyOf_unique free (hSame ▸ hOf) hKey
      have hOwner : usage.OrderOf p keyring tenantId existing.orderId := hBuyer ▸ owns.order
      refine Except.map_bind_of fun _ _ => ?_
      rw [share_orderView (sound.share_order? free hOwner)]
      exact Except.map_bind_of fun _ _ => rfl
  | none =>
      refine Except.map_bind_of fun quote hQuoteRow => ?_
      refine Except.map_bind_of fun _ _ => ?_
      refine Except.map_bind_of fun _ _ => ?_
      refine Except.map_bind_of fun _ _ => ?_
      refine Except.map_bind_of fun provider _ => ?_
      refine Except.map_bind_of fun _ _ => ?_
      obtain ⟨-, rfl⟩ := Commerce.quote?_eq_some.mp (Except.ofOption_eq_ok_iff.mp hQuoteRow)
      have hOwner := orderOf_of hQuote hKey
      rw [← sound.partitioned.environment] at hOwner
      have hInsert : (usage.commerceShare p keyring tenantId shop.commerce).orders.insert?
          (shop.commerce.newOrder p quote provider key tenantId (p.timestamp now.instant)) =
          (shop.commerce.orders.insert?
            (shop.commerce.newOrder p quote provider key tenantId (p.timestamp now.instant))).map
            fun after => after.filter fun row => row.buyerReference = tenantId := by
        apply Table.insert?_filter
        · exact decide_eq_true rfl
        · intro stored hStored hClash
          exact decide_eq_true (clash_mine sound free hStored rfl hQuote hKey rfl hClash)
      change _ = (Except.ofOption (rejected "quote already has an order" "quote_already_used")
        ((usage.commerceShare p keyring tenantId shop.commerce).orders.insert?
          (shop.commerce.newOrder p quote provider key tenantId (p.timestamp now.instant))) >>= _)
      rw [hInsert]
      change usage.commerceOutcome p keyring tenantId
        (Except.ofOption (rejected "quote already has an order" "quote_already_used")
          (shop.commerce.orders.insert?
            (shop.commerce.newOrder p quote provider key tenantId (p.timestamp now.instant))) >>= _) = _
      cases hOrders : shop.commerce.orders.insert?
          (shop.commerce.newOrder p quote provider key tenantId (p.timestamp now.instant)) with
      | none => rfl
      | some orders =>
          let order := shop.commerce.newOrder p quote provider key tenantId (p.timestamp now.instant)
          let noted : HistoryRow :=
            { orderId := order.orderId, change := .order none .checkoutPending, sourceReference := key
              occurredAt := p.timestamp now.instant }
          let after := ({ shop.commerce with orders } : Commerce).addHistory [noted]
          let shown := (usage.commerceShare p keyring tenantId { shop.commerce with orders }).addHistory [noted]
          have hAfter : usage.commerceShare p keyring tenantId after = shown := share_addHistory hOwner
          have hFound : after.order? order.orderId = some order :=
            Commerce.order?_eq_some.mpr ⟨Table.mem_of_insert? hOrders, rfl⟩
          have hView : shown.orderView order.orderId = after.orderView order.orderId := by
            rw [← hAfter]
            apply share_orderView
            rw [commerceShare_order?, hFound]
            exact if_pos (decide_eq_true rfl)
          change usage.commerceOutcome p keyring tenantId
              (after.orderView order.orderId >>= fun view => pure (after, view)) =
            (shown.orderView order.orderId >>= fun view => pure (shown, view))
          rw [hView, ← hAfter]
          exact Except.map_bind_of fun _ _ => rfl

/-- An order of another tenant is not in the share. -/
theorem Sound.share_createOrder_other {commerce : Commerce} {other quoteId key : String} {now : DateTime}
    {view : OrderView} (hQuote : usage.QuoteOf p keyring other quoteId)
    (hKey : usage.KeyOf p keyring other key) (hOther : other ≠ tenantId)
    (hReturns : shop.commerce.createOrder p quoteId key other now = .ok (commerce, view)) :
    usage.commerceShare p keyring tenantId commerce =
      usage.commerceShare p keyring tenantId shop.commerce := by
  rcases Commerce.createOrder_origin hReturns with rfl | ⟨order, orders, row, hInsert, hOrigin, hRow, rfl⟩
  · rfl
  have hOwner := orderOf_of hQuote hKey
  rw [← sound.partitioned.environment] at hOwner
  have hId : order.orderId = shop.commerce.orderIdFor p quoteId key other := congrArg Origin.orderId hOrigin
  have hBuyer : order.buyerReference = other := congrArg Origin.buyerReference hOrigin
  rw [share_addHistory_other]
  · unfold commerceShare
    rw [Table.filter_insert? hInsert]
    rw [decide_eq_true_eq, hBuyer]
    exact hOther
  · rw [hRow, hId]
    exact fun hMine => hOther (orderOf_unique free hOwner hMine)

/-- The rows that an attached checkout changes are those of its order. -/
private theorem attached_mine {orderId : String} (hOwner : usage.OrderOf p keyring tenantId orderId)
    {row : OrderRow} (hRow : row ∈ shop.commerce.orders.rows) (hSelected : row.orderId = orderId) :
    row.buyerReference = tenantId := by
  have hOf := (sound.partitioned.orders row hRow).order
  change usage.OrderOf p keyring row.buyerReference row.orderId at hOf
  exact orderOf_unique free (hSelected ▸ hOf) hOwner

/-- An order that clashes with one of the tenant's, once that has its checkout, is
the tenant's. -/
private theorem attached_clash {orderId checkoutId occurredAt : String} {payment : Option String}
    (hOwner : usage.OrderOf p keyring tenantId orderId)
    (hPayment : FakePaymentProvider.paymentId p orderId = .ok checkoutId)
    (hBound : payment = some checkoutId ∨ payment = none) {row stored : OrderRow}
    (hRow : row ∈ shop.commerce.orders.rows) (hSelected : row.orderId = orderId)
    (hStored : stored ∈ shop.commerce.orders.rows)
    (hClash : OrderKeys.Clash (row.attached checkoutId payment occurredAt).keys stored.keys) :
    stored.buyerReference = tenantId := by
  have hSame : OrderKeys.Clash row.keys stored.keys → stored.buyerReference = tenantId := by
    intro hBefore
    rw [← Table.eq_of_clash hRow hStored hBefore hBefore.symm]
    exact attached_mine sound free hOwner hRow hSelected
  have hPaid : stored.providerCheckoutId = some checkoutId ∨ stored.providerPaymentId = some checkoutId →
      stored.buyerReference = tenantId := by
    intro hText
    have owns := sound.partitioned.orders stored hStored
    apply attached_mine sound free hOwner hStored
    exact payment_unique free owns.order hOwner (owns.payment checkoutId hText) hPayment
  rcases hClash with hId | hQuote | hKey | hCheckout | hCharged | hReceipt
  · exact hSame (Or.inl hId)
  · exact hSame (Or.inr (Or.inl hQuote))
  · exact hSame (Or.inr (Or.inr (Or.inl hKey)))
  · exact hPaid (Or.inl hCheckout.2.symm)
  · obtain ⟨hSome, hEqual⟩ := hCharged
    change payment.isSome at hSome
    change payment = stored.providerPaymentId at hEqual
    rcases hBound with rfl | rfl
    · exact hPaid (Or.inr hEqual.symm)
    · cases hSome
  · exact hSame (Or.inr (Or.inr (Or.inr (Or.inr (Or.inr hReceipt)))))

/-- The sandbox checkout of an order of the tenant is attached in its share as
in the file. -/
theorem Sound.share_attachCheckout {orderId checkoutId occurredAt : String}
    (hOwner : usage.OrderOf p keyring tenantId orderId)
    (hPayment : FakePaymentProvider.paymentId p orderId = .ok checkoutId) :
    usage.commerceOutcome p keyring tenantId
        (shop.commerce.attachCheckout p orderId checkoutId occurredAt none) =
      (usage.commerceShare p keyring tenantId shop.commerce).attachCheckout p orderId checkoutId
        occurredAt none := by
  have hOrder := sound.share_order? free hOwner
  unfold Commerce.attachCheckout Commerce.requireOrder
  rw [hOrder]
  refine Except.map_bind_of fun _ _ => ?_
  refine Except.map_bind_of fun order hFound => ?_
  refine Except.map_bind_of fun payment hChecked => ?_
  cases hAttached : order.providerCheckoutId with
  | some attached =>
      refine Except.map_bind_of fun _ _ => ?_
      rw [share_orderView hOrder]
      exact Except.map_bind_of fun _ _ => rfl
  | none =>
      have hBound : payment = some checkoutId ∨ payment = none := by
        unfold Commerce.checkoutPayment at hChecked
        split at hChecked <;> simp only [Except.bind_eq_ok_iff, Except.pure_eq_ok_iff] at hChecked
        · obtain ⟨_, -, rfl⟩ := hChecked
          exact Or.inl rfl
        · obtain ⟨_, -, _, -, rfl⟩ := hChecked
          exact Or.inr rfl
      have hUpdate : (usage.commerceShare p keyring tenantId shop.commerce).orders.update?
          (fun row => row.orderId = orderId) (OrderRow.attached checkoutId payment occurredAt) =
          (shop.commerce.orders.update? (fun row => row.orderId = orderId)
            (OrderRow.attached checkoutId payment occurredAt)).map
            fun after => after.filter fun row => row.buyerReference = tenantId := by
        apply Table.update?_filter
        · intro row hRow hSelected
          have hMine := attached_mine sound free hOwner hRow (of_decide_eq_true hSelected)
          exact ⟨decide_eq_true hMine, decide_eq_true hMine⟩
        · rintro row hRow hSelected stored hStored hClash
          have hForward := hClash.elim id OrderKeys.Clash.symm
          exact decide_eq_true (attached_clash sound free hOwner hPayment hBound hRow
            (of_decide_eq_true hSelected) hStored hForward)
      refine Except.map_bind_of fun _ _ => ?_
      unfold Commerce.updateOrder
      change _ = ((Except.ofOption (rejected "payment identifier is already bound" "idempotency_conflict")
        ((usage.commerceShare p keyring tenantId shop.commerce).orders.update?
          (fun row => row.orderId = orderId) (OrderRow.attached checkoutId payment occurredAt)) >>= _) >>= _)
      rw [hUpdate]
      change usage.commerceOutcome p keyring tenantId ((Except.ofOption
        (rejected "payment identifier is already bound" "idempotency_conflict")
        (shop.commerce.orders.update? (fun row => row.orderId = orderId)
          (OrderRow.attached checkoutId payment occurredAt)) >>= _) >>= _) = _
      cases hOrders : shop.commerce.orders.update? (fun row => row.orderId = orderId)
          (OrderRow.attached checkoutId payment occurredAt) with
      | none => rfl
      | some orders =>
          let noted : HistoryRow :=
            { orderId, change := .order (some order.orderStatus) .paymentPending
              sourceReference := checkoutId, occurredAt }
          let after := ({ shop.commerce with orders } : Commerce).addHistory [noted]
          let shown := (usage.commerceShare p keyring tenantId { shop.commerce with orders }).addHistory [noted]
          have hAfter : usage.commerceShare p keyring tenantId after = shown := share_addHistory hOwner
          have hView : shown.orderView orderId = after.orderView orderId := by
            rw [← hAfter]
            apply share_orderView
            rw [commerceShare_order?]
            cases hRow : after.order? orderId with
            | none => rfl
            | some row =>
                obtain ⟨hStored, hSelected⟩ := Commerce.order?_eq_some.mp hRow
                change row ∈ orders.rows at hStored
                rw [Table.update?_eq_some.mp hOrders, Table.mem_changed] at hStored
                have hMine : row.buyerReference = tenantId := by
                  rcases hStored with ⟨old, hOld, hId, rfl⟩ | ⟨hOld, -⟩
                  · have hBefore := attached_mine sound free hOwner hOld (of_decide_eq_true hId)
                    exact hBefore
                  · exact attached_mine sound free hOwner hOld hSelected
                exact if_pos (decide_eq_true hMine)
          change usage.commerceOutcome p keyring tenantId
              (after.orderView orderId >>= fun view => pure (after, view)) =
            (shown.orderView orderId >>= fun view => pure (shown, view))
          rw [hView, ← hAfter]
          exact Except.map_bind_of fun _ _ => rfl

/-- The checkout of another tenant's order is not in the share. -/
theorem Sound.share_attachCheckout_other {commerce : Commerce} {other orderId checkoutId : String}
    {occurredAt : String} {view : OrderView} (hOwner : usage.OrderOf p keyring other orderId)
    (hOther : other ≠ tenantId)
    (hReturns : shop.commerce.attachCheckout p orderId checkoutId occurredAt none = .ok (commerce, view)) :
    usage.commerceShare p keyring tenantId commerce =
      usage.commerceShare p keyring tenantId shop.commerce := by
  rcases Commerce.attachCheckout_origin hReturns with rfl | ⟨orders, row, payment, hRows, -, hRow, rfl⟩
  · rfl
  rw [share_addHistory_other]
  · have hOrders : orders.filter (fun row => row.buyerReference = tenantId) =
        shop.commerce.orders.filter fun row => row.buyerReference = tenantId := by
      apply Table.ext
      rw [Table.filter_rows, Table.filter_rows, hRows]
      apply Table.filter_changed_of_not
      intro stored hStored hSelected
      have hBuyer := attached_mine sound free hOwner hStored (of_decide_eq_true hSelected)
      have hNot : ¬(decide (stored.buyerReference = tenantId)) = true := by
        rw [decide_eq_true_eq, hBuyer]
        exact hOther
      exact ⟨hNot, hNot⟩
    unfold commerceShare
    rw [hOrders]
  · rw [hRow]
    exact fun hMine => hOther (orderOf_unique free hOwner hMine)

/-- The binding of a quote of the tenant shows in its share. -/
theorem Sound.share_quoteBinding? {quoteId : String} (hOwner : usage.QuoteOf p keyring tenantId quoteId) :
    (accessShare tenantId shop.access).quoteBinding? quoteId = shop.access.quoteBinding? quoteId := by
  apply Table.find?_filter_of_imp
  intro row hRow hSelected
  have hOf := sound.partitioned.bindings row hRow
  rw [of_decide_eq_true hSelected] at hOf
  exact decide_eq_true (quoteOf_unique free hOf hOwner)

theorem Sound.share_orderBinding? {orderId : String} (hOwner : usage.OrderOf p keyring tenantId orderId) :
    (accessShare tenantId shop.access).orderBinding? orderId = shop.access.orderBinding? orderId := by
  apply Table.find?_filter_of_imp
  intro row hRow hSelected
  have hOf := (sound.orderOf free hRow).2
  rw [of_decide_eq_true hSelected] at hOf
  exact decide_eq_true (orderOf_unique free hOf hOwner)

/-- A quote is bound to the tenant in its share as in the file. -/
theorem Sound.share_bindQuote {quoteId key : String} {createdAt : Option String} {utcNow : Int}
    (hOwner : usage.QuoteOf p keyring tenantId quoteId) :
    accessOutcome tenantId
        (shop.access.bindQuote p keyring shop.commerce tenantId quoteId key createdAt utcNow) =
      (accessShare tenantId shop.access).bindQuote p keyring
        (usage.commerceShare p keyring tenantId shop.commerce) tenantId quoteId key createdAt utcNow := by
  unfold bindQuote
  rw [commerceShare_quote? hOwner, sound.share_quoteBinding? free hOwner, accessShare_requireActiveTenant]
  refine Except.map_bind_of fun _ _ => ?_
  refine Except.map_bind_of fun digest _ => ?_
  refine Except.map_bind_of fun _ _ => ?_
  refine Except.map_bind_of fun _ _ => ?_
  refine Except.map_bind_of fun _ _ => ?_
  cases shop.access.quoteBinding? quoteId with
  | some existing => exact Except.map_bind_of fun _ _ => rfl
  | none =>
      let row : QuoteBinding :=
        ⟨quoteId, tenantId, digest, orElseNow p createdAt utcNow⟩
      have hInsert : (accessShare tenantId shop.access).quoteBindings.insert? row =
          (shop.access.quoteBindings.insert? row).map fun after =>
            after.filter fun row => row.tenantId = tenantId := by
        apply Table.insert?_filter
        · exact decide_eq_true rfl
        · intro stored hStored hClash
          rcases hClash with hSame | hSame
          · have hOf := sound.partitioned.bindings stored hStored
            rw [show stored.quoteId = quoteId from hSame] at hOf
            exact decide_eq_true (quoteOf_unique free hOf hOwner)
          · exact decide_eq_true (congrArg Prod.fst hSame)
      change _ = (Except.ofOption (rejected "quote binding conflict" "authorization_failed")
        ((accessShare tenantId shop.access).quoteBindings.insert? row) >>= _)
      rw [hInsert]
      change accessOutcome tenantId
        (Except.ofOption (rejected "quote binding conflict" "authorization_failed")
          (shop.access.quoteBindings.insert? row) >>= _) = _
      cases shop.access.quoteBindings.insert? row with
      | none => rfl
      | some bindings =>
          let noted : AuditRow :=
            { eventType := "quote.bound", tenantId := some tenantId, quoteId := some quoteId
              observedAt := orElseNow p createdAt utcNow }
          have hAudit : accessShare tenantId
              (({ shop.access with quoteBindings := bindings } : Access).audit noted) = _ :=
            accessShare_audit rfl
          exact congrArg (fun after => (.ok (after, ()) : Except Raised (Access × Unit))) hAudit

omit sound free in
/-- A quote that is bound to another tenant is not in the share. -/
theorem share_bindQuote_other {access : Access} {other quoteId key : String}
    {createdAt : Option String} {utcNow : Int} {result : Unit} (hOther : other ≠ tenantId)
    (hReturns : shop.access.bindQuote p keyring shop.commerce other quoteId key createdAt utcNow =
      .ok (access, result)) : accessShare tenantId access = accessShare tenantId shop.access := by
  obtain ⟨-, -, -, -, -, ⟨_, -, -, -, rfl⟩ | ⟨-, bindings, hInsert, rfl⟩⟩ := bindQuote_eq_ok.mp hReturns
  · rfl
  · rw [accessShare_audit_other (by simpa using hOther)]
    unfold accessShare
    rw [Table.filter_insert? hInsert]
    rw [decide_eq_true_eq]
    exact hOther

/-- An order is bound to the tenant in its share as in the file. -/
theorem Sound.share_bindOrder {orderId quoteId : String} {createdAt : Option String} {utcNow : Int}
    (hOwner : usage.OrderOf p keyring tenantId orderId)
    (hQuote : usage.QuoteOf p keyring tenantId quoteId) :
    accessOutcome tenantId
        (shop.access.bindOrder p keyring shop.commerce tenantId orderId quoteId createdAt utcNow) =
      (accessShare tenantId shop.access).bindOrder p keyring
        (usage.commerceShare p keyring tenantId shop.commerce) tenantId orderId quoteId createdAt
        utcNow := by
  unfold bindOrder
  rw [sound.share_quoteBinding? free hQuote, sound.share_order? free hOwner,
    sound.share_orderBinding? free hOwner, accessShare_requireActiveTenant, commerceShare_environment]
  refine Except.map_bind_of fun _ _ => ?_
  refine Except.map_bind_of fun created _ => ?_
  refine Except.map_bind_of fun _ _ => ?_
  refine Except.map_bind_of fun _ _ => ?_
  cases shop.access.orderBinding? orderId with
  | some existing =>
      refine Except.map_bind_of fun _ _ => ?_
      refine Except.map_bind_of fun _ _ => ?_
      exact Except.map_bind_of fun _ _ => rfl
  | none =>
      let row := newBinding p keyring shop.commerce tenantId orderId quoteId
        (p.timestamp (created + deliveryTokenTtl)) (orElseNow p createdAt utcNow)
      have hInsert : (accessShare tenantId shop.access).orderBindings.insert? row =
          (shop.access.orderBindings.insert? row).map fun after =>
            after.filter fun row => row.tenantId = tenantId := by
        apply Table.insert?_filter
        · exact decide_eq_true rfl
        · intro stored hStored hClash
          obtain ⟨hQuoteOf, hOrderOf⟩ := sound.orderOf free hStored
          rcases hClash with hSame | hSame
          · rw [show stored.orderId = orderId from hSame] at hOrderOf
            exact decide_eq_true (orderOf_unique free hOrderOf hOwner)
          · rw [show stored.quoteId = quoteId from hSame] at hQuoteOf
            exact decide_eq_true (quoteOf_unique free hQuoteOf hQuote)
      change _ = (Except.ofOption Raised.integrityError
        ((accessShare tenantId shop.access).orderBindings.insert? row) >>= _)
      rw [hInsert]
      change accessOutcome tenantId
        (Except.ofOption Raised.integrityError (shop.access.orderBindings.insert? row) >>= _) = _
      cases shop.access.orderBindings.insert? row with
      | none => rfl
      | some bindings =>
          let noted : AuditRow :=
            { eventType := "order.bound", tenantId := some tenantId, quoteId := some quoteId
              orderId := some orderId, observedAt := orElseNow p createdAt utcNow }
          have hAudit : accessShare tenantId
              (({ shop.access with orderBindings := bindings } : Access).audit noted) = _ :=
            accessShare_audit rfl
          exact congrArg (fun after => (.ok (after, _) : Except Raised (Access × String))) hAudit

omit sound free in
/-- An order that is bound to another tenant is not in the share. -/
theorem share_bindOrder_other {access : Access} {other orderId quoteId : String}
    {createdAt : Option String} {utcNow : Int} {token : String} (hOther : other ≠ tenantId)
    (hReturns : shop.access.bindOrder p keyring shop.commerce other orderId quoteId createdAt utcNow =
      .ok (access, token)) : accessShare tenantId access = accessShare tenantId shop.access := by
  obtain ⟨-, ⟨_, -, -, -, -, -, -, rfl⟩ | ⟨-, bindings, hInsert, -, rfl⟩⟩ := bindOrder_eq_ok.mp hReturns
  · rfl
  · rw [accessShare_audit_other (by simpa using hOther)]
    unfold accessShare
    rw [Table.filter_insert? hInsert]
    rw [decide_eq_true_eq]
    exact hOther

end

section
variable {access after : Access} {orderId currentToken timestamp : String} {updated : Int}

/-- Columns of the rows of an order change in the share as in the file. -/
private theorem accessShare_update {change : OrderBinding → OrderBinding}
    (hKeys : ∀ row, (change row).keys = row.keys) (hTenant : ∀ row, (change row).tenantId = row.tenantId) :
    accessShare tenantId { access with
        orderBindings := access.orderBindings.update (fun row => row.orderId = orderId) change hKeys } =
      { accessShare tenantId access with
        orderBindings := (accessShare tenantId access).orderBindings.update
          (fun row => row.orderId = orderId) change hKeys } := by
  have hRows : (access.orderBindings.update (fun row => row.orderId = orderId) change hKeys).filter
      (fun row => row.tenantId = tenantId) =
      (access.orderBindings.filter fun row => row.tenantId = tenantId).update
        (fun row => row.orderId = orderId) change hKeys := by
    apply Table.ext
    apply Table.filter_changed
    intro row _ _
    rw [hTenant]
  unfold accessShare
  rw [hRows]

/-- A token of the tenant is rotated in its share as in the file. -/
theorem share_commitRotation {db : Commerce} :
    accessOutcome tenantId
        (access.commitRotation p keyring db tenantId orderId currentToken timestamp updated) =
      (accessShare tenantId access).commitRotation p keyring (usage.commerceShare p keyring tenantId db)
        tenantId orderId currentToken timestamp updated := by
  unfold commitRotation
  rw [accessShare_orderBinding?, Option.filter_filter, commerceShare_environment]
  simp only [Bool.and_self]
  refine Except.map_bind_of fun row _ => ?_
  refine Except.map_bind_of fun _ _ => ?_
  refine congrArg (fun after => (.ok (after, _) : Except Raised (Access × String))) ?_
  refine (accessShare_audit rfl).trans (congrArg (fun after => Access.audit after _) ?_)
  apply accessShare_update
  exact fun _ => rfl

theorem share_commitRevocation :
    accessOutcome tenantId
        (access.commitRevocation p keyring tenantId orderId currentToken timestamp) =
      (accessShare tenantId access).commitRevocation p keyring tenantId orderId currentToken timestamp := by
  unfold commitRevocation
  rw [accessShare_orderBinding?, Option.filter_filter]
  have hSame : (access.orderBinding? orderId).filter (fun row =>
        decide (row.tenantId = tenantId) && decide (row.tenantId = tenantId ∧ row.tokenState = .active ∧
          row.tokenDigest = deliveryDigest p keyring currentToken)) =
      (access.orderBinding? orderId).filter fun row => decide (row.tenantId = tenantId ∧
        row.tokenState = .active ∧ row.tokenDigest = deliveryDigest p keyring currentToken) := by
    congr 1
    funext row
    rw [← Bool.decide_and, decide_eq_decide]
    tauto
  rw [hSame]
  refine Except.map_bind_of fun row _ => ?_
  refine congrArg (fun after => (.ok (after, ()) : Except Raised (Access × Unit))) ?_
  refine (accessShare_audit rfl).trans (congrArg (fun after => Access.audit after _) ?_)
  apply accessShare_update
  exact fun _ => rfl

/-- A change of the rows of another tenant's order leaves the share as it was. -/
private theorem share_changed_other {orderBindings : Table OrderBinding.keys EitherSame}
    {change : OrderBinding → OrderBinding} {event : AuditRow} {row : OrderBinding}
    (hRow : access.orderBinding? orderId = some row) (hOther : row.tenantId ≠ tenantId)
    (hTenant : ∀ row, (change row).tenantId = row.tenantId) (hEvent : event.tenantId ≠ some tenantId)
    (hRows : orderBindings.rows =
      Table.changed access.orderBindings.rows (fun row => row.orderId = orderId) change) :
    accessShare tenantId ({ access with orderBindings }.audit event) = accessShare tenantId access := by
  rw [accessShare_audit_other hEvent]
  have hPart : orderBindings.filter (fun row => row.tenantId = tenantId) =
      access.orderBindings.filter fun row => row.tenantId = tenantId := by
    apply Table.ext
    rw [Table.filter_rows, Table.filter_rows, hRows]
    apply Table.filter_changed_of_not
    intro stored hStored hSelected
    have hSame : stored = row := by
      have hFound := orderBinding?_eq_some.mpr ⟨hStored, of_decide_eq_true hSelected⟩
      exact Option.some.inj (hFound.symm.trans hRow)
    rw [hTenant, hSame, decide_eq_true_eq]
    exact ⟨hOther, hOther⟩
  unfold accessShare
  rw [hPart]

theorem share_commitRotation_other {db : Commerce} {other token : String} (hOther : other ≠ tenantId)
    (hReturns : access.commitRotation p keyring db other orderId currentToken timestamp updated =
      .ok (after, token)) : accessShare tenantId after = accessShare tenantId access := by
  obtain ⟨row, _, hRow, rfl, -, -, -, hRows, rfl⟩ := commitRotation_ok hReturns
  refine share_changed_other hRow hOther ?_ ?_ hRows
  · exact fun _ => rfl
  · exact fun hSame => hOther (Option.some.inj hSame)

theorem share_commitRevocation_other {other : String} {result : Unit} (hOther : other ≠ tenantId)
    (hReturns : access.commitRevocation p keyring other orderId currentToken timestamp =
      .ok (after, result)) : accessShare tenantId after = accessShare tenantId access := by
  obtain ⟨row, _, hRow, rfl, -, -, hRows, rfl⟩ := commitRevocation_ok hReturns
  refine share_changed_other hRow hOther ?_ ?_ hRows
  · exact fun _ => rfl
  · exact fun hSame => hOther (Option.some.inj hSame)

end

end Usage

end Api

end VouchSpec
