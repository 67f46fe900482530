import VouchSpec.Api.Ownership
import VouchSpec.Commerce.Origin

/-! The calls that the API makes of the stores, beside those of the operator and
of the fulfillment, keep every row with its one owner. -/

namespace VouchSpec

open Access

namespace Api

variable (p : Platform) (keyring : Keyring)

namespace Usage

variable (usage : Usage)

/-- A call as the API makes it: the identifiers that it creates belong to the
tenant that it names. There is no Stripe adapter that binds payments. -/
def Admits : Shop.Call → Prop
  | .commerce (.createQuote _ quoteId _ _ _ _) => ∃ tenantId, usage.QuoteOf p keyring tenantId quoteId
  | .commerce (.createOrder quoteId idempotencyKey buyerReference _) =>
      usage.QuoteOf p keyring buyerReference quoteId ∧ usage.KeyOf p keyring buyerReference idempotencyKey
  | .commerce (.attachCheckout orderId checkoutId _ paymentId) =>
      FakePaymentProvider.paymentId p orderId = .ok checkoutId ∧ paymentId = none
  | .commerce (.bindProviderPayment _ _ _ _) => False
  | .bindQuote tenantId quoteId _ _ _ => usage.QuoteOf p keyring tenantId quoteId
  | _ => True

/-- What the origin of an order owes to its owner. -/
structure Owns (origin : Origin) : Prop where
  quote : usage.QuoteOf p keyring origin.buyerReference origin.quoteId
  key : usage.KeyOf p keyring origin.buyerReference origin.idempotencyKey
  order : usage.OrderOf p keyring origin.buyerReference origin.orderId
  payment : ∀ text, origin.checkoutId = some text ∨ origin.paymentId = some text →
    FakePaymentProvider.paymentId p origin.orderId = .ok text

/-- Every row has its one owner. -/
structure Partitioned (shop : Shop) : Prop where
  environment : shop.commerce.environment = usage.environment
  quotes : ∀ row ∈ shop.commerce.quotes.rows, ∃ tenantId, usage.QuoteOf p keyring tenantId row.quoteId
  orders : ∀ row ∈ shop.commerce.orders.rows, usage.Owns p keyring row.origin
  bindings : ∀ row ∈ shop.access.quoteBindings.rows, usage.QuoteOf p keyring row.tenantId row.quoteId

/-- A file that was filled by calls as the API, the operator and the
fulfillment make them. -/
def Filled (shop : Shop) : Prop :=
  ∃ calls, Runs.Meets (Shop.step p keyring) (fun _ call => usage.Admits p keyring call)
    (Shop.empty usage.environment) calls ∧ Runs.run (Shop.step p keyring) (Shop.empty usage.environment)
      calls = shop

variable {p keyring usage} {shop after : Shop}

theorem empty_partitioned : usage.Partitioned p keyring (Shop.empty usage.environment) where
  environment := rfl
  quotes _ h := by cases h
  orders _ h := by cases h
  bindings _ h := by cases h

/-- The orders keep their owners with their origins. -/
theorem Partitioned.sameOrigins (partitioned : usage.Partitioned p keyring shop) {commerce : Commerce}
    (same : shop.commerce.SameOrigins commerce) :
    usage.Partitioned p keyring { shop with commerce } where
  environment := same.environment.trans partitioned.environment
  quotes row hRow := partitioned.quotes row (same.quotes ▸ hRow)
  orders row hRow := by
    obtain ⟨old, hOld, hOrigin⟩ := same.mem hRow
    exact hOrigin ▸ partitioned.orders old hOld
  bindings := partitioned.bindings

theorem Partitioned.createQuote (partitioned : usage.Partitioned p keyring shop) {commerce : Commerce}
    {requestValue : Json} {quoteId : String} {generatedAt : DateTime} {paymentProvider drawn : String}
    {liveCheckoutEnabled : Bool} {quote : Quote}
    (hOwner : ∃ tenantId, usage.QuoteOf p keyring tenantId quoteId)
    (hReturns : shop.commerce.createQuote p requestValue quoteId generatedAt paymentProvider
      liveCheckoutEnabled drawn = .ok (commerce, quote)) :
    usage.Partitioned p keyring { shop with commerce } := by
  rcases Commerce.createQuote_origin hReturns with rfl | ⟨row, quotes, hInsert, rfl, rfl⟩
  · exact partitioned
  · refine ⟨partitioned.environment, ?_, partitioned.orders, partitioned.bindings⟩
    intro stored hStored
    rw [(Table.insert?_eq_some.mp hInsert).2] at hStored
    rcases List.mem_append.mp hStored with hOld | hNew
    · exact partitioned.quotes stored hOld
    · rw [List.mem_singleton.mp hNew]
      exact hOwner

theorem Partitioned.createOrder (partitioned : usage.Partitioned p keyring shop) {commerce : Commerce}
    {quoteId idempotencyKey buyerReference : String} {now : DateTime} {view : OrderView}
    (hQuote : usage.QuoteOf p keyring buyerReference quoteId)
    (hKey : usage.KeyOf p keyring buyerReference idempotencyKey)
    (hReturns : shop.commerce.createOrder p quoteId idempotencyKey buyerReference now =
      .ok (commerce, view)) :
    usage.Partitioned p keyring { shop with commerce } := by
  rcases Commerce.createOrder_origin hReturns with rfl | ⟨order, orders, row, hInsert, hOrigin, -, rfl⟩
  · exact partitioned
  · refine ⟨partitioned.environment, partitioned.quotes, ?_, partitioned.bindings⟩
    intro stored hStored
    change stored ∈ orders.rows at hStored
    rw [(Table.insert?_eq_some.mp hInsert).2] at hStored
    rcases List.mem_append.mp hStored with hOld | hNew
    · exact partitioned.orders stored hOld
    · rw [List.mem_singleton.mp hNew, hOrigin]
      refine ⟨hQuote, hKey, ?_, fun text hText => by rcases hText with hText | hText <;> cases hText⟩
      have hOrder := orderOf_of hQuote hKey
      rw [← partitioned.environment] at hOrder
      exact hOrder

theorem Partitioned.attachCheckout (partitioned : usage.Partitioned p keyring shop) {commerce : Commerce}
    {orderId checkoutId occurredAt : String} {view : OrderView}
    (hPayment : FakePaymentProvider.paymentId p orderId = .ok checkoutId)
    (hReturns : shop.commerce.attachCheckout p orderId checkoutId occurredAt none = .ok (commerce, view)) :
    usage.Partitioned p keyring { shop with commerce } := by
  rcases Commerce.attachCheckout_origin hReturns with
    rfl | ⟨orders, row, payment, hRows, hBound, -, rfl⟩
  · exact partitioned
  · refine ⟨partitioned.environment, partitioned.quotes, ?_, partitioned.bindings⟩
    intro stored hStored
    change stored ∈ orders.rows at hStored
    rw [hRows, Table.mem_changed] at hStored
    rcases hStored with ⟨old, hOld, hSelected, rfl⟩ | ⟨hOld, -⟩
    · have owns := partitioned.orders old hOld
      refine ⟨owns.quote, owns.key, owns.order, ?_⟩
      obtain rfl := of_decide_eq_true hSelected
      intro text hText
      have hSame : checkoutId = text := by
        rcases hText with hText | hText
        · exact Option.some.inj hText
        · change payment = some text at hText
          rcases hBound with rfl | rfl
          · exact Option.some.inj hText
          · cases hText
      exact hSame ▸ hPayment
    · exact partitioned.orders stored hOld

/-- An admitted call of the commerce store keeps the owners. -/
theorem Partitioned.commerce (partitioned : usage.Partitioned p keyring shop) {call : Commerce.Call}
    {commerce : Commerce} (hAdmits : usage.Admits p keyring (.commerce call))
    (hCommitted : shop.commerce.committed p call = .ok commerce) :
    usage.Partitioned p keyring { shop with commerce } := by
  cases call <;> simp only [Commerce.committed, Except.map_eq_ok_iff, Prod.exists] at hCommitted
  all_goals obtain ⟨_, _, hReturns, rfl⟩ := hCommitted
  case createQuote => exact partitioned.createQuote hAdmits hReturns
  case createOrder => exact partitioned.createOrder hAdmits.1 hAdmits.2 hReturns
  case attachCheckout =>
    obtain ⟨hPayment, rfl⟩ := hAdmits
    exact partitioned.attachCheckout hPayment hReturns
  case bindProviderPayment => exact hAdmits.elim
  case ingestProviderEvent =>
    exact partitioned.sameOrigins (Commerce.ingestProviderEvent_sameOrigins hReturns)
  case recordDirectCosts =>
    exact partitioned.sameOrigins (Commerce.recordDirectCosts_sameOrigins hReturns)
  case beginFulfillment =>
    exact partitioned.sameOrigins (Commerce.transitionOrder_sameOrigins hReturns)
  case deliver => exact partitioned.sameOrigins (Commerce.deliver_sameOrigins hReturns)
  case failFulfillment =>
    exact partitioned.sameOrigins (Commerce.transitionOrder_sameOrigins hReturns)

/-- A move of the access store binds no quote, or the one that it was called for. -/
theorem Partitioned.sameBindings (partitioned : usage.Partitioned p keyring shop) {access : Access}
    (hBindings : access.quoteBindings = shop.access.quoteBindings) :
    usage.Partitioned p keyring { shop with access } :=
  ⟨partitioned.environment, partitioned.quotes, partitioned.orders,
    fun row hRow => partitioned.bindings row (hBindings ▸ hRow)⟩

theorem Partitioned.bindQuote (partitioned : usage.Partitioned p keyring shop) {access : Access}
    {tenantId quoteId idempotencyKey : String} {createdAt : Option String} {utcNow : Int} {result : Unit}
    (hOwner : usage.QuoteOf p keyring tenantId quoteId)
    (hReturns : shop.access.bindQuote p keyring shop.commerce tenantId quoteId idempotencyKey createdAt
      utcNow = .ok (access, result)) :
    usage.Partitioned p keyring { shop with access } := by
  obtain ⟨-, -, -, -, -, ⟨_, -, -, -, rfl⟩ | ⟨-, bindings, hInsert, rfl⟩⟩ := bindQuote_eq_ok.mp hReturns
  · exact partitioned
  · refine ⟨partitioned.environment, partitioned.quotes, partitioned.orders, ?_⟩
    intro row hRow
    change row ∈ bindings.rows at hRow
    rw [(Table.insert?_eq_some.mp hInsert).2] at hRow
    rcases List.mem_append.mp hRow with hOld | hNew
    · exact partitioned.bindings row hOld
    · rw [List.mem_singleton.mp hNew]
      exact hOwner

/-- Every admitted call keeps the owners. -/
theorem Partitioned.step (partitioned : usage.Partitioned p keyring shop) {call : Shop.Call}
    (hAdmits : usage.Admits p keyring call) : usage.Partitioned p keyring (shop.step p keyring call) := by
  unfold Shop.step
  split
  swap
  · exact partitioned
  next after event hReturns =>
  cases call <;> simp only [Shop.perform, Except.bind_eq_ok_iff, Except.pure_eq_ok_iff, Prod.mk.injEq,
    Prod.exists] at hReturns
  case commerce =>
    obtain ⟨_, hCommitted, rfl, -⟩ := hReturns
    exact partitioned.commerce hAdmits hCommitted
  case provisionTenant =>
    obtain ⟨_, _, _, hRun, rfl, -⟩ := hReturns
    obtain ⟨-, -, _, _, -, rfl⟩ := provisionTenant_ok hRun
    exact partitioned.sameBindings rfl
  case rotateApiKey =>
    obtain ⟨_, _, hRun, rfl, -⟩ := hReturns
    obtain ⟨-, -, _, _, -, rfl⟩ := rotateApiKey_ok hRun
    exact partitioned.sameBindings rfl
  case revokeTenant =>
    obtain ⟨_, _, hRun, rfl, -⟩ := hReturns
    obtain ⟨-, _, _, -, rfl⟩ := revokeTenant_ok hRun
    exact partitioned.sameBindings rfl
  case bindQuote =>
    obtain ⟨_, _, hRun, rfl, -⟩ := hReturns
    exact partitioned.bindQuote hAdmits hRun
  case bindOrder =>
    obtain ⟨_, _, hRun, rfl, -⟩ := hReturns
    obtain ⟨-, ⟨_, -, -, -, -, -, -, rfl⟩ | ⟨-, _, -, -, rfl⟩⟩ := bindOrder_eq_ok.mp hRun
    · exact partitioned
    · exact partitioned.sameBindings rfl
  case commitRotation =>
    obtain ⟨_, _, hRun, rfl, -⟩ := hReturns
    obtain ⟨_, _, -, -, -, -, -, -, rfl⟩ := commitRotation_ok hRun
    exact partitioned.sameBindings rfl
  case commitRevocation =>
    obtain ⟨_, _, hRun, rfl, -⟩ := hReturns
    obtain ⟨_, _, -, -, -, -, -, rfl⟩ := commitRevocation_ok hRun
    exact partitioned.sameBindings rfl
  case publishResult =>
    obtain ⟨_, _, hRun, rfl, -⟩ := hReturns
    obtain ⟨-, -, -, -, -, _, -, ⟨-, rfl⟩ | ⟨-, _, -, rfl⟩⟩ := publishResult_eq_ok.mp hRun
    · exact partitioned
    · exact partitioned.sameBindings rfl

/-- What holds of a file that is used through the API only. -/
structure Sound (usage : Usage) (p : Platform) (keyring : Keyring) (shop : Shop) : Prop where
  wellFormed : shop.WellFormed p keyring
  partitioned : usage.Partitioned p keyring shop

theorem Sound.step (sound : usage.Sound p keyring shop) {call : Shop.Call}
    (hAdmits : usage.Admits p keyring call) : usage.Sound p keyring (shop.step p keyring call) :=
  ⟨(Shop.step_wellFormed_continues sound.wellFormed call).1, sound.partitioned.step hAdmits⟩

/-- A returning call leaves the state of its step. -/
theorem Sound.perform (sound : usage.Sound p keyring shop) {call : Shop.Call} {event : Shop.Event}
    (hAdmits : usage.Admits p keyring call) (hReturns : shop.perform p keyring call = .ok (after, event)) :
    usage.Sound p keyring after := by
  have hStep : shop.step p keyring call = after := by
    unfold Shop.step
    rw [hReturns]
  exact hStep ▸ sound.step hAdmits

theorem Filled.sound (filled : usage.Filled p keyring shop) : usage.Sound p keyring shop := by
  obtain ⟨calls, meets, rfl⟩ := filled
  exact meets.invariant (usage.Sound p keyring) (fun _ _ hAdmits sound => sound.step hAdmits)
    ⟨Shop.empty_wellFormed _, empty_partitioned⟩

section
variable (sound : usage.Sound p keyring shop)
include sound

/-- An order that is bound to a tenant is one of its own. -/
theorem Sound.orderOf (free : usage.CollisionFree p keyring) {row : OrderBinding}
    (hRow : row ∈ shop.access.orderBindings.rows) :
    usage.QuoteOf p keyring row.tenantId row.quoteId ∧
      usage.OrderOf p keyring row.tenantId row.orderId := by
  have bound := sound.wellFormed.orders (orderBinding?_eq_some.mpr ⟨hRow, rfl⟩)
  obtain ⟨binding, hBinding, hTenant⟩ := bound.quote
  obtain ⟨order, hOrder, hQuote⟩ := bound.order
  obtain ⟨hStored, hId⟩ := quoteBinding?_eq_some.mp hBinding
  have hOwner : usage.QuoteOf p keyring row.tenantId row.quoteId := by
    rw [← hTenant, ← hId]
    exact sound.partitioned.bindings binding hStored
  obtain ⟨hPlaced, hOrderId⟩ := Commerce.order?_eq_some.mp hOrder
  have owns := sound.partitioned.orders order hPlaced
  have hBuyer : order.buyerReference = row.tenantId := by
    refine quoteOf_unique free ?_ hOwner
    have hOf := owns.quote
    change usage.QuoteOf p keyring order.buyerReference order.quoteId at hOf
    rwa [hQuote] at hOf
  have hOf := owns.order
  change usage.OrderOf p keyring order.buyerReference order.orderId at hOf
  rw [hBuyer, hOrderId] at hOf
  exact ⟨hOwner, hOf⟩

end

end Usage

end Api

end VouchSpec
