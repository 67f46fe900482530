import VouchSpec.Access.Effects
import VouchSpec.Library.Program

/-! The routes of the commerce API behind the HTTP framing. A request is what
is left of its headers and body; a header that is missing or doubled, or a body
that is refused, is the exception that it raises. Each call of a store is one
atomic step. -/

namespace VouchSpec

open Access

namespace Api

/-- The settings that the routes read. -/
structure Settings where
  maxQuotesPerTenant : Nat := 100
  maxOrdersPerTenant : Nat := 50
  paymentProvider : String := "fake"
  liveCheckoutEnabled : Bool := false

/-- The steps of a route. -/
abbrev Route (Value : Type) : Type := Program Shop Raised Value

/-- One operation of the commerce store. -/
def onCommerce {Value : Type} (operation : Commerce → Except Raised (Commerce × Value)) : Route Value :=
  Program.call fun shop => do
    let (commerce, value) ← operation shop.commerce
    return ({ shop with commerce }, value)

/-- One operation of the access store. -/
def onAccess {Value : Type} (operation : Shop → Except Raised (Access × Value)) : Route Value :=
  Program.call fun shop => do
    let (access, value) ← operation shop
    return ({ shop with access }, value)

/-- `_timestamp`. -/
def timestampOf (p : Platform) (now : DateTime) : Except Raised String := do
  require (now.aware = true) (.valueError "commerce API clock must be timezone-aware")
  return p.timestamp now.instant

/-- `_exact_object`; `keys` is written as Python writes the sorted list. -/
def exactObject (value : Json) (names : List String) (keys : String) : Except Raised Unit :=
  require (value.hasExactly names)
    (rejected ("request body must contain exactly " ++ keys) "invalid_commerce_request")

/-- `_public_order`. -/
structure PublicOrder where
  orderId : String
  environment : Environment
  quoteId : String
  orderStatus : OrderStatus
  paymentStatus : PaymentStatus
  quotedAmountMinor : Nat
  collectedAmountMinor : Nat
  refundedAmountMinor : Nat
  currency : String
  receiptId : Option String
  receiptSha256 : Option String
  envelopeSha256 : Option String
  signingKeyid : Option String
  deliveryStatus : DeliveryStatus
  refundStatus : String
  settlementStatus : String
  countsForGoal : Bool
  createdAt : String
  updatedAt : String
deriving DecidableEq

def publicOrder (view : OrderView) : PublicOrder where
  orderId := view.orderId
  environment := view.environment
  quoteId := view.quoteId
  orderStatus := view.orderStatus
  paymentStatus := view.paymentStatus
  quotedAmountMinor := view.quotedAmountMinor
  collectedAmountMinor := view.collectedAmountMinor
  refundedAmountMinor := view.refundedAmountMinor
  currency := view.currency
  receiptId := view.receiptId
  receiptSha256 := view.receiptSha256
  envelopeSha256 := view.envelopeSha256
  signingKeyid := view.signingKeyid
  deliveryStatus := view.deliveryStatus
  refundStatus := view.refundStatus
  settlementStatus := view.settlementStatus
  countsForGoal := view.countsForGoal
  createdAt := view.createdAt
  updatedAt := view.updatedAt

/-- The answer to a created order; its notice and the sandbox payment are constants. -/
structure CreatedOrder where
  order : PublicOrder
  deliveryToken : String
  deliveryTokenExpiresAt : String
deriving DecidableEq

structure RotatedToken where
  orderId : String
  deliveryToken : String
  deliveryTokenExpiresAt : String
deriving DecidableEq

inductive Reply where
  | quote (quote : Quote)
  | created (order : CreatedOrder)
  | order (order : PublicOrder)
  | result (body : Bytes) (etag : String)
  | rotated (token : RotatedToken)
  | revoked (orderId : String)
deriving DecidableEq

def Reply.status : Reply → Nat
  | quote _ => 201
  | created _ => 201
  | _ => 200

inductive Action where
  | postQuote (body : Except Raised Json) (idempotencyKey : Except Raised String)
  | postOrder (body : Except Raised Json) (idempotencyKey : Except Raised String)
  | getOrder (orderId : String) (deliveryToken : Except Raised String)
  | getResult (orderId : String) (deliveryToken : Except Raised String)
  | rotateToken (orderId : String) (body : Except Raised Json) (deliveryToken : Except Raised String)
  | revokeToken (orderId : String) (body : Except Raised Json) (deliveryToken : Except Raised String)

/-- A request: the bearer credential, the clock reading and the route. -/
structure Request where
  credential : Except Raised String
  now : DateTime
  action : Action

variable (p : Platform) (keyring : Keyring) (settings : Settings)

/-- `_authenticate`. -/
def authenticate (credential : Except Raised String) : Route String := do
  let apiKey ← Program.check credential
  Program.read fun shop => shop.access.authenticateApiKey p keyring shop.commerce apiKey

private def limitReached (resource : String) : Raised :=
  rejected ("tenant " ++ resource ++ " storage limit reached") "resource_limit"

/-- The quotes of a tenant are counted when the quote is not yet one of them. -/
def checkQuoteLimit (tenantId quoteId : String) : Route Unit := do
  let owned ← Program.read fun shop => .ok (shop.access.quoteOwned tenantId quoteId)
  if owned then pure ()
  else Program.read fun shop => do
    let counts ← shop.access.tenantResourceCounts tenantId
    require (counts.quotes < settings.maxQuotesPerTenant) (limitReached "quote")

/-- An orderable quote is bound to the tenant. -/
def bindOrderable (tenantId idempotencyKey timestamp : String) (now : DateTime) (quote : Quote)
    (quoteId : String) : Route Unit :=
  if quote.orderable then
    onAccess fun shop => shop.access.bindQuote p keyring shop.commerce tenantId quoteId idempotencyKey
      (some timestamp) now.instant
  else pure ()

/-- `POST /v1/commerce/quotes`. -/
def postQuote (tenantId : String) (now : DateTime) (body : Except Raised Json)
    (key : Except Raised String) : Route Quote := do
  let timestamp ← Program.check (timestampOf p now)
  let request ← Program.check body
  let idempotencyKey ← Program.check key
  let quoteId ← Program.check (deriveQuoteId p keyring tenantId idempotencyKey)
  checkQuoteLimit settings tenantId quoteId
  let quote ← onCommerce fun db =>
    db.createQuote p request quoteId now settings.paymentProvider settings.liveCheckoutEnabled ""
  bindOrderable p keyring tenantId idempotencyKey timestamp now quote quoteId
  return quote

/-- The orders of a tenant are counted when the quote has none of them. -/
def checkOrderLimit (tenantId quoteId : String) : Route Unit := do
  let existing ← Program.read fun shop => .ok (shop.access.orderForQuote tenantId quoteId)
  if existing.isSome then pure ()
  else Program.read fun shop => do
    let counts ← shop.access.tenantResourceCounts tenantId
    require (counts.orders < settings.maxOrdersPerTenant) (limitReached "order")

/-- The quote that the body of an order names. -/
def orderedQuote (body : Json) : Except Raised String := do
  exactObject body ["quote_id"] "['quote_id']"
  Except.ofOption (rejected "quote_id must be a string" "invalid_commerce_request")
    ((body.get? "quote_id").bind Json.str?)

/-- `POST /v1/commerce/orders` of an API with the sandbox provider. -/
def postOrder (tenantId : String) (now : DateTime) (body : Except Raised Json)
    (key : Except Raised String) : Route CreatedOrder := do
  let timestamp ← Program.check (timestampOf p now)
  let value ← Program.check body
  let quoteId ← Program.check (orderedQuote value)
  let idempotencyKey ← Program.check key
  let internalKey ← Program.check (deriveOrderIdempotencyKey p keyring tenantId idempotencyKey)
  Program.read fun shop => shop.access.authorizeQuote tenantId quoteId
  checkOrderLimit settings tenantId quoteId
  let order ← onCommerce fun db => db.createOrder p quoteId internalKey tenantId now
  let token ← onAccess fun shop =>
    shop.access.bindOrder p keyring shop.commerce tenantId order.orderId quoteId (some timestamp) now.instant
  let state ← Program.read fun shop =>
    shop.access.authorizeOrder p keyring tenantId order.orderId token (some now) now.instant
  let attached ← onCommerce fun db => FakePaymentProvider.createCheckout p db order.orderId timestamp
  return { order := publicOrder attached, deliveryToken := token
           deliveryTokenExpiresAt := state.tokenExpiresAt }

/-- `GET /v1/commerce/orders/{order_id}`. -/
def getOrder (tenantId : String) (now : DateTime) (orderId : String)
    (deliveryToken : Except Raised String) : Route PublicOrder := do
  let token ← Program.check deliveryToken
  let _ ← Program.read fun shop =>
    shop.access.authorizeOrder p keyring tenantId orderId token (some now) now.instant
  let view ← Program.read fun shop => shop.commerce.getOrder orderId
  return publicOrder view

/-- The read of `get_result` after its own check. -/
def storedResult (access : Access) (tenantId orderId : String) : Except Raised Bytes := do
  let result ← Except.ofOption (rejected "delivery result is not ready" "result_not_ready")
    (((access.orderBinding? orderId).filter fun row => row.tenantId = tenantId).bind OrderBinding.result)
  return result.body

/-- `GET /v1/commerce/orders/{order_id}/result`. -/
def getResult (tenantId : String) (now : DateTime) (orderId : String)
    (deliveryToken : Except Raised String) : Route (Bytes × String) := do
  let token ← Program.check deliveryToken
  let _ ← Program.read fun shop =>
    shop.access.authorizeOrder p keyring tenantId orderId token (some now) now.instant
  let _ ← Program.read fun shop =>
    shop.access.authorizeOrder p keyring tenantId orderId token (some now) now.instant
  let body ← Program.read fun shop => storedResult shop.access tenantId orderId
  return (body, "sha256:" ++ (p.sha256 body).hexdigest)

/-- `POST /v1/commerce/orders/{order_id}/delivery-token/rotate`. -/
def rotateToken (tenantId : String) (now : DateTime) (orderId : String) (body : Except Raised Json)
    (deliveryToken : Except Raised String) : Route RotatedToken := do
  let timestamp ← Program.check (timestampOf p now)
  let value ← Program.check body
  Program.check (exactObject value [] "[]")
  let current ← Program.check deliveryToken
  let (updatedAt, updated) ← Program.read fun shop =>
    shop.access.authorizeChange p keyring tenantId orderId current (some timestamp) now.instant
  let token ← onAccess fun shop =>
    shop.access.commitRotation p keyring shop.commerce tenantId orderId current updatedAt updated
  let state ← Program.read fun shop =>
    shop.access.authorizeOrder p keyring tenantId orderId token (some now) now.instant
  return { orderId, deliveryToken := token, deliveryTokenExpiresAt := state.tokenExpiresAt }

/-- `POST /v1/commerce/orders/{order_id}/delivery-token/revoke`. -/
def revokeToken (tenantId : String) (now : DateTime) (orderId : String) (body : Except Raised Json)
    (deliveryToken : Except Raised String) : Route String := do
  let timestamp ← Program.check (timestampOf p now)
  let value ← Program.check body
  Program.check (exactObject value [] "[]")
  let current ← Program.check deliveryToken
  let (updatedAt, _) ← Program.read fun shop =>
    shop.access.authorizeChange p keyring tenantId orderId current (some timestamp) now.instant
  onAccess fun shop =>
    shop.access.commitRevocation p keyring tenantId orderId current updatedAt
  return orderId

/-- What an authenticated tenant's request does. -/
def serve (tenantId : String) (now : DateTime) : Action → Route Reply
  | .postQuote body key => Reply.quote <$> postQuote p keyring settings tenantId now body key
  | .postOrder body key => Reply.created <$> postOrder p keyring settings tenantId now body key
  | .getOrder orderId token => Reply.order <$> getOrder p keyring tenantId now orderId token
  | .getResult orderId token =>
      (fun (body, etag) => Reply.result body etag) <$> getResult p keyring tenantId now orderId token
  | .rotateToken orderId body token =>
      Reply.rotated <$> rotateToken p keyring tenantId now orderId body token
  | .revokeToken orderId body token =>
      Reply.revoked <$> revokeToken p keyring tenantId now orderId body token

/-- A request from its credential to its reply. -/
def handle (request : Request) : Route Reply := do
  let tenantId ← authenticate p keyring request.credential
  serve p keyring settings tenantId request.now request.action

/-- A response: its status, and its reply or an error with code and message. -/
inductive Response where
  | reply (reply : Reply)
  | error (status : Nat) (code message : String)
deriving DecidableEq

def Response.status : Response → Nat
  | .reply value => value.status
  | .error status _ _ => status

/-- `str(error)[:200]`. -/
def shortened (message : String) : String := String.ofList (message.toList.take 200)

/-- `_handle_error`, without the headers. -/
def handleError : Raised → Response
  | .inputRejected message code =>
      if code = "authentication_failed" then .error 401 code "authentication failed"
      else if code ∈ ["authorization_failed", "object_not_found", "unknown_order"] then
        .error 404 "not_found" "resource not found"
      else if code = "rate_limited" then .error 429 code "request rate exceeded"
      else if code ∈ ["stripe_api_error", "stripe_event_processing"] then
        .error 503 "stripe_temporarily_unavailable" "payment processing is temporarily unavailable"
      else if code ∈ ["invalid_webhook_signature", "invalid_stripe_event", "invalid_stripe_object"] then
        .error 400 "invalid_stripe_webhook" "webhook was rejected"
      else if code = "stripe_event_conflict" then
        .error 409 code "webhook event conflicts with recorded state"
      else if code ∈ ["idempotency_conflict", "quote_already_used", "result_not_ready",
          "resource_limit"] then .error 409 code (shortened message)
      else if code = "commerce_live_not_enabled" then .error 503 code "live commerce is not enabled"
      else .error 422 code (shortened message)
  | _ => .error 500 "internal_error" "commerce request failed"

def respond : Except Raised Reply → Response
  | .ok reply => .reply reply
  | .error error => handleError error

section
variable {p : Platform} {keyring : Keyring} {settings : Settings} {shop after : Shop}

@[simp] theorem returns_onCommerce {Value : Type} {operation : Commerce → Except Raised (Commerce × Value)}
    {value : Value} : (onCommerce operation).run.Returns shop value after ↔
      ∃ commerce, operation shop.commerce = .ok (commerce, value) ∧ after = { shop with commerce } := by
  simp only [onCommerce, Program.run_call, Routine.returns_transaction, Except.bind_eq_ok_iff,
    Except.pure_eq_ok_iff, Prod.mk.injEq, Prod.exists]
  constructor
  · rintro ⟨commerce, _, hRun, rfl, rfl⟩
    exact ⟨commerce, hRun, rfl⟩
  · rintro ⟨commerce, hRun, rfl⟩
    exact ⟨commerce, value, hRun, rfl, rfl⟩

@[simp] theorem returns_onAccess {Value : Type} {operation : Shop → Except Raised (Access × Value)}
    {value : Value} : (onAccess operation).run.Returns shop value after ↔
      ∃ access, operation shop = .ok (access, value) ∧ after = { shop with access } := by
  simp only [onAccess, Program.run_call, Routine.returns_transaction, Except.bind_eq_ok_iff,
    Except.pure_eq_ok_iff, Prod.mk.injEq, Prod.exists]
  constructor
  · rintro ⟨access, _, hRun, rfl, rfl⟩
    exact ⟨access, hRun, rfl⟩
  · rintro ⟨access, hRun, rfl⟩
    exact ⟨access, value, hRun, rfl, rfl⟩

/-- A counting check does not write. -/
theorem returns_checkQuoteLimit {tenantId quoteId : String} {result : Unit} :
    (checkQuoteLimit settings tenantId quoteId).run.Returns shop result after ↔
      shop = after ∧ (shop.access.quoteOwned tenantId quoteId = true ∨
        ∃ counts, shop.access.tenantResourceCounts tenantId = .ok counts ∧
          counts.quotes < settings.maxQuotesPerTenant) := by
  simp only [checkQuoteLimit, Program.run_bind, Program.run_read, Routine.returns_bind,
    Routine.returns_reading, Except.ok.injEq]
  constructor
  · rintro ⟨_, _, ⟨rfl, rfl⟩, hRest⟩
    split at hRest
    · next hOwned => exact ⟨(Routine.returns_pure.mp hRest).2, Or.inl hOwned⟩
    · simp only [Program.run_read, Routine.returns_reading, Except.bind_eq_ok_iff,
        require_eq_ok] at hRest
      exact ⟨hRest.2, Or.inr hRest.1⟩
  · rintro ⟨rfl, hEither⟩
    refine ⟨_, _, ⟨rfl, rfl⟩, ?_⟩
    split
    · exact Routine.returns_pure.mpr ⟨rfl, rfl⟩
    · next hOther =>
        simp only [Program.run_read, Routine.returns_reading, Except.bind_eq_ok_iff, require_eq_ok]
        exact ⟨hEither.resolve_left hOther, trivial⟩

theorem returns_checkOrderLimit {tenantId quoteId : String} {result : Unit} :
    (checkOrderLimit settings tenantId quoteId).run.Returns shop result after ↔
      shop = after ∧ ((shop.access.orderForQuote tenantId quoteId).isSome = true ∨
        ∃ counts, shop.access.tenantResourceCounts tenantId = .ok counts ∧
          counts.orders < settings.maxOrdersPerTenant) := by
  simp only [checkOrderLimit, Program.run_bind, Program.run_read, Routine.returns_bind,
    Routine.returns_reading, Except.ok.injEq]
  constructor
  · rintro ⟨_, _, ⟨rfl, rfl⟩, hRest⟩
    split at hRest
    · next hExisting => exact ⟨(Routine.returns_pure.mp hRest).2, Or.inl hExisting⟩
    · simp only [Program.run_read, Routine.returns_reading, Except.bind_eq_ok_iff,
        require_eq_ok] at hRest
      exact ⟨hRest.2, Or.inr hRest.1⟩
  · rintro ⟨rfl, hEither⟩
    refine ⟨_, _, ⟨rfl, rfl⟩, ?_⟩
    split
    · exact Routine.returns_pure.mpr ⟨rfl, rfl⟩
    · next hOther =>
        simp only [Program.run_read, Routine.returns_reading, Except.bind_eq_ok_iff, require_eq_ok]
        exact ⟨hEither.resolve_left hOther, trivial⟩

/-- An authenticated request is served for its tenant. -/
theorem returns_handle {request : Request} {reply : Reply} :
    (handle p keyring settings request).run.Returns shop reply after ↔
      ∃ apiKey tenantId, request.credential = .ok apiKey ∧
        shop.access.authenticateApiKey p keyring shop.commerce apiKey = .ok tenantId ∧
        (serve p keyring settings tenantId request.now request.action).run.Returns shop reply after := by
  simp only [handle, authenticate, Program.run_bind, Program.run_check, Program.run_read,
    Routine.returns_bind, Routine.returns_reading]
  constructor
  · rintro ⟨tenantId, _, ⟨apiKey, _, ⟨hCredential, rfl⟩, hTenant, rfl⟩, hServe⟩
    exact ⟨apiKey, tenantId, hCredential, hTenant, hServe⟩
  · rintro ⟨apiKey, tenantId, hCredential, hTenant, hServe⟩
    exact ⟨tenantId, shop, ⟨apiKey, shop, ⟨hCredential, rfl⟩, hTenant, rfl⟩, hServe⟩

end

section
variable (p : Platform) (keyring : Keyring) (settings : Settings)

/-- A transaction of one of the stores is a call of the system. -/
theorem follows_call {Value : Type} {body : Shop → Except Raised (Shop × Value)}
    (hCall : ∀ shop after value, body shop = .ok (after, value) →
      ∃ call event, shop.perform p keyring call = .ok (after, event)) :
    Program.Follows (Runs.Reaches (Shop.step p keyring)) (Program.call body) := by
  apply Program.Follows.call (Runs.Reaches.refl)
  intro shop after value hBody
  obtain ⟨call, event, hRun⟩ := hCall shop after value hBody
  have hStep : shop.step p keyring call = after := by
    unfold Shop.step
    rw [hRun]
  exact hStep ▸ .single shop call

theorem follows_onCommerce {Value : Type} {operation : Commerce → Except Raised (Commerce × Value)}
    (hCall : ∀ db after value, operation db = .ok (after, value) →
      ∃ call, db.committed p call = .ok after) :
    Program.Follows (Runs.Reaches (Shop.step p keyring)) (onCommerce operation) := by
  apply follows_call
  intro shop after value hBody
  simp only [Except.bind_eq_ok_iff, Except.pure_eq_ok_iff, Prod.mk.injEq, Prod.exists] at hBody
  obtain ⟨commerce, _, hRun, rfl, -⟩ := hBody
  obtain ⟨call, hCommitted⟩ := hCall _ _ _ hRun
  refine ⟨.commerce call, .committed, ?_⟩
  simp only [Shop.perform, Except.bind_eq_ok_iff, Except.pure_eq_ok_iff]
  exact ⟨commerce, hCommitted, rfl⟩

theorem follows_read {Value : Type} (body : Shop → Except Raised Value) :
    Program.Follows (Runs.Reaches (Shop.step p keyring)) (Program.read body) :=
  .read Runs.Reaches.refl body

theorem follows_onAccess {Value : Type} {operation : Shop → Except Raised (Access × Value)}
    (hCall : ∀ shop access value, operation shop = .ok (access, value) →
      ∃ call event, shop.perform p keyring call = .ok ({ shop with access }, event)) :
    Program.Follows (Runs.Reaches (Shop.step p keyring)) (onAccess operation) := by
  apply follows_call
  intro shop after value hBody
  simp only [Except.bind_eq_ok_iff, Except.pure_eq_ok_iff, Prod.mk.injEq, Prod.exists] at hBody
  obtain ⟨access, _, hRun, rfl, -⟩ := hBody
  exact hCall _ _ _ hRun

theorem follows_postQuote (tenantId : String) (now : DateTime) (body : Except Raised Json)
    (key : Except Raised String) : Program.Follows (Runs.Reaches (Shop.step p keyring))
      (postQuote p keyring settings tenantId now body key) := by
  apply Program.Follows.andThen (.check _) fun timestamp => ?_
  apply Program.Follows.andThen (.check _) fun request => ?_
  apply Program.Follows.andThen (.check _) fun idempotencyKey => ?_
  apply Program.Follows.andThen (.check _) fun quoteId => ?_
  apply Program.Follows.andThen _ fun _ => ?_
  · apply Program.Follows.andThen (follows_read p keyring _) fun owned => ?_
    split
    · exact .ended _
    · exact follows_read p keyring _
  apply Program.Follows.andThen _ fun quote => ?_
  · apply follows_onCommerce
    intro db after quote hRun
    refine ⟨.createQuote request quoteId now settings.paymentProvider settings.liveCheckoutEnabled "", ?_⟩
    simp only [Commerce.committed, hRun]
    rfl
  apply Program.Follows.andThen _ fun _ => .ended _
  unfold bindOrderable
  split
  · apply follows_onAccess
    intro shop access value hRun
    refine ⟨.bindQuote tenantId quoteId idempotencyKey (some timestamp) now.instant, .committed, ?_⟩
    simp only [Shop.perform, Except.bind_eq_ok_iff, Except.pure_eq_ok_iff, Prod.exists]
    exact ⟨access, value, hRun, rfl⟩
  · exact .ended _

theorem follows_postOrder (tenantId : String) (now : DateTime) (body : Except Raised Json)
    (key : Except Raised String) : Program.Follows (Runs.Reaches (Shop.step p keyring))
      (postOrder p keyring settings tenantId now body key) := by
  apply Program.Follows.andThen (.check _) fun timestamp => ?_
  apply Program.Follows.andThen (.check _) fun value => ?_
  apply Program.Follows.andThen (.check _) fun quoteId => ?_
  apply Program.Follows.andThen (.check _) fun idempotencyKey => ?_
  apply Program.Follows.andThen (.check _) fun internalKey => ?_
  apply Program.Follows.andThen (follows_read p keyring _) fun _ => ?_
  apply Program.Follows.andThen _ fun _ => ?_
  · apply Program.Follows.andThen (follows_read p keyring _) fun existing => ?_
    split
    · exact .ended _
    · exact follows_read p keyring _
  apply Program.Follows.andThen _ fun order => ?_
  · apply follows_onCommerce
    intro db after order hRun
    refine ⟨.createOrder quoteId internalKey tenantId now, ?_⟩
    simp only [Commerce.committed, hRun]
    rfl
  apply Program.Follows.andThen _ fun token => ?_
  · apply follows_onAccess
    intro shop access token hRun
    refine ⟨.bindOrder tenantId order.orderId quoteId (some timestamp) now.instant,
      .tokenIssued tenantId order.orderId token, ?_⟩
    simp only [Shop.perform, Except.bind_eq_ok_iff, Except.pure_eq_ok_iff, Prod.exists]
    exact ⟨access, token, hRun, rfl⟩
  apply Program.Follows.andThen (follows_read p keyring _) fun state => ?_
  apply Program.Follows.andThen _ fun _ => .ended _
  apply follows_onCommerce
  intro db after view hRun
  unfold FakePaymentProvider.createCheckout at hRun
  simp only [Except.bind_eq_ok_iff] at hRun
  obtain ⟨paymentId, -, hAttach⟩ := hRun
  refine ⟨.attachCheckout order.orderId paymentId timestamp none, ?_⟩
  simp only [Commerce.committed, hAttach]
  rfl

end

end Api

end VouchSpec
