import VouchSpec.Commerce.Reconcile
import VouchSpec.Library.Runs

/-! The operations of the commerce store. Each is one transaction: it returns
the state to commit with its result, or raises and commits nothing. A clock
reading that the code takes itself is the argument `utcNow`. -/

namespace VouchSpec

namespace Pattern

def isBuyerMark (c : Char) : Bool := c.toNat = 43 || c.toNat = 58 || c.toNat = 64

def idempotency (text : String) : Bool := fullmatch Bytes.isUrlSafe 8 96 text.toList

def buyer (text : String) : Bool :=
  fullmatch (fun c => Bytes.isUrlSafe c || isDot c || isBuyerMark c) 8 128 text.toList

private def digest24 : List Char → Bool := fullmatch Bytes.isHexDigit 24 24

def eventId (text : String) : Bool :=
  afterPrefix "evt_" (fun rest => digest24 rest || afterPrefix "test_" digest24 rest) text.toList

def fakePaymentId (text : String) : Bool := afterPrefix "pay_test_" digest24 text.toList

def stripePaymentId (text : String) : Bool := afterPrefix "pi_" (fullmatch isAlnum 8 64) text.toList

/-- A checkout identifier with the prefix of its environment. -/
def stripeCheckoutId (environment : Environment) (text : String) : Bool :=
  afterPrefix (match environment with | .sandbox => "cs_test_" | .live => "cs_live_")
    (fullmatch isAlnum 8 128) text.toList

def sha256 (text : String) : Bool := fullmatch Bytes.isHexDigit 64 64 text.toList

def keyId (text : String) : Bool := fullmatch Bytes.isUrlSafe 43 43 text.toList

def receiptId (text : String) : Bool := afterPrefix "cpr_" digest24 text.toList

end Pattern

private def badRequest (message : String) : Raised := rejected message "invalid_commerce_request"
private def badEvent (message : String) : Raised := rejected message "invalid_commerce_event"
private def badDelivery (message : String) : Raised := rejected message "invalid_delivery"
private def conflict (message : String) : Raised := rejected message "idempotency_conflict"

/-- `value or _utc_now()`. -/
def orElseNow (p : Platform) (value : Option String) (utcNow : Int) : String :=
  match value with
  | some text => if text = "" then p.timestamp utcNow else text
  | none => p.timestamp utcNow

/-- `_parse_timestamp`. -/
def parseTimestamp (p : Platform) (value : String) : Except Raised Int :=
  p.parseTimestampAs "commerce timestamp" "invalid_commerce_event" value

def Provider.ofName (name : String) : Option Provider :=
  if name = "fake" then some .fake else if name = "stripe" then some .stripe else none

def EventType.ofName (name : String) : Option EventType :=
  EventType.all.find? fun type => type.value = name

theorem Provider.value_of_ofName {name : String} {provider : Provider}
    (hName : Provider.ofName name = some provider) : provider.value = name := by
  unfold Provider.ofName at hName
  split at hName
  · next hFake =>
      cases hName
      exact hFake.symm
  · split at hName
    · next hStripe =>
        cases hName
        exact hStripe.symm
    · cases hName

theorem EventType.value_of_ofName {name : String} {type : EventType}
    (hName : EventType.ofName name = some type) : type.value = name := by
  have hFound := List.find?_some hName
  exact of_decide_eq_true hFound

/-- The checkout option that an orderable quote offers. -/
def checkoutOption (provider : Provider) (environment : Environment) : List (String × String) :=
  match provider, environment with
  | .fake, _ => [("fake", "sandbox_only")]
  | .stripe, .sandbox => [("stripe_checkout", "test_mode")]
  | .stripe, .live => [("stripe_checkout", "live")]

/-- The quote that the store offers for checkout in place of a preview. -/
def Quote.offered (p : Platform) (preview : Quote) (provider : Provider) (environment : Environment)
    (generatedAt : DateTime) : Quote :=
  Quote.sealed p
    { preview with
      expiresAt := match provider with
        | .fake => preview.expiresAt
        | .stripe => p.timestamp (generatedAt.instant + minutes 30)
      quoteStatus := match provider, environment with
        | .fake, _ => "sandbox_orderable_nonsettling"
        | .stripe, .sandbox => "stripe_test_orderable_nonsettling"
        | .stripe, .live => "stripe_live_orderable_activation_acknowledged"
      availability := match provider, environment with
        | .fake, _ => "sandbox_fake_provider_only"
        | .stripe, .sandbox => "stripe_test_mode_only"
        | .stripe, .live => "stripe_live_account_configured"
      settlementAvailable := match provider, environment with
        | .stripe, .live => true
        | _, _ => false
      paymentOptions := checkoutOption provider environment
      orderable := true
      countsForGoal := some false }

/-- The provider that a quote's payment options name. -/
def Quote.provider (quote : Quote) : Option Provider :=
  if quote.paymentOptions = [("fake", "sandbox_only")] then some .fake
  else match quote.paymentOptions with
    | [option] => if option.1 = "stripe_checkout" then some .stripe else none
    | _ => none

namespace Commerce

variable (p : Platform) (db : Commerce)

/-- Change an order under its unique constraints; a violation is reported as
`error`. -/
def updateOrder (orderId : String) (change : OrderRow → OrderRow) (error : Raised) :
    Except Raised Commerce := do
  let orders ← Except.ofOption error (db.orders.update? (fun row => row.orderId = orderId) change)
  return { db with orders }

private def notActivated : Raised :=
  rejected "live orderable quotes are not activated" "commerce_live_not_enabled"

def createQuote (requestValue : Json) (quoteId : String) (generatedAt : DateTime)
    (paymentProvider : String) (liveCheckoutEnabled : Bool) (drawn : String) :
    Except Raised (Commerce × Quote) := do
  let provider ← Except.ofOption (badRequest "unsupported payment provider")
    (Provider.ofName paymentProvider)
  require (¬(provider = .fake ∧ db.environment ≠ .sandbox)) notActivated
  require (¬(db.environment = .live ∧ ¬(provider = .stripe ∧ liveCheckoutEnabled = true)))
    notActivated
  let request ← parseFreshValidationRequest requestValue
  let preview ← buildFreshValidationQuote p request.toJson generatedAt quoteId drawn true
  if preview.quoteStatus = "declined_max_price" then
    return (db, preview)
  else
    let quote := preview.offered p provider db.environment generatedAt
    match db.quote? quoteId with
    | some existing => do
        require (existing.request = request ∧ existing.quote = quote)
          (conflict "quote identifier was reused with different content")
        return (db, existing.quote)
    | none => do
        let quotes ← Except.ofOption .integrityError (db.quotes.insert?
          { quoteId, environment := db.environment, requestDigest := quote.requestDigest, request,
            quote, amountMinor := quote.amountMinor, currency := freshValidationCurrency,
            generatedAt := quote.generatedAt, expiresAt := quote.expiresAt, orderable := true,
            countsForGoal := false })
        return ({ db with quotes }, quote)

/-- The digest that names an order. -/
def orderIdFor (quoteId idempotencyKey buyerReference : String) : String :=
  (match db.environment with | .sandbox => "ord_test_" | .live => "ord_") ++
    (p.sha256 (Bytes.utf8 (quoteId.toList ++ Char.ofNat 0 ::
      (idempotencyKey.toList ++ Char.ofNat 0 :: buyerReference.toList)))).hexPrefix 24

/-- The row of a new order. -/
def newOrder (quote : QuoteRow) (provider : Provider) (idempotencyKey buyerReference : String)
    (timestamp : String) : OrderRow :=
  { orderId := db.orderIdFor p quote.quoteId idempotencyKey buyerReference
    environment := db.environment, quoteId := quote.quoteId, idempotencyKey, buyerReference, provider
    orderStatus := .checkoutPending, paymentStatus := .pending
    quotedAmountMinor := quote.amountMinor, currency := quote.currency
    deliveryStatus := .notStarted, countsForGoal := false
    createdAt := timestamp, updatedAt := timestamp }

def createOrder (quoteId idempotencyKey buyerReference : String) (now : DateTime) :
    Except Raised (Commerce × OrderView) := do
  require (Pattern.idempotency idempotencyKey) (badRequest "invalid order idempotency key")
  require (Pattern.buyer buyerReference) (badRequest "buyer_reference must be an opaque identifier")
  require (now.aware = true) (badRequest "order timestamp requires a timezone")
  let timestamp := p.timestamp now.instant
  match db.orderByIdempotencyKey? idempotencyKey with
  | some existing => do
      require (existing.quoteId = quoteId ∧ existing.buyerReference = buyerReference)
        (conflict "order idempotency key was reused")
      let view ← db.orderView existing.orderId
      return (db, view)
  | none => do
      let notOrderable := rejected "quote is missing or not orderable" "quote_not_orderable"
      let quote ← Except.ofOption notOrderable (db.quote? quoteId)
      require (quote.environment = db.environment ∧ quote.orderable = true) notOrderable
      let expiry ← parseTimestamp p quote.expiresAt
      require (now.instant < expiry) (rejected "quote has expired" "quote_expired")
      let noProvider := rejected "quote payment provider is invalid" "quote_not_orderable"
      let provider ← Except.ofOption noProvider quote.quote.provider
      require (¬(db.environment = .live ∧ provider ≠ .stripe)) noProvider
      let order := db.newOrder p quote provider idempotencyKey buyerReference timestamp
      let orders ← Except.ofOption (rejected "quote already has an order" "quote_already_used")
        (db.orders.insert? order)
      let after := { db with orders }.addHistory
        [{ orderId := order.orderId, change := .order none .checkoutPending,
           sourceReference := idempotencyKey, occurredAt := timestamp }]
      let view ← after.orderView order.orderId
      return (after, view)

/-- The identity checks of a checkout; the payment that it binds, if any. -/
def checkoutPayment (provider : Provider) (checkoutId : String) (paymentId : Option String) :
    Except Raised (Option String) :=
  match provider with
  | .fake => do
      require (db.environment = .sandbox ∧ Pattern.fakePaymentId checkoutId ∧
        (paymentId = none ∨ paymentId = some checkoutId)) (badRequest "fake checkout identity is invalid")
      return some checkoutId
  | .stripe => do
      require (Pattern.stripeCheckoutId db.environment checkoutId)
        (badRequest "Stripe checkout identity is invalid")
      require (∀ payment ∈ paymentId, Pattern.stripePaymentId payment)
        (badRequest "Stripe payment identity is invalid")
      return paymentId

def attachCheckout (orderId checkoutId : String) (occurredAt : String)
    (paymentId : Option String) : Except Raised (Commerce × OrderView) := do
  let _ ← parseTimestamp p occurredAt
  let order ← db.requireOrder orderId
  let payment ← db.checkoutPayment order.provider checkoutId paymentId
  match order.providerCheckoutId with
  | some attached => do
      require (attached = checkoutId ∧ (payment = none ∨ order.providerPaymentId = payment))
        (conflict "order already has a different payment")
      let view ← db.orderView orderId
      return (db, view)
  | none => do
      requireOrderTransition order.orderStatus .paymentPending
      let moved ← db.updateOrder orderId
        (fun row => { row with providerCheckoutId := some checkoutId, providerPaymentId := payment,
                               orderStatus := .paymentPending, updatedAt := occurredAt })
        (conflict "payment identifier is already bound")
      let after := moved.addHistory
        [{ orderId, change := .order (some order.orderStatus) .paymentPending,
           sourceReference := checkoutId, occurredAt }]
      let view ← after.orderView orderId
      return (after, view)

/-- Bind a retrieved payment to an attached checkout. -/
def bindProviderPayment (orderId paymentId checkoutId : String) (occurredAt : String) :
    Except Raised (Commerce × OrderView) := do
  require (Pattern.stripePaymentId paymentId) (badRequest "Stripe payment identity is invalid")
  let _ ← parseTimestamp p occurredAt
  let order ← db.requireOrder orderId
  require (order.provider = .stripe ∧ order.providerCheckoutId = some checkoutId)
    (conflict "Stripe checkout binding is invalid")
  match order.providerPaymentId with
  | some bound => do
      require (bound = paymentId) (conflict "order already has a different payment")
      let view ← db.orderView orderId
      return (db, view)
  | none => do
      let after ← db.updateOrder orderId
        (fun row => { row with providerPaymentId := some paymentId, updatedAt := occurredAt })
        (conflict "payment identifier is already bound")
      let view ← after.orderView orderId
      return (after, view)

/-- Membership of a value in a set of texts; lists and objects have no hash. -/
private def member {Found : Type} (value : Option Json) (ofName : String → Option Found)
    (error : Raised) : Except Raised Found :=
  match value with
  | some (.str name) => Except.ofOption error (ofName name)
  | some (.arr _) => .error .typeError
  | some (.obj _) => .error .typeError
  | _ => .error error

/-- A text member that meets a condition. -/
private def textMember (value : Json) (name : String) (accepts : String → Bool) (error : Raised) :
    Except Raised String := do
  let text ← Except.ofOption error ((value.get? name).bind Json.str?)
  require (accepts text) error
  return text

/-- An event amount: an integer, not a boolean, within the bound. -/
private def amountMember (value : Json) (name : String) : Except Raised Nat := do
  let error := badEvent "provider event amount is invalid"
  let amount ← Except.ofOption error ((value.get? name).bind Json.int?)
  require (0 ≤ amount ∧ amount ≤ 10000000) error
  return amount.toNat

/-- `_validate_event`. -/
def validateEvent (value : Json) : Except Raised ProviderEvent := do
  require (value.hasExactly ["schema_version", "provider", "environment", "event_id", "type",
    "payment_id", "amount_minor", "fee_minor", "currency", "occurred_at"])
    (badEvent "provider event fields are invalid")
  let identity := badEvent "provider event identity or environment is invalid"
  require (value.get? "schema_version" = some (.str "1.0.0")) identity
  let provider ← member (value.get? "provider") Provider.ofName identity
  require (value.get? "environment" = some (.str db.environment.value)) identity
  let eventId ← textMember value "event_id" Pattern.eventId identity
  let type ← member (value.get? "type") EventType.ofName identity
  let paymentId ← textMember value "payment_id" (fun _ => true) identity
  require (value.get? "currency" = some (.str freshValidationCurrency)) identity
  require (provider = .fake → db.environment = .sandbox ∧
      "evt_test_".toList.isPrefixOf eventId.toList ∧ Pattern.fakePaymentId paymentId)
    (badEvent "fake provider event identity is invalid")
  require (provider = .stripe → Pattern.stripePaymentId paymentId)
    (badEvent "Stripe provider event identity is invalid")
  let amountMinor ← amountMember value "amount_minor"
  let feeMinor ← amountMember value "fee_minor"
  require (feeMinor ≤ amountMinor) (badEvent "provider fee exceeds event amount")
  let occurredAt ← Except.ofOption (badEvent "commerce timestamp must be a string")
    ((value.get? "occurred_at").bind Json.str?)
  let _ ← parseTimestamp p occurredAt
  return { provider, environment := db.environment, eventId, type, paymentId, amountMinor, feeMinor,
           currency := freshValidationCurrency, occurredAt }

private theorem member_eq_ok {Found : Type} {value : Option Json} {ofName : String → Option Found}
    {error : Raised} {found : Found} (hMember : member value ofName error = .ok found) :
    ∃ name, value = some (.str name) ∧ ofName name = some found := by
  unfold member at hMember
  split at hMember
  · next name => exact ⟨name, rfl, Except.ofOption_eq_ok_iff.mp hMember⟩
  all_goals cases hMember

private theorem textMember_eq_ok {value : Json} {name text : String} {accepts : String → Bool}
    {error : Raised} (hMember : textMember value name accepts error = .ok text) :
    value.get? name = some (.str text) := by
  unfold textMember at hMember
  simp only [Except.bind_eq_ok_iff, Except.ofOption_eq_ok_iff, Except.pure_eq_ok_iff,
    Option.bind_eq_some_iff] at hMember
  obtain ⟨_, ⟨found, hFound, hText⟩, _, -, rfl⟩ := hMember
  rw [hFound, Json.str?_eq_some.mp hText]

private theorem amountMember_eq_ok {value : Json} {name : String} {amount : Nat}
    (hMember : amountMember value name = .ok amount) : value.get? name = some (.int amount) := by
  unfold amountMember at hMember
  simp only [Except.bind_eq_ok_iff, Except.ofOption_eq_ok_iff, Except.pure_eq_ok_iff,
    Option.bind_eq_some_iff, require_eq_ok] at hMember
  obtain ⟨number, ⟨found, hFound, hNumber⟩, _, ⟨hLeast, -⟩, rfl⟩ := hMember
  rw [hFound, Json.int?_eq_some.mp hNumber, Int.toNat_of_nonneg hLeast]

/-- The members of an accepted value are those of the event made of it. -/
theorem validateEvent_members {p : Platform} {db : Commerce} {value : Json} {event : ProviderEvent}
    (hValid : db.validateEvent p value = .ok event) :
    event.environment = db.environment ∧ event.currency = freshValidationCurrency ∧
      value.get? "provider" = some (.str event.provider.value) ∧
      value.get? "event_id" = some (.str event.eventId) ∧
      value.get? "type" = some (.str event.type.value) ∧
      value.get? "payment_id" = some (.str event.paymentId) ∧
      value.get? "amount_minor" = some (.int event.amountMinor) ∧
      value.get? "fee_minor" = some (.int event.feeMinor) ∧
      value.get? "occurred_at" = some (.str event.occurredAt) := by
  unfold validateEvent at hValid
  simp only [Except.bind_eq_ok_iff, Except.pure_eq_ok_iff, Except.ofOption_eq_ok_iff] at hValid
  obtain ⟨_, -, _, -, provider, hProvider, _, -, eventId, hId, type, hType, paymentId, hPayment, _, -,
    _, -, _, -, amount, hAmount, fee, hFee, _, -, occurredAt, hOccurred, _, -, rfl⟩ := hValid
  obtain ⟨providerName, hProviderMember, hProviderName⟩ := member_eq_ok hProvider
  obtain ⟨typeName, hTypeMember, hTypeName⟩ := member_eq_ok hType
  obtain ⟨found, hFound, hText⟩ := Option.bind_eq_some_iff.mp hOccurred
  refine ⟨rfl, rfl, ?_, textMember_eq_ok hId, ?_, textMember_eq_ok hPayment, amountMember_eq_ok hAmount,
    amountMember_eq_ok hFee, ?_⟩
  · rw [hProviderMember, Provider.value_of_ofName hProviderName]
  · rw [hTypeMember, EventType.value_of_ofName hTypeName]
  · rw [hFound, Json.str?_eq_some.mp hText]

/-- What the ingestion of an event reports. -/
structure Ingested where
  duplicate : Bool
  eventId : String
  eventStatus : EventStatus
  order : OrderView
deriving DecidableEq

/-- The row of an event that has just arrived. -/
def newEvent (event : ProviderEvent) (receivedAt : String) : EventRow :=
  { payload := event, payloadDigest := (p.sha256 event.payload).hexdigest, status := .pending,
    receivedAt }

/-- The transaction that stores a validated event and reconciles its payment. -/
def ingestEvent (event : ProviderEvent) (received : String) : Except Raised (Commerce × Ingested) :=
  match db.event? event.eventId with
  | some existing => do
      require (existing.payloadDigest = (p.sha256 event.payload).hexdigest)
        (rejected "provider event identifier was reused" "provider_event_conflict")
      let order ← Except.ofOption .typeError (db.orderByPayment? event.paymentId)
      let view ← db.orderView order.orderId
      return (db, { duplicate := true, eventId := event.eventId, eventStatus := existing.status,
                    order := view })
  | none => do
      let order ← Except.ofOption
        (rejected "provider event payment is unknown" "unknown_provider_payment")
        (db.orderByPayment? event.paymentId)
      require (order.provider = event.provider) (badEvent "provider event does not match the order")
      let events ← Except.ofOption .integrityError (db.events.insert? (newEvent p event received))
      let after ← { db with events }.reconcilePayment event.paymentId
      let stored ← Except.ofOption .typeError (after.event? event.eventId)
      let view ← after.orderView order.orderId
      return (after, { duplicate := false, eventId := event.eventId, eventStatus := stored.status,
                       order := view })

def ingestProviderEvent (eventValue : Json) (receivedAt : Option String) (utcNow : Int) :
    Except Raised (Commerce × Ingested) := do
  let event ← db.validateEvent p eventValue
  let received := orElseNow p receivedAt utcNow
  let _ ← parseTimestamp p received
  db.ingestEvent p event received

/-- The amount recorded for one category, when it is an integer in bounds. -/
def costAmount? (costs : List (String × Json)) (category : DirectCost) : Option Nat := do
  let member ← costs.find? fun cost => cost.1 = category.value
  let amount ← member.2.int?
  if 0 ≤ amount ∧ amount ≤ 10000000 then some amount.toNat else none

/-- The costs, when they list exactly the categories with bounded amounts. -/
def directCosts? (costs : List (String × Json)) : Option (List (DirectCost × Nat)) :=
  if costs.all fun cost => DirectCost.all.any fun category => category.value = cost.1 then
    DirectCost.all.mapM fun category => (costAmount? costs category).map (category, ·)
  else none

/-- The entries of recorded costs. -/
def costEntries (orderId idempotencyKey recordedAt : String) (costs : List (DirectCost × Nat)) :
    List EntryRow :=
  costs.map fun cost =>
    { orderId, category := .direct cost.1, amountMinor := cost.2,
      contributionImpactMinor := -cost.2, sourceReference := idempotencyKey, recordedAt }

def recordDirectCosts (orderId : String) (costs : List (String × Json)) (idempotencyKey : String)
    (recordedAt : Option String) (utcNow : Int) : Except Raised (Commerce × OrderView) := do
  let amounts ← Except.ofOption
    (rejected "direct costs must explicitly contain all bounded categories" "invalid_cost_record")
    (directCosts? costs)
  require (Pattern.idempotency idempotencyKey)
    (rejected "invalid cost idempotency key" "invalid_cost_record")
  let timestamp := orElseNow p recordedAt utcNow
  let _ ← parseTimestamp p timestamp
  let order ← db.requireOrder orderId
  match db.costRecord? orderId idempotencyKey with
  | some existing => do
      require (existing.costs = amounts) (conflict "cost idempotency key was reused")
      let view ← db.orderView orderId
      return (db, view)
  | none => do
      require (order.directCostsRecorded = false)
        (rejected "direct costs are already finalized" "costs_already_recorded")
      let costRecords ← Except.ofOption .integrityError (db.costRecords.insert?
        { orderId, idempotencyKey, costs := amounts, recordedAt := timestamp })
      let booked ← { db with costRecords }.financialEntries
        (costEntries orderId idempotencyKey timestamp amounts)
      let after := booked.setOrder orderId
        (fun row => { row with directCostsRecorded := true, updatedAt := timestamp }) (fun _ => rfl)
      let view ← after.orderView orderId
      return (after, view)

/-- `_transition_order`. -/
def transitionOrder (orderId : String) (target : OrderStatus) (sourceReference occurredAt : String)
    (deliveryStatus : DeliveryStatus) : Except Raised (Commerce × OrderView) := do
  let _ ← parseTimestamp p occurredAt
  let order ← db.requireOrder orderId
  if order.orderStatus = target then do
    let view ← db.orderView orderId
    return (db, view)
  else do
    requireOrderTransition order.orderStatus target
    let moved := db.setOrder orderId
      (fun row => { row with orderStatus := target, deliveryStatus, updatedAt := occurredAt })
      (fun _ => rfl)
    let after := moved.addHistory
      [{ orderId, change := .order (some order.orderStatus) target, sourceReference, occurredAt }]
    let view ← after.orderView orderId
    return (after, view)

def beginFulfillment (orderId sourceReference occurredAt : String) :
    Except Raised (Commerce × OrderView) :=
  db.transitionOrder p orderId .running sourceReference occurredAt .running

def failFulfillment (orderId sourceReference occurredAt : String) :
    Except Raised (Commerce × OrderView) :=
  db.transitionOrder p orderId .fulfillmentFailed sourceReference occurredAt .failed

/-- What a delivery binds to its order. -/
structure Evidence where
  receiptId : String
  receiptSha256 : String
  envelopeSha256 : String
  signingKeyid : String
deriving DecidableEq

/-- The order carries exactly this evidence. -/
def Evidence.BoundTo (evidence : Evidence) (order : OrderRow) : Prop :=
  order.receiptId = some evidence.receiptId ∧ order.receiptSha256 = some evidence.receiptSha256 ∧
    order.envelopeSha256 = some evidence.envelopeSha256 ∧
    order.signingKeyid = some evidence.signingKeyid

instance (evidence : Evidence) (order : OrderRow) : Decidable (evidence.BoundTo order) :=
  inferInstanceAs (Decidable (_ ∧ _ ∧ _ ∧ _))

def deliver (orderId : String) (evidence : Evidence) (sourceReference occurredAt : String) :
    Except Raised (Commerce × OrderView) := do
  require (Pattern.receiptId evidence.receiptId) (badDelivery "receipt identifier is invalid")
  require (Pattern.sha256 evidence.receiptSha256) (badDelivery "receipt digest is invalid")
  require (Pattern.sha256 evidence.envelopeSha256) (badDelivery "signed envelope digest is invalid")
  require (Pattern.keyId evidence.signingKeyid) (badDelivery "signing key identifier is invalid")
  let _ ← parseTimestamp p occurredAt
  let order ← db.requireOrder orderId
  require (order.directCostsRecorded = true)
    (rejected "all direct costs must be recorded before delivery" "cost_record_required")
  if order.orderStatus = .delivered then do
    require (evidence.BoundTo order) (conflict "delivered order cannot be rebound")
    let view ← db.orderView orderId
    return (db, view)
  else do
    requireOrderTransition order.orderStatus .delivered
    let moved ← db.updateOrder orderId
      (fun row => { row with orderStatus := .delivered, receiptId := some evidence.receiptId,
                             receiptSha256 := some evidence.receiptSha256,
                             envelopeSha256 := some evidence.envelopeSha256,
                             signingKeyid := some evidence.signingKeyid,
                             deliveryStatus := .delivered, updatedAt := occurredAt })
      (conflict "receipt identifier is already bound")
    let after := moved.addHistory
      [{ orderId, change := .order (some order.orderStatus) .delivered, sourceReference, occurredAt }]
    let view ← after.orderView orderId
    return (after, view)

def getOrder (orderId : String) : Except Raised OrderView := do
  let _ ← db.requireOrder orderId
  db.orderView orderId

def getQuote (quoteId : String) : Except Raised Quote := do
  let row ← Except.ofOption (rejected "quote does not exist" "object_not_found")
    (db.quotes.find? fun row => row.quoteId = quoteId ∧ row.environment = db.environment)
  return row.quote

def getOrderRequest (orderId : String) : Except Raised ValidationRequest := do
  let unknown := rejected "order does not exist" "unknown_order"
  let order ← Except.ofOption unknown (db.order? orderId)
  let quote ← Except.ofOption unknown (db.quote? order.quoteId)
  return quote.request

structure FinancialSummary where
  environment : Environment
  orders : Nat
  collectedAmountMinor : Nat
  refundedAmountMinor : Nat
  processingFeeMinor : Nat
  ledgerContributionMinor : Int
  countsForGoalContributionMinor : Int
  pendingProviderEvents : Nat
  countsForGoalCollectedMinor : Nat
deriving DecidableEq

def getFinancialSummary : FinancialSummary where
  environment := db.environment
  orders := db.orders.rows.length
  collectedAmountMinor := (db.orders.rows.map OrderRow.collectedAmountMinor).sum
  refundedAmountMinor := (db.orders.rows.map OrderRow.refundedAmountMinor).sum
  processingFeeMinor := (db.orders.rows.map OrderRow.processingFeeMinor).sum
  ledgerContributionMinor := contribution db.entries.rows
  countsForGoalContributionMinor := contribution (db.entries.rows.filter fun entry =>
    db.orders.rows.any fun order => order.orderId = entry.orderId ∧ order.countsForGoal = true)
  pendingProviderEvents := (db.events.rows.filter fun row => row.status = .pending).length
  countsForGoalCollectedMinor := (db.orders.rows.map fun order =>
    if order.countsForGoal then order.collectedAmountMinor else 0).sum

/-- A call of one of the operations that write. -/
inductive Call where
  | createQuote (requestValue : Json) (quoteId : String) (generatedAt : DateTime)
      (paymentProvider : String) (liveCheckoutEnabled : Bool) (drawn : String)
  | createOrder (quoteId idempotencyKey buyerReference : String) (now : DateTime)
  | attachCheckout (orderId checkoutId occurredAt : String) (paymentId : Option String)
  | bindProviderPayment (orderId paymentId checkoutId occurredAt : String)
  | ingestProviderEvent (eventValue : Json) (receivedAt : Option String) (utcNow : Int)
  | recordDirectCosts (orderId : String) (costs : List (String × Json)) (idempotencyKey : String)
      (recordedAt : Option String) (utcNow : Int)
  | beginFulfillment (orderId sourceReference occurredAt : String)
  | deliver (orderId : String) (evidence : Evidence) (sourceReference occurredAt : String)
  | failFulfillment (orderId sourceReference occurredAt : String)

/-- The state that a call commits. -/
def committed : Call → Except Raised Commerce
  | .createQuote requestValue quoteId generatedAt paymentProvider liveCheckoutEnabled drawn =>
      Prod.fst <$> db.createQuote p requestValue quoteId generatedAt paymentProvider
        liveCheckoutEnabled drawn
  | .createOrder quoteId idempotencyKey buyerReference now =>
      Prod.fst <$> db.createOrder p quoteId idempotencyKey buyerReference now
  | .attachCheckout orderId checkoutId occurredAt paymentId =>
      Prod.fst <$> db.attachCheckout p orderId checkoutId occurredAt paymentId
  | .bindProviderPayment orderId paymentId checkoutId occurredAt =>
      Prod.fst <$> db.bindProviderPayment p orderId paymentId checkoutId occurredAt
  | .ingestProviderEvent eventValue receivedAt utcNow =>
      Prod.fst <$> db.ingestProviderEvent p eventValue receivedAt utcNow
  | .recordDirectCosts orderId costs idempotencyKey recordedAt utcNow =>
      Prod.fst <$> db.recordDirectCosts p orderId costs idempotencyKey recordedAt utcNow
  | .beginFulfillment orderId sourceReference occurredAt =>
      Prod.fst <$> db.beginFulfillment p orderId sourceReference occurredAt
  | .deliver orderId evidence sourceReference occurredAt =>
      Prod.fst <$> db.deliver p orderId evidence sourceReference occurredAt
  | .failFulfillment orderId sourceReference occurredAt =>
      Prod.fst <$> db.failFulfillment p orderId sourceReference occurredAt

/-- The state after a call; a call that raises leaves it unchanged. -/
def step (call : Call) : Commerce :=
  match db.committed p call with
  | .ok after => after
  | .error _ => db

/-- The state after a call that ingests an event. -/
theorem step_ingest {p : Platform} {db : Commerce} {eventValue : Json} {receivedAt : Option String}
    {utcNow : Int} :
    db.step p (.ingestProviderEvent eventValue receivedAt utcNow) =
      match db.ingestProviderEvent p eventValue receivedAt utcNow with
      | .ok (after, _) => after
      | .error _ => db := by
  unfold step
  change (match Prod.fst <$> db.ingestProviderEvent p eventValue receivedAt utcNow with
    | .ok after => after
    | .error _ => db) = _
  cases db.ingestProviderEvent p eventValue receivedAt utcNow <;> rfl

/-- The states that calls can lead to from an empty store. -/
def Reachable : Prop := ∃ environment, Runs.Reaches (step p) (empty environment) db

end Commerce

/-- The sandbox provider's identifiers. -/
def FakePaymentProvider.paymentId (p : Platform) (orderId : String) : Except Raised String := do
  require (Bytes.isAscii orderId) .unicodeEncodeError
  return "pay_test_" ++ (p.sha256 (Bytes.ascii orderId)).hexPrefix 24

def FakePaymentProvider.createCheckout (p : Platform) (db : Commerce) (orderId occurredAt : String) :
    Except Raised (Commerce × OrderView) := do
  let paymentId ← FakePaymentProvider.paymentId p orderId
  db.attachCheckout p orderId paymentId occurredAt none

end VouchSpec
