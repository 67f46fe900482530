import VouchSpec.Commerce.Store

/-! The Stripe adapter's reconciliation. Stripe objects are JSON values that a
snapshot returns by identifier; every reading of the clock is an argument. -/

namespace VouchSpec

namespace Stripe

/-- What the Stripe API returns for each identifier, or nothing when the call
fails. -/
structure Snapshot where
  checkout : String → Option Json
  payment : String → Option Json
  charge : String → Option Json
  balance : String → Option Json

structure ReconciliationRow where
  orderId : String
  sourceEventId : Option String
  checkoutId : String
  paymentId : String
  chargeId : String
  balanceTransactionId : String
  snapshotDigest : String
  paymentState : String
  observedAt : String
deriving DecidableEq

def ReconciliationRow.keys (row : ReconciliationRow) : String × String :=
  (row.orderId, row.snapshotDigest)

/-- The store that the adapter shares with the ledger. -/
structure Store where
  commerce : Commerce
  reconciliations : Table ReconciliationRow.keys Eq
deriving DecidableEq

namespace Pattern

open VouchSpec.Pattern

def orderId (text : String) : Bool :=
  afterPrefix "ord_" (fun rest => fullmatch Bytes.isHexDigit 24 24 rest ||
    afterPrefix "test_" (fullmatch Bytes.isHexDigit 24 24) rest) text.toList

def checkoutId (text : String) : Bool :=
  afterPrefix "cs_test_" (fullmatch isAlnum 8 128) text.toList ||
    afterPrefix "cs_live_" (fullmatch isAlnum 8 128) text.toList

def paymentId (text : String) : Bool := afterPrefix "pi_" (fullmatch isAlnum 8 64) text.toList
def chargeId (text : String) : Bool := afterPrefix "ch_" (fullmatch isAlnum 8 64) text.toList
def balanceId (text : String) : Bool := afterPrefix "txn_" (fullmatch isAlnum 8 64) text.toList

end Pattern

private def invalidObject (message : String) : Raised := rejected message "invalid_stripe_object"

/-- `value.get(name)`, where an absent member reads as null. -/
def member (value : Json) (name : String) : Json := (value.get? name).getD .null

/-- `_as_dict`, of what an API call returned. -/
def asDict (value : Json) : Except Raised Json :=
  match value with
  | .obj members => .ok (.obj members)
  | _ => .error (invalidObject "Stripe API returned an invalid object")

/-- One retrieval from the API. -/
def retrieve (endpoint : String → Option Json) (identifier : String) : Except Raised Json := do
  let value ← Except.ofOption .stripeError (endpoint identifier)
  asDict value

/-- `_reference_id`: an identifier, or an object with one. -/
def referenceId (value : Json) (pattern : String → Bool) (field : String) : Except Raised String := do
  let error := invalidObject ("Stripe " ++ field ++ " identifier is invalid")
  let named := match value with
    | .obj members => member (.obj members) "id"
    | other => other
  let text ← Except.ofOption error named.str?
  require (pattern text) error
  return text

/-- `_bounded_int`. -/
def boundedInt (value : Json) (field : String) (maximum : Int) : Except Raised Int := do
  let error := invalidObject ("Stripe " ++ field ++ " is invalid")
  let number ← Except.ofOption error value.int?
  require (0 ≤ number ∧ number ≤ maximum) error
  return number

def amountMaximum : Int := 10000000
def timeMaximum : Int := 4102444800

/-- Whether every member is a text. -/
def textual (value : Json) : Bool :=
  match value with
  | .obj members => members.all fun item => item.2.str?.isSome
  | _ => true

/-- `_metadata`. -/
def metadata (value : Json) : Except Raised Json := do
  let result ← asDict value
  require (textual result) (invalidObject "Stripe metadata is invalid")
  return result

/-- Membership of a value in a set of texts; lists and objects have no hash. -/
def among (value : Json) (texts : List String) : Except Raised Bool :=
  match value with
  | .str text => .ok (texts.contains text)
  | .arr _ => .error .typeError
  | .obj _ => .error .typeError
  | _ => .ok false

section
variable (p : Platform)

/-- `_parse_time`. -/
def parseTime (value : String) : Except Raised Int := do
  require (value.toList.length ≤ 64) (invalidObject "Stripe timestamp is invalid")
  p.parseTimestampAs "Stripe timestamp" "invalid_stripe_object" value

/-- `_epoch_time`. -/
def epochTime (value : Json) : Except Raised String := do
  let error := invalidObject "Stripe object timestamp is invalid"
  let seconds ← Except.ofOption error value.int?
  require (0 ≤ seconds ∧ seconds ≤ timeMaximum) error
  return p.timestamp (seconds * 1000000)

/-- `_aware_datetime`. -/
def awareDatetime (value : DateTime) (field : String) : Except Raised Int := do
  require (value.aware = true)
    (rejected (field ++ " requires a timezone") "invalid_commerce_request")
  return value.instant

end

/-- The adapter's configuration; its mode follows the store's environment. -/
structure Adapter where
  accountId : String
deriving DecidableEq

/-- `_livemode`. -/
def livemode (environment : Environment) : Bool := decide (environment = .live)

/-- `_validate_checkout` with `allow_completed`. -/
def validateCheckout (p : Platform) (adapter : Adapter) (environment : Environment) (session : Json)
    (order : OrderView) (quote : Quote) : Except Raised Unit := do
  let unbound := invalidObject "Stripe Checkout Session is not bound to the order"
  let checkoutId ← referenceId (member session "id") Pattern.checkoutId "Checkout Session"
  let metadata ← metadata (member session "metadata")
  require ((match environment with
      | .sandbox => "cs_test_"
      | .live => "cs_live_").toList.isPrefixOf checkoutId.toList) unbound
  require (member session "object" = .str "checkout.session" ∧
    member session "livemode" = .bool (livemode environment) ∧
    member session "mode" = .str "payment" ∧ member session "currency" = .str order.currency) unbound
  let total ← boundedInt (member session "amount_total") "Checkout amount" amountMaximum
  require (total = order.quotedAmountMinor ∧
    member session "client_reference_id" = .str order.orderId ∧
    metadata.get? "vouchspec_order_id" = some (.str order.orderId) ∧
    metadata.get? "vouchspec_quote_id" = some (.str order.quoteId) ∧
    metadata.get? "vouchspec_account_id" = some (.str adapter.accountId)) unbound
  let allowed ← among (member session "status") ["open", "complete", "expired"]
  require (allowed = true) unbound
  let expiry ← boundedInt (member session "expires_at") "Checkout expiry" timeMaximum
  let quoteExpiry ← parseTime p quote.expiresAt
  require (expiry = quoteExpiry / 1000000) unbound

/-- An order with its checkout and the session that Stripe holds for it. -/
structure Opened where
  order : OrderView
  checkoutId : String
  session : Json

/-- The reads and checks that come before the payment. -/
def openSession (p : Platform) (adapter : Adapter) (snapshot : Snapshot) (db : Commerce)
    (orderId : String) : Except Raised Opened := do
  let order ← db.getOrder orderId
  let unattached := rejected "order is not attached to Stripe" "unknown_provider_payment"
  require (order.provider = .stripe) unattached
  let checkoutId ← Except.ofOption unattached order.providerCheckoutId
  let quote ← db.getQuote order.quoteId
  let session ← retrieve snapshot.checkout checkoutId
  validateCheckout p adapter db.environment session order quote
  return { order, checkoutId, session }

/-- The status of a balance transaction. -/
inductive BalanceStatus where
  | pending
  | available
deriving DecidableEq

def BalanceStatus.value : BalanceStatus → String
  | pending => "pending"
  | available => "available"

/-- What the retrieved objects say about a succeeded payment. -/
structure Settlement where
  chargeId : String
  balanceId : String
  amountRefunded : Int
  disputed : Json
  fee : Int
  net : Int
  capturedAt : String
  balanceStatus : BalanceStatus
  availableOn : Json

/-- What the retrieved objects say about a payment. -/
inductive Examination where
  | failed (createdAt : String)
  | unpaid
  | settled (settlement : Settlement)

/-- The checks of the charge and of the amount refunded. -/
def examineCharge (environment : Environment) (order : OrderView) (paymentId chargeId : String)
    (charge : Json) : Except Raised Int := do
  let unbound := invalidObject "Stripe Charge is not bound to the order"
  let chargePayment ← referenceId (member charge "payment_intent") Pattern.paymentId "PaymentIntent"
  let amountRefunded ← boundedInt (member charge "amount_refunded") "refunded amount" amountMaximum
  require (member charge "object" = .str "charge" ∧ member charge "id" = .str chargeId ∧
    chargePayment = paymentId ∧ member charge "livemode" = .bool (livemode environment) ∧
    member charge "currency" = .str order.currency) unbound
  let amount ← boundedInt (member charge "amount") "Charge amount" amountMaximum
  require (amount = order.quotedAmountMinor) unbound
  let captured ← boundedInt (member charge "amount_captured") "captured amount" amountMaximum
  require (captured = order.quotedAmountMinor ∧ member charge "paid" = .bool true ∧
    member charge "captured" = .bool true ∧ amountRefunded ≤ order.quotedAmountMinor) unbound
  require (¬(0 < amountRefunded ∧ amountRefunded < order.quotedAmountMinor))
    (rejected "partial refunds are outside the published policy" "stripe_partial_refund")
  return amountRefunded

/-- The checks of the balance transaction: its fee, its net amount and its status. -/
def examineBalance (order : OrderView) (chargeId balanceId : String) (balance : Json) :
    Except Raised (Int × Int × BalanceStatus) := do
  let inconsistent := invalidObject "Stripe balance transaction is inconsistent"
  let amount ← boundedInt (member balance "amount") "balance amount" amountMaximum
  let fee ← boundedInt (member balance "fee") "processing fee" amountMaximum
  require (member balance "object" = .str "balance_transaction" ∧
    member balance "id" = .str balanceId) inconsistent
  let source ← referenceId (member balance "source") Pattern.chargeId "balance source"
  require (source = chargeId ∧ member balance "currency" = .str order.currency ∧
    amount = order.quotedAmountMinor) inconsistent
  let net ← Except.ofOption inconsistent (member balance "net").int?
  require (net = amount - fee) inconsistent
  let known ← among (member balance "status") ["pending", "available"]
  require (known = true) inconsistent
  return (fee, net, if member balance "status" = .str "available" then .available else .pending)

/-- The checks from the payment intent to the balance transaction. -/
def examinePayment (p : Platform) (adapter : Adapter) (snapshot : Snapshot)
    (environment : Environment) (orderId : String) (order : OrderView) (paymentId : String) :
    Except Raised Examination := do
  let payment ← retrieve snapshot.payment paymentId
  let metadata ← metadata (member payment "metadata")
  let unbound := invalidObject "Stripe PaymentIntent is not bound to the order"
  require (member payment "object" = .str "payment_intent" ∧ member payment "id" = .str paymentId ∧
    member payment "livemode" = .bool (livemode environment) ∧
    member payment "currency" = .str order.currency) unbound
  let amount ← boundedInt (member payment "amount") "PaymentIntent amount" amountMaximum
  require (amount = order.quotedAmountMinor ∧
    metadata.get? "vouchspec_order_id" = some (.str orderId) ∧
    metadata.get? "vouchspec_quote_id" = some (.str order.quoteId) ∧
    metadata.get? "vouchspec_account_id" = some (.str adapter.accountId)) unbound
  let declined ← among (member payment "status") ["canceled", "requires_payment_method"]
  if declined then
    let createdAt ← epochTime p (member payment "created")
    return .failed createdAt
  else if member payment "status" ≠ .str "succeeded" then
    return .unpaid
  else do
    let received ← boundedInt (member payment "amount_received") "PaymentIntent received amount"
      amountMaximum
    require (received = order.quotedAmountMinor)
      (rejected "Stripe received amount does not match the quote" "stripe_amount_mismatch")
    let chargeId ← referenceId (member payment "latest_charge") Pattern.chargeId "Charge"
    let charge ← retrieve snapshot.charge chargeId
    let amountRefunded ← examineCharge environment order paymentId chargeId charge
    let balanceId ← referenceId (member charge "balance_transaction") Pattern.balanceId
      "BalanceTransaction"
    let balance ← retrieve snapshot.balance balanceId
    let (fee, net, balanceStatus) ← examineBalance order chargeId balanceId balance
    let capturedAt ← epochTime p (member charge "created")
    return .settled { chargeId, balanceId, amountRefunded, disputed := member charge "disputed", fee,
                      net, capturedAt, balanceStatus, availableOn := member balance "available_on" }

/-- The clock readings that one call takes. -/
structure Readings where
  now : Int
  bound : Int
  occurred : EventType → Int
  received : EventType → Int

/-- One event for the ledger. -/
structure Emission where
  type : EventType
  reference : String
  fee : Int
  occurredAt : String
deriving DecidableEq

section
variable (p : Platform)

/-- The identifier of an emitted event. -/
def Emission.eventId (environment : Environment) (orderId : String) (emission : Emission) : String :=
  (match environment with | .sandbox => "evt_test_" | .live => "evt_") ++
    (p.sha256 (Bytes.utf8 ("stripe".toList ++ Char.ofNat 0 :: (orderId.toList ++ Char.ofNat 0 ::
      (emission.type.value.toList ++ Char.ofNat 0 :: (emission.reference.toList ++ Char.ofNat 0 ::
        (toString emission.fee).toList)))))).hexPrefix 24

/-- The value that is ingested. -/
def Emission.toJson (environment : Environment) (order : OrderView) (emission : Emission) : Json :=
  .obj [("amount_minor", .int order.quotedAmountMinor), ("currency", .str order.currency),
    ("environment", .str environment.value),
    ("event_id", .str (emission.eventId p environment order.orderId)),
    ("fee_minor", .int (if emission.type = .captured then emission.fee else 0)),
    ("occurred_at", .str emission.occurredAt),
    ("payment_id", match order.providerPaymentId with
      | some paymentId => .str paymentId
      | none => .null),
    ("provider", .str "stripe"), ("schema_version", .str "1.0.0"), ("type", .str emission.type.value)]

/-- One call of the ledger, as its own transaction. -/
def ledger {Value : Type} (call : Commerce → Except Raised (Commerce × Value)) :
    Routine Store Raised Value :=
  Routine.transaction fun store => do
    let (commerce, value) ← call store.commerce
    return ({ store with commerce }, value)

/-- `_emit`. -/
def emit (readings : Readings) (order : OrderView) (emission : Emission) :
    Routine Store Raised OrderView := do
  let _ ← Routine.reading fun _ => parseTime p emission.occurredAt
  let ingested ← ledger fun db =>
    db.ingestProviderEvent p (emission.toJson p db.environment order)
      (some (p.timestamp (readings.received emission.type))) (readings.received emission.type)
  return ingested.order

/-- Emit events one after the other. -/
def emitAll (readings : Readings) : OrderView → List Emission → Routine Store Raised OrderView
  | order, [] => pure order
  | order, emission :: rest => do
      let order ← emit p readings order emission
      emitAll readings order rest

namespace Settlement

/-- The state that the adapter derives. -/
def state (settlement : Settlement) (quotedAmount : Int) : String :=
  if settlement.disputed = .bool true then "disputed"
  else if settlement.amountRefunded = quotedAmount then "refunded"
  else settlement.balanceStatus.value

/-- The time at which the funds became available; it must not lie ahead. -/
def availableTime (settlement : Settlement) (currentTime : Int) : Except Raised String := do
  let availableAt ← epochTime p settlement.availableOn
  if settlement.balanceStatus = .available then do
    let instant ← parseTime p availableAt
    require (instant ≤ currentTime) (invalidObject "Stripe marked future funds available")
    return availableAt
  else return availableAt

def captured (settlement : Settlement) : Emission :=
  { type := .captured, reference := settlement.balanceId, fee := settlement.fee
    occurredAt := settlement.capturedAt }

/-- The event types that are emitted with the time of the call. -/
def clocked (settlement : Settlement) (quotedAmount : Int) : List EventType :=
  if settlement.disputed = .bool true then [.disputed]
  else if settlement.amountRefunded = quotedAmount then [.refundPending, .refunded]
  else []

/-- The events that follow the capture. -/
def following (settlement : Settlement) (quotedAmount : Int) (availableAt : String)
    (readings : Readings) : List Emission :=
  (if settlement.balanceStatus = .available then
    [{ type := .available, reference := settlement.balanceId, fee := 0, occurredAt := availableAt }]
  else []) ++
  (settlement.clocked quotedAmount).map fun type =>
    { type, reference := settlement.chargeId, fee := 0
      occurredAt := p.timestamp (readings.occurred type) }

/-- The document whose digest identifies a reconciliation. -/
def toJson (settlement : Settlement) (checkoutId paymentId : String) (quotedAmount : Int) : Json :=
  .obj [("amount_refunded", .int settlement.amountRefunded),
    ("available_on", settlement.availableOn), ("balance_amount", .int quotedAmount),
    ("balance_fee", .int settlement.fee), ("balance_net", .int settlement.net),
    ("balance_status", .str settlement.balanceStatus.value),
    ("balance_transaction_id", .str settlement.balanceId), ("charge_id", .str settlement.chargeId),
    ("checkout_id", .str checkoutId), ("disputed", settlement.disputed),
    ("payment_id", .str paymentId), ("payment_status", .str "succeeded")]

end Settlement

/-- `_record_reconciliation`: a row that is already there is ignored. -/
def recordReconciliation (row : ReconciliationRow) : Routine Store Raised Unit :=
  Routine.transaction fun store =>
    .ok ({ store with
      reconciliations := (store.reconciliations.insert? row).getD store.reconciliations }, ())

/-- What a reconciliation returns. -/
structure Reconciled where
  state : String
  order : OrderView
deriving DecidableEq

/-- The state of an order whose session names no payment. -/
def absentState (session : Json) : String :=
  if member session "status" = .str "expired" then "expired_without_payment_intent"
  else "pending_payment_intent"

/-- The events and the record of a succeeded payment. -/
def settle (readings : Readings) (currentTime : Int) (sourceEventId : Option String)
    (opened : Opened) (paymentId : String) (order : OrderView) (settlement : Settlement) :
    Routine Store Raised Reconciled := do
  let quotedAmount : Int := order.quotedAmountMinor
  let order ← emit p readings order settlement.captured
  let availableAt ← Routine.reading fun _ => settlement.availableTime p currentTime
  let order ← emitAll p readings order (settlement.following p quotedAmount availableAt readings)
  let checkoutId ← Routine.reading fun _ =>
    Except.ofOption .typeError (member opened.session "id").str?
  recordReconciliation
    { orderId := opened.order.orderId, sourceEventId, checkoutId, paymentId
      chargeId := settlement.chargeId, balanceTransactionId := settlement.balanceId
      snapshotDigest := p.textDigest (settlement.toJson checkoutId paymentId quotedAmount).text
      paymentState := settlement.state quotedAmount, observedAt := p.timestamp currentTime }
  return { state := settlement.state quotedAmount, order }

/-- `reconcile_order`, once the payment is bound. -/
def reconcileBound (adapter : Adapter) (snapshot : Snapshot) (orderId : String)
    (sourceEventId : Option String) (currentTime : Int) (readings : Readings) (opened : Opened)
    (paymentId : String) (order : OrderView) : Routine Store Raised Reconciled := do
  let examination ← Routine.reading fun store =>
    examinePayment p adapter snapshot store.commerce.environment orderId order paymentId
  match examination with
  | .failed createdAt => do
      let order ← emit p readings order
        { type := .failed, reference := paymentId, fee := 0, occurredAt := createdAt }
      return { state := "failed", order := order }
  | .unpaid => return { state := "pending_payment", order }
  | .settled settlement =>
      settle p readings currentTime sourceEventId opened paymentId order settlement

/-- `reconcile_order`, once the session is read. -/
def reconcileOpened (adapter : Adapter) (snapshot : Snapshot) (orderId : String)
    (sourceEventId : Option String) (currentTime : Int) (readings : Readings) (opened : Opened) :
    Routine Store Raised Reconciled := do
  if member opened.session "payment_intent" = .null then
    return { state := absentState opened.session, order := opened.order }
  else do
    let paymentId ← Routine.reading fun _ =>
      referenceId (member opened.session "payment_intent") Pattern.paymentId "PaymentIntent"
    let order ← ledger fun db =>
      db.bindProviderPayment p orderId paymentId opened.checkoutId (p.timestamp readings.bound)
    reconcileBound p adapter snapshot orderId sourceEventId currentTime readings opened paymentId order

/-- `reconcile_order`. -/
def reconcileOrder (adapter : Adapter) (snapshot : Snapshot) (orderId : String)
    (sourceEventId : Option String) (observedAt : Option DateTime) (readings : Readings) :
    Routine Store Raised Reconciled := do
  let _ ← Routine.reading fun _ =>
    require (Pattern.orderId orderId) (rejected "order identifier is invalid" "unknown_order")
  let currentTime ← Routine.reading fun _ =>
    awareDatetime (observedAt.getD ⟨readings.now, true⟩) "Stripe reconciliation timestamp"
  let opened ← Routine.reading fun store => openSession p adapter snapshot store.commerce orderId
  reconcileOpened p adapter snapshot orderId sourceEventId currentTime readings opened

end

end Stripe

end VouchSpec
