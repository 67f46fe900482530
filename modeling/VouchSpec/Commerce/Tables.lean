import Mathlib.Data.Char
import Mathlib.Data.List.Lex
import Mathlib.Data.List.Sort
import VouchSpec.Commerce.Contract
import VouchSpec.Library.Table

/-! The tables of the commerce store. Documents kept as canonical JSON text are
rows' structured values here; the text determines the document. -/

namespace VouchSpec

inductive Provider where
  | fake
  | stripe
deriving DecidableEq, Repr

def Provider.value : Provider → String
  | fake => "fake"
  | stripe => "stripe"

theorem Provider.value_injective : Function.Injective Provider.value := by
  intro left right
  cases left <;> cases right <;> simp [Provider.value]

inductive EventType where
  | captured
  | available
  | failed
  | refundPending
  | refunded
  | disputed
deriving DecidableEq, Repr

def EventType.value : EventType → String
  | captured => "payment.captured"
  | available => "payment.available"
  | failed => "payment.failed"
  | refundPending => "payment.refund_pending"
  | refunded => "payment.refunded"
  | disputed => "payment.disputed"

theorem EventType.value_injective : Function.Injective EventType.value := by
  intro left right
  cases left <;> cases right <;> simp [EventType.value]

def EventType.all : List EventType :=
  [captured, available, failed, refundPending, refunded, disputed]

/-- The payment status an event of this type leads to. -/
def EventType.target : EventType → PaymentStatus
  | captured => .captured
  | available => .available
  | failed => .failed
  | refundPending => .refundPending
  | refunded => .refunded
  | disputed => .disputed

inductive EventStatus where
  | pending
  | applied
  | appliedDuplicateEffect
  | rejectedEffectConflict
  | rejectedAmountMismatch
deriving DecidableEq, Repr

inductive DeliveryStatus where
  | notStarted
  | running
  | delivered
  | failed
deriving DecidableEq, Repr

inductive DirectCost where
  | compute
  | thirdParty
  | hosting
  | storage
  | model
  | network
  | signing
  | monitoring
  | directSupport
  | otherVariable
deriving DecidableEq, Repr

namespace DirectCost

def value : DirectCost → String
  | compute => "compute"
  | thirdParty => "third_party"
  | hosting => "hosting"
  | storage => "storage"
  | model => "model"
  | network => "network"
  | signing => "signing"
  | monitoring => "monitoring"
  | directSupport => "direct_support"
  | otherVariable => "other_variable"

/-- `DIRECT_COST_CATEGORIES`. -/
def all : List DirectCost :=
  [compute, thirdParty, hosting, storage, model, network, signing, monitoring, directSupport,
    otherVariable]

theorem mem_all (category : DirectCost) : category ∈ all := by
  cases category <;> decide

theorem all_nodup : all.Nodup := by decide

end DirectCost

/-- The categories of financial entries. -/
inductive EntryCategory where
  | grossCollected
  | processingFee
  | refund
  | direct (category : DirectCost)
deriving DecidableEq, Repr

/-- An authenticated provider event, as stored in canonical form. -/
structure ProviderEvent where
  provider : Provider
  environment : Environment
  eventId : String
  type : EventType
  paymentId : String
  amountMinor : Nat
  feeMinor : Nat
  currency : String
  occurredAt : String
deriving DecidableEq

def ProviderEvent.toJson (event : ProviderEvent) : Json :=
  .obj [("amount_minor", .int event.amountMinor), ("currency", .str event.currency),
    ("environment", .str event.environment.value), ("event_id", .str event.eventId),
    ("fee_minor", .int event.feeMinor), ("occurred_at", .str event.occurredAt),
    ("payment_id", .str event.paymentId), ("provider", .str event.provider.value),
    ("schema_version", .str "1.0.0"), ("type", .str event.type.value)]

/-- The bytes over which the payload digest is taken. -/
def ProviderEvent.payload (event : ProviderEvent) : Bytes := Bytes.utf8 event.toJson.text

theorem ProviderEvent.payload_injective : Function.Injective ProviderEvent.payload := by
  intro left right h
  have hJson := Json.text_injective (Bytes.utf8_injective h)
  simp only [ProviderEvent.toJson, Json.obj.injEq, List.cons.injEq, Prod.mk.injEq, Json.int.injEq,
    Json.str.injEq, Int.natCast_inj, true_and, and_true, Provider.value_injective.eq_iff,
    Environment.value_injective.eq_iff, EventType.value_injective.eq_iff] at hJson
  cases left
  cases right
  obtain ⟨rfl, rfl, rfl, rfl, rfl, rfl, rfl, rfl, rfl⟩ := hJson
  rfl

structure QuoteRow where
  quoteId : String
  environment : Environment
  requestDigest : String
  request : ValidationRequest
  quote : Quote
  amountMinor : Nat
  currency : String
  generatedAt : String
  expiresAt : String
  orderable : Bool
  countsForGoal : Bool
deriving DecidableEq

structure OrderRow where
  orderId : String
  environment : Environment
  quoteId : String
  idempotencyKey : String
  buyerReference : String
  provider : Provider
  providerCheckoutId : Option String := none
  providerPaymentId : Option String := none
  orderStatus : OrderStatus
  paymentStatus : PaymentStatus
  quotedAmountMinor : Nat
  collectedAmountMinor : Nat := 0
  refundedAmountMinor : Nat := 0
  processingFeeMinor : Nat := 0
  currency : String
  directCostsRecorded : Bool := false
  receiptId : Option String := none
  receiptSha256 : Option String := none
  envelopeSha256 : Option String := none
  signingKeyid : Option String := none
  deliveryStatus : DeliveryStatus
  countsForGoal : Bool
  createdAt : String
  updatedAt : String
deriving DecidableEq

/-- The columns `event_id`, `environment`, `provider`, `provider_payment_id` and
`event_type` are copies of members of the payload, and read off it here. -/
structure EventRow where
  payload : ProviderEvent
  payloadDigest : String
  status : EventStatus
  receivedAt : String
  appliedAt : Option String := none
deriving DecidableEq

namespace EventRow

def eventId (row : EventRow) : String := row.payload.eventId
def paymentId (row : EventRow) : String := row.payload.paymentId
def eventType (row : EventRow) : EventType := row.payload.type

end EventRow

structure EntryRow where
  orderId : String
  category : EntryCategory
  amountMinor : Nat
  contributionImpactMinor : Int
  sourceReference : String
  recordedAt : String
deriving DecidableEq

structure CostRow where
  orderId : String
  idempotencyKey : String
  costs : List (DirectCost × Nat)
  recordedAt : String
deriving DecidableEq

/-- One row of `order_history`: a dimension with its prior and new status. -/
inductive StatusChange where
  | order (prior : Option OrderStatus) (next : OrderStatus)
  | payment (prior next : PaymentStatus)
deriving DecidableEq

structure HistoryRow where
  orderId : String
  change : StatusChange
  sourceReference : String
  occurredAt : String
deriving DecidableEq

/-- The columns of an order under a uniqueness constraint. -/
structure OrderKeys where
  orderId : String
  quoteId : String
  idempotencyKey : String
  providerCheckoutId : Option String
  providerPaymentId : Option String
  receiptId : Option String
deriving DecidableEq

def OrderRow.keys (row : OrderRow) : OrderKeys :=
  { orderId := row.orderId, quoteId := row.quoteId, idempotencyKey := row.idempotencyKey,
    providerCheckoutId := row.providerCheckoutId, providerPaymentId := row.providerPaymentId,
    receiptId := row.receiptId }

/-- A nullable unique column: two NULLs do not clash. -/
def sameValue (left right : Option String) : Prop := left.isSome ∧ left = right

instance (left right : Option String) : Decidable (sameValue left right) :=
  inferInstanceAs (Decidable (_ ∧ _))

def OrderKeys.Clash (left right : OrderKeys) : Prop :=
  left.orderId = right.orderId ∨ left.quoteId = right.quoteId ∨
    left.idempotencyKey = right.idempotencyKey ∨
    sameValue left.providerCheckoutId right.providerCheckoutId ∨
    sameValue left.providerPaymentId right.providerPaymentId ∨
    sameValue left.receiptId right.receiptId

instance : DecidableRel OrderKeys.Clash := fun left right =>
  inferInstanceAs (Decidable (left.orderId = right.orderId ∨ _ ∨ _ ∨ _ ∨ _ ∨ _))

def EntryRow.keys (row : EntryRow) : String × EntryCategory × String :=
  (row.orderId, row.category, row.sourceReference)

def CostRow.keys (row : CostRow) : String × String := (row.orderId, row.idempotencyKey)

/-- The commerce store, bound to one environment. -/
structure Commerce where
  environment : Environment
  quotes : Table QuoteRow.quoteId Eq
  orders : Table OrderRow.keys OrderKeys.Clash
  events : Table EventRow.eventId Eq
  entries : Table EntryRow.keys Eq
  costRecords : Table CostRow.keys Eq
  history : List HistoryRow
deriving DecidableEq

namespace Commerce

/-- A freshly initialized store. -/
def empty (environment : Environment) : Commerce :=
  { environment, quotes := .empty, orders := .empty, events := .empty, entries := .empty,
    costRecords := .empty, history := [] }

def quote? (db : Commerce) (quoteId : String) : Option QuoteRow :=
  db.quotes.find? fun row => row.quoteId = quoteId

def order? (db : Commerce) (orderId : String) : Option OrderRow :=
  db.orders.find? fun row => row.orderId = orderId

def orderByIdempotencyKey? (db : Commerce) (idempotencyKey : String) : Option OrderRow :=
  db.orders.find? fun row => row.idempotencyKey = idempotencyKey

def orderByPayment? (db : Commerce) (paymentId : String) : Option OrderRow :=
  db.orders.find? fun row => row.providerPaymentId = some paymentId

def event? (db : Commerce) (eventId : String) : Option EventRow :=
  db.events.find? fun row => row.eventId = eventId

def costRecord? (db : Commerce) (orderId idempotencyKey : String) : Option CostRow :=
  db.costRecords.find? fun row => row.orderId = orderId ∧ row.idempotencyKey = idempotencyKey

/-- The financial entries of one order, in order of insertion. -/
def entriesOf (db : Commerce) (orderId : String) : List EntryRow :=
  db.entries.rows.filter fun row => row.orderId = orderId

def historyOf (db : Commerce) (orderId : String) : List HistoryRow :=
  db.history.filter fun row => row.orderId = orderId

/-- `ORDER BY received_at, event_id`. -/
def arrivedBefore (left right : EventRow) : Prop :=
  left.receivedAt.toList < right.receivedAt.toList ∨
    (left.receivedAt.toList = right.receivedAt.toList ∧ left.eventId.toList ≤ right.eventId.toList)

instance : DecidableRel arrivedBefore := fun _ _ => inferInstanceAs (Decidable (_ ∨ _))

/-- The events of one payment that have had no effect yet. -/
def pendingEvents (db : Commerce) (paymentId : String) : List EventRow :=
  (db.events.rows.filter fun row => row.paymentId = paymentId ∧ row.status = .pending).insertionSort
    arrivedBefore

theorem quote?_eq_some {db : Commerce} {quoteId : String} {row : QuoteRow} :
    db.quote? quoteId = some row ↔ row ∈ db.quotes.rows ∧ row.quoteId = quoteId := by
  unfold quote?
  rw [Table.find?_eq_some]
  · simp
  · intro first second hFirst hSecond
    simp only [decide_eq_true_eq] at hFirst hSecond
    rw [hFirst, hSecond]

theorem order?_eq_some {db : Commerce} {orderId : String} {row : OrderRow} :
    db.order? orderId = some row ↔ row ∈ db.orders.rows ∧ row.orderId = orderId := by
  unfold order?
  rw [Table.find?_eq_some]
  · simp
  · intro first second hFirst hSecond
    simp only [decide_eq_true_eq] at hFirst hSecond
    exact Or.inl (hFirst.trans hSecond.symm)

theorem orderByIdempotencyKey?_eq_some {db : Commerce} {idempotencyKey : String} {row : OrderRow} :
    db.orderByIdempotencyKey? idempotencyKey = some row ↔
      row ∈ db.orders.rows ∧ row.idempotencyKey = idempotencyKey := by
  unfold orderByIdempotencyKey?
  rw [Table.find?_eq_some]
  · simp
  · intro first second hFirst hSecond
    simp only [decide_eq_true_eq] at hFirst hSecond
    exact Or.inr (Or.inr (Or.inl (hFirst.trans hSecond.symm)))

theorem orderByPayment?_eq_some {db : Commerce} {paymentId : String} {row : OrderRow} :
    db.orderByPayment? paymentId = some row ↔
      row ∈ db.orders.rows ∧ row.providerPaymentId = some paymentId := by
  unfold orderByPayment?
  rw [Table.find?_eq_some]
  · simp
  · intro first second hFirst hSecond
    simp only [decide_eq_true_eq] at hFirst hSecond
    refine Or.inr (Or.inr (Or.inr (Or.inr (Or.inl ⟨?_, hFirst.trans hSecond.symm⟩))))
    change first.providerPaymentId.isSome
    rw [hFirst, Option.isSome_some]

theorem event?_eq_some {db : Commerce} {eventId : String} {row : EventRow} :
    db.event? eventId = some row ↔ row ∈ db.events.rows ∧ row.eventId = eventId := by
  unfold event?
  rw [Table.find?_eq_some]
  · simp
  · intro first second hFirst hSecond
    simp only [decide_eq_true_eq] at hFirst hSecond
    rw [hFirst, hSecond]

/-- Two orders with one identifier are the same row. -/
theorem order_eq_of_orderId {db : Commerce} {first second : OrderRow}
    (hFirst : first ∈ db.orders.rows) (hSecond : second ∈ db.orders.rows)
    (hSame : first.orderId = second.orderId) : first = second :=
  Table.eq_of_clash hFirst hSecond (Or.inl hSame) (Or.inl hSame.symm)

theorem event_eq_of_eventId {db : Commerce} {first second : EventRow}
    (hFirst : first ∈ db.events.rows) (hSecond : second ∈ db.events.rows)
    (hSame : first.eventId = second.eventId) : first = second :=
  Table.eq_of_clash hFirst hSecond hSame hSame.symm

theorem mem_pendingEvents {db : Commerce} {paymentId : String} {row : EventRow} :
    row ∈ db.pendingEvents paymentId ↔
      row ∈ db.events.rows ∧ row.paymentId = paymentId ∧ row.status = .pending := by
  simp [pendingEvents, List.mem_insertionSort]

theorem pendingEvents_nodup (db : Commerce) (paymentId : String) :
    (db.pendingEvents paymentId).Nodup := by
  have hRows : db.events.rows.Nodup := by
    refine db.events.distinct.imp ?_
    rintro first second hDistinct rfl
    exact hDistinct rfl
  exact (List.perm_insertionSort _ _).nodup_iff.mpr (hRows.filter _)

/-- `_require_order`. -/
def requireOrder (db : Commerce) (orderId : String) : Except Raised OrderRow :=
  Except.ofOption (rejected "order does not exist" "unknown_order") (db.order? orderId)

end Commerce

/-- The view of an order that the store returns. -/
structure OrderView where
  orderId : String
  environment : Environment
  quoteId : String
  buyerReference : String
  provider : Provider
  providerCheckoutId : Option String
  providerPaymentId : Option String
  orderStatus : OrderStatus
  paymentStatus : PaymentStatus
  quotedAmountMinor : Nat
  collectedAmountMinor : Nat
  processingFeeMinor : Nat
  directCostsMinor : List (DirectCost × Nat)
  directCostsRecorded : Bool
  refundedAmountMinor : Nat
  grossContributionMinor : Int
  currency : String
  receiptId : Option String
  receiptSha256 : Option String
  envelopeSha256 : Option String
  signingKeyid : Option String
  deliveryStatus : DeliveryStatus
  refundStatus : String
  settlementStatus : String
  pendingProviderEvents : List (String × EventType)
  countsForGoal : Bool
  createdAt : String
  updatedAt : String
deriving DecidableEq

namespace Commerce

/-- The sum of an order's entries in one category. -/
def categoryAmount (entries : List EntryRow) (category : EntryCategory) : Nat :=
  ((entries.filter fun row => row.category = category).map EntryRow.amountMinor).sum

/-- The sum of the contributions of some entries. -/
def contribution (entries : List EntryRow) : Int :=
  (entries.map EntryRow.contributionImpactMinor).sum

def refundStatus : PaymentStatus → String
  | .refundPending => "refund_pending"
  | .refunded => "refunded"
  | .disputed => "disputed"
  | _ => "not_refunded"

def settlementStatus (environment : Environment) (payment : PaymentStatus) (countsForGoal : Bool) :
    String :=
  if environment = .sandbox then "sandbox_nonsettling"
  else if payment = .available ∧ ¬countsForGoal then "available_not_goal_qualified"
  else if payment = .available then "available_goal_qualified"
  else if payment = .captured then "pending_provider_availability"
  else "not_confirmed"

/-- `_order_view`. -/
def orderView (db : Commerce) (orderId : String) : Except Raised OrderView := do
  let order ← db.requireOrder orderId
  let entries := db.entriesOf orderId
  let pendingRows := match order.providerPaymentId with
    | some paymentId => if paymentId = "" then [] else db.pendingEvents paymentId
    | none => []
  return {
    orderId := order.orderId
    environment := order.environment
    quoteId := order.quoteId
    buyerReference := order.buyerReference
    provider := order.provider
    providerCheckoutId := order.providerCheckoutId
    providerPaymentId := order.providerPaymentId
    orderStatus := order.orderStatus
    paymentStatus := order.paymentStatus
    quotedAmountMinor := order.quotedAmountMinor
    collectedAmountMinor := order.collectedAmountMinor
    processingFeeMinor := order.processingFeeMinor
    directCostsMinor := DirectCost.all.map fun category =>
      (category, categoryAmount entries (.direct category))
    directCostsRecorded := order.directCostsRecorded
    refundedAmountMinor := order.refundedAmountMinor
    grossContributionMinor := contribution entries
    currency := order.currency
    receiptId := order.receiptId
    receiptSha256 := order.receiptSha256
    envelopeSha256 := order.envelopeSha256
    signingKeyid := order.signingKeyid
    deliveryStatus := order.deliveryStatus
    refundStatus := refundStatus order.paymentStatus
    settlementStatus := settlementStatus db.environment order.paymentStatus order.countsForGoal
    pendingProviderEvents := pendingRows.map fun row => (row.eventId, row.eventType)
    countsForGoal := order.countsForGoal
    createdAt := order.createdAt
    updatedAt := order.updatedAt }

end Commerce

end VouchSpec
