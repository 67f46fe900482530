import Mathlib.Data.List.MinMax
import VouchSpec.Access.Store
import VouchSpec.Library.Program
import VouchSpec.Lifecycle.Evaluation

/-! The lifecycle of the receipts of delivered orders: drafts of feeds for the root
to sign, their publication, and the evaluation of an order's receipt. Its tables
lie in the file of the commerce store. A publication reads the delivered orders
first and writes in a transaction of its own. -/

namespace VouchSpec

namespace Paid

open Signing Lifecycle

/-- A row of `paid_lifecycle_publications`; the feed is what `feed_json` holds. -/
structure Publication where
  sequence : Int
  rootKeyid : String
  payloadSha256 : String
  feed : Feed
  envelopeBody : Bytes
  generatedAt : String
  expiresAt : String
  publishedAt : String

/-- A row of `paid_lifecycle_status`; the status column comes with `superseded_by`. -/
structure StatusRow where
  receiptId : String
  orderId : String
  status : ReceiptStatus
  reason : Option String
  sequence : Int
  updatedAt : String

def Publication.keys (row : Publication) : Int × String := (row.sequence, row.payloadSha256)

def StatusRow.keys (row : StatusRow) : String × String := (row.receiptId, row.orderId)

/-- The commerce store with the tables of the paid lifecycle. -/
structure Store where
  commerce : Commerce
  publications : Table Publication.keys Access.EitherSame := .empty
  statuses : Table StatusRow.keys Access.EitherSame := .empty
  rootKeyid : Option String := none

/-- The evidence of a delivered order. -/
structure Delivered where
  orderId : String
  receiptId : String
  receiptSha256 : String
  envelopeSha256 : String
  signingKeyid : String
deriving DecidableEq

/-- A record as a dict: each member is absent, or a value. -/
structure RawRecord where
  receiptId : String
  status : Option Json
  supersededBy : Option Json
  reason : Option Json
deriving DecidableEq

/-- `MAX_FEED_LIFETIME`. -/
def maxFeedLifetime : Int := minutes (7 * 24 * 60)

def coverageError (message : String) : Raised := rejected message "paid_lifecycle_coverage"
def rollback (message : String) : Raised := rejected message "lifecycle_rollback"

/-- The value of the `status` member. -/
def statusValue : ReceiptStatus → String
  | .current => "current"
  | .superseded _ => "superseded"
  | .revokedEvaluatorDefect => "revoked_evaluator_defect"
  | .revokedKeyCompromise => "revoked_key_compromise"

def successor? : ReceiptStatus → Option String
  | .superseded supersededBy => some supersededBy
  | _ => none

/-- A record of a feed as a dict. -/
def rawOfRecord (record : Record) : RawRecord where
  receiptId := record.receiptId
  status := some (.str (statusValue record.status))
  supersededBy := (successor? record.status).map Json.str
  reason := record.reason.map fun reason => (reason.map Json.str).getD .null

/-- `_record_from_row`. -/
def StatusRow.record (row : StatusRow) : Record :=
  { receiptId := row.receiptId, status := row.status, reason := row.reason.map some }

/-- `ORDER BY receipt_id, order_id`. -/
def deliveredBefore (left right : OrderRow) : Prop :=
  (left.receiptId.getD "").toList < (right.receiptId.getD "").toList ∨
    left.receiptId = right.receiptId ∧ left.orderId.toList ≤ right.orderId.toList

instance : DecidableRel deliveredBefore := fun _ _ => inferInstanceAs (Decidable (_ ∨ _))

/-- `list_delivered_orders` of the commerce store. -/
def listDeliveredOrders (db : Commerce) : Except Raised (List OrderView) :=
  ((db.orders.rows.filter fun order => order.orderStatus = .delivered).insertionSort deliveredBefore).mapM
    fun order => db.orderView order.orderId

/-- The evidence of an order, when all of it is there. -/
def evidence? (order : OrderView) : Option Delivered := do
  let receiptId ← order.receiptId
  let receiptSha256 ← order.receiptSha256
  let envelopeSha256 ← order.envelopeSha256
  let signingKeyid ← order.signingKeyid
  if receiptId = "" ∨ receiptSha256 = "" ∨ envelopeSha256 = "" ∨ signingKeyid = "" then none
  else some { orderId := order.orderId, receiptId, receiptSha256, envelopeSha256, signingKeyid }

/-- `_delivered_orders`. -/
def deliveredOrders (db : Commerce) : Except Raised (List Delivered) := do
  let orders ← listDeliveredOrders db
  orders.mapM fun order =>
    Except.ofOption (rejected "delivered order evidence is incomplete" "invalid_delivery") (evidence? order)

/-- `_validate_issuer_coverage`. -/
def validateIssuerCoverage (feed : Feed) (orders : List Delivered) : Except Raised Unit :=
  require ((∀ order ∈ orders, order.signingKeyid ∈ feed.issuerKeys.map Issuer.keyid) ∧
      ∀ issuer ∈ feed.issuerKeys, issuer.keyid ∈ orders.map Delivered.signingKeyid)
    (coverageError "paid lifecycle issuer keys do not exactly match delivered receipt signers")

/-- One issuer of the prior feed beside the current ones. -/
def validateIssuerTransition (feed : Feed) (prior : Issuer) : Except Raised Unit := do
  let issuer ← Except.ofOption .keyError (feed.issuer? prior.keyid)
  require (¬(prior.status = .compromised ∧ issuer.status ≠ .compromised))
    (rollback "compromised paid lifecycle issuer cannot be restored")
  require (¬(prior.status = .retired ∧ issuer.status = .active))
    (rollback "retired paid lifecycle issuer cannot be restored")

/-- `_validate_issuer_transitions`. -/
def validateIssuerTransitions (feed : Feed) (priorFeed : Option Feed) : Except Raised Unit :=
  match priorFeed with
  | none => .ok ()
  | some priorFeed => do
      require (∀ issuer ∈ priorFeed.issuerKeys, issuer.keyid ∈ feed.issuerKeys.map Issuer.keyid)
        (rollback "paid lifecycle issuer key was removed")
      priorFeed.issuerKeys.forM (validateIssuerTransition feed)

/-- The checks of a record that do not look at the prior one. -/
def validateShape (record : RawRecord) (status : String) (deliveredReceipts : List String) : Except Raised Unit := do
  require (¬(status = "current" ∧ (record.reason.isSome ∨ record.supersededBy.isSome)))
    (invalidFeed "current paid receipts cannot carry an invalidation")
  if status = "superseded" then do
    let listed ← inStrings (record.supersededBy.getD .null) deliveredReceipts
    require (listed = true ∧ record.supersededBy ≠ some (.str record.receiptId))
      (invalidFeed "paid receipt successor is invalid")
  require (¬(status = "revoked_evaluator_defect" ∨ status = "revoked_key_compromise") ∨
      ∃ reason ∈ record.reason, reason.str?.isSome)
    (invalidFeed "revoked paid receipt requires a reason")

/-- `_validate_transition`. -/
def validateTransition (prior : Option StatusRow) (record : RawRecord) (deliveredReceipts : List String) :
    Except Raised Unit := do
  let known ← inStrings (record.status.getD .null)
    ["current", "superseded", "revoked_evaluator_defect", "revoked_key_compromise"]
  require (known = true) (invalidFeed "paid lifecycle status is invalid")
  let status ← Except.ofOption (invalidFeed "paid lifecycle status is invalid") (record.status.bind Json.str?)
  validateShape record status deliveredReceipts
  match prior with
  | none => require (status = "current") (invalidFeed "new paid receipts must first publish as current")
  | some row => do
      require (row.status = .current ∨ rawOfRecord row.record = record)
        (rollback "paid receipt terminal lifecycle state cannot change")
      require (¬(row.status = .current ∧ status = "current" ∧ rawOfRecord row.record ≠ record))
        (rejected "current paid receipt state is inconsistent" "lifecycle_equivocation")

namespace Store

variable (store : Store)

/-- `ORDER BY sequence DESC LIMIT 1`. -/
def latest? : Option Publication :=
  letI : Preorder Int := Int.instLinearOrder.toPreorder
  store.publications.rows.argmax Publication.sequence

def status? (receiptId : String) : Option StatusRow :=
  store.statuses.find? fun row => row.receiptId = receiptId

/-- `INSERT .. ON CONFLICT(receipt_id) DO UPDATE`. -/
def upsert (statuses : Table StatusRow.keys Access.EitherSame) (row : StatusRow) :
    Option (Table StatusRow.keys Access.EitherSame) :=
  if (statuses.find? fun old => old.receiptId = row.receiptId).isSome then
    some (statuses.update (fun old => old.receiptId = row.receiptId)
      (fun old => { old with
        status := row.status, reason := row.reason, sequence := row.sequence, updatedAt := row.updatedAt })
      fun _ => rfl)
  else statuses.insert? row

end Store

/-- What `publish` returns. -/
structure PublicationView where
  sequence : Int
  rootKeyid : String
  payloadSha256 : String
  generatedAt : String
  expiresAt : String
  publishedAt : String
  receipts : List (Record × String)

/-- `_publication_view`. -/
def Store.publicationView (store : Store) (sequence : Int) : Except Raised PublicationView := do
  let row ← Except.ofOption (rejected "paid lifecycle publication is missing" "paid_lifecycle_missing")
    (store.publications.find? fun row => row.sequence = sequence)
  let receipts ← row.feed.receipts.mapM fun record => do
    let order ← Except.ofOption .keyError
      (store.commerce.orders.find? fun order => order.receiptId = some record.receiptId)
    return (record, order.orderId)
  return { sequence := row.sequence, rootKeyid := row.rootKeyid, payloadSha256 := row.payloadSha256
           generatedAt := row.generatedAt, expiresAt := row.expiresAt, publishedAt := row.publishedAt, receipts }

/-- An envelope that has passed the checks that do not look at the store. -/
structure Submission where
  feed : Feed
  rootKeyid : String
  payloadSha256 : String
  envelopeBody : Bytes
  observed : Int

/-- What the transaction reads the orders as. -/
def orderOf (orders : List Delivered) (receiptId : String) : Except Raised Delivered :=
  Except.ofOption .keyError (orders.find? fun order => order.receiptId = receiptId)

section
variable {Key : Type} (t : Toolkit) (scheme : Ed25519 Key) (schema : Signing.Schema)

/-- The checks of `publish` before it looks at the orders. -/
def submit (envelopeBytes : Bytes) (trustedRootJwk : Json) (publishedAt : Int) : Except Raised Submission := do
  require (1 ≤ envelopeBytes.length ∧ envelopeBytes.length ≤ 1100000)
    (invalidFeed "paid lifecycle envelope is invalid")
  let (feed, payload) ← verifyLifecycleEnvelope t scheme envelopeBytes trustedRootJwk
  let rootKeyid ← jwkThumbprint t trustedRootJwk
  require (¬(publishedAt + minutes 5 < feed.generated ∨ feed.expires ≤ publishedAt ∨
      maxFeedLifetime < feed.expires - feed.generated))
    (invalidFeed "paid lifecycle publication time is invalid")
  return { feed, rootKeyid, payloadSha256 := (t.sha256 payload).hexdigest, envelopeBody := envelopeBytes
           observed := publishedAt }

/-- The delivered orders, when the feed covers them exactly. -/
def coveredOrders (submission : Submission) (db : Commerce) : Except Raised (List Delivered) := do
  let orders ← deliveredOrders db
  require (orders ≠ []) (rejected "no delivered receipts exist" "paid_lifecycle_empty")
  validateIssuerCoverage submission.feed orders
  require ((∀ record ∈ submission.feed.receipts, record.receiptId ∈ orders.map Delivered.receiptId) ∧
      ∀ order ∈ orders, order.receiptId ∈ submission.feed.receipts.map Record.receiptId)
    (coverageError "paid lifecycle feed does not exactly cover delivered receipts")
  return orders

/-- The rows of the statuses after the records of a publication. -/
def applyRecords (orders : List Delivered) (sequence : Int) (updatedAt : String) :
    List Record → Table StatusRow.keys Access.EitherSame →
      Except Raised (Table StatusRow.keys Access.EitherSame)
  | [], statuses => .ok statuses
  | record :: rest, statuses => do
      let order ← orderOf orders record.receiptId
      let statuses ← Except.ofOption .integrityError (Store.upsert statuses
        { receiptId := record.receiptId, orderId := order.orderId, status := record.status
          reason := record.reason.join, sequence, updatedAt })
      applyRecords orders sequence updatedAt rest statuses

/-- The write transaction of `publish`. -/
def importFeed (submission : Submission) (orders : List Delivered) (store : Store) :
    Except Raised (Store × PublicationView) := do
  require (store.rootKeyid = none ∨ store.rootKeyid = some submission.rootKeyid)
    (rejected "paid lifecycle root changed" "untrusted_key")
  let latest := store.latest?
  require (∀ row ∈ latest, row.sequence ≤ submission.feed.sequence) (rollback "paid lifecycle rollback detected")
  if (latest.map Publication.sequence) = some submission.feed.sequence then do
    require (latest.map Publication.payloadSha256 = some submission.payloadSha256)
      (rejected "paid lifecycle equal-sequence equivocation detected" "lifecycle_equivocation")
    let view ← store.publicationView submission.feed.sequence
    return (store, view)
  else do
    require (submission.feed.sequence = (latest.map Publication.sequence).getD 0 + 1)
      (rollback "paid lifecycle sequence is not contiguous")
    validateIssuerTransitions submission.feed (latest.map Publication.feed)
    submission.feed.receipts.forM fun record =>
      validateTransition (store.status? record.receiptId) (rawOfRecord record) (orders.map Delivered.receiptId)
    let publishedAt := t.timestamp submission.observed
    let publications ← Except.ofOption .integrityError (store.publications.insert?
      { sequence := submission.feed.sequence, rootKeyid := submission.rootKeyid
        payloadSha256 := submission.payloadSha256, feed := submission.feed
        envelopeBody := submission.envelopeBody, generatedAt := submission.feed.generatedAt
        expiresAt := submission.feed.expiresAt, publishedAt })
    let statuses ← applyRecords orders submission.feed.sequence publishedAt submission.feed.receipts store.statuses
    let after : Store := { store with publications, statuses, rootKeyid := some submission.rootKeyid }
    let view ← after.publicationView submission.feed.sequence
    return (after, view)

/-- `publish`: the orders are read before the transaction begins. -/
def publish (envelopeBytes : Bytes) (trustedRootJwk : Json) (publishedAt : Int) :
    Program Store Raised PublicationView := do
  let submission ← .check (submit t scheme envelopeBytes trustedRootJwk publishedAt)
  let orders ← .read fun store => coveredOrders submission store.commerce
  .call (importFeed t submission orders)

/-- `latest_envelope`. -/
def Store.latestEnvelope (store : Store) : Except Raised Bytes :=
  Except.ofOption (rejected "paid lifecycle has not been published" "paid_lifecycle_missing")
    (store.latest?.map Publication.envelopeBody)

/-- `evaluate_order_receipt` at a time with a timezone. -/
def evaluateOrderReceipt (store : Store) (orderId : String) (receiptEnvelopeBytes : Bytes) (trustedRootJwk : Json)
    (now : Int) : Except Raised Evaluation := do
  let order ← store.commerce.getOrder orderId
  let envelopeSha256 ← Except.ofOption (rejected "order has no delivered receipt" "invalid_delivery")
    (if order.deliveryStatus = .delivered then order.envelopeSha256 else none)
  require ((t.sha256 receiptEnvelopeBytes).hexdigest = envelopeSha256)
    (rejected "receipt envelope does not match the order" "invalid_delivery")
  let lifecycleEnvelope ← store.latestEnvelope
  let result ← evaluateReceiptLifecycle t scheme schema receiptEnvelopeBytes lifecycleEnvelope trustedRootJwk now 0
  require (result.subject.map Subject.receiptId = order.receiptId.map Json.str)
    (rejected "lifecycle receipt does not match the order" "invalid_delivery")
  return result

end

end Paid

end VouchSpec
