import Mathlib.Data.List.Dedup
import VouchSpec.Library.Sorting
import VouchSpec.Paid.Store

/-! Drafts: the feed that the root is to sign next. It repeats the stored states, with
the changes that were asked for. -/

namespace VouchSpec

namespace Paid

open Signing Lifecycle

/-- `_record_from_row`, as the dict that goes into a feed. -/
def StatusRow.json (row : StatusRow) : Json :=
  .obj ([("receipt_id", .str row.receiptId), ("status", .str (statusValue row.status))] ++
    ((successor? row.status).map fun supersededBy => ("superseded_by", Json.str supersededBy)).toList ++
    (row.reason.map fun reason => ("reason", Json.str reason)).toList)

/-- What the transition of a record looks at. -/
def rawOf (receiptId : String) (record : Json) : RawRecord where
  receiptId
  status := record.get? "status"
  supersededBy := record.get? "superseded_by"
  reason := record.get? "reason"

/-- `requested.get(receipt_id)`, where null is as good as absent. -/
def changeOf (changes : List (String × Json)) (receiptId : String) : Option Json :=
  match (Json.obj changes).get? receiptId with
  | some .null => none
  | change => change

/-- `{"receipt_id": receipt_id, **change}`. -/
def changedRecord (receiptId : String) (change : Json) : Except Raised Json :=
  match change with
  | .obj members => do
      require ((change.get? "status").isSome ∧ ∀ member ∈ members, member.1 ∈ ["status", "superseded_by", "reason"])
        (invalidFeed "paid lifecycle change is invalid")
      return .obj (("receipt_id", .str receiptId) :: members)
  | _ => .error (invalidFeed "paid lifecycle change is invalid")

/-- The record of a receipt without a change. -/
def keptRecord (receiptId : String) : Option StatusRow → Json
  | none => .obj [("receipt_id", .str receiptId), ("status", .str "current")]
  | some row => row.json

/-- The record of a receipt, changed or kept. -/
def recordFor (prior : Option StatusRow) (receiptId : String) : Option Json → Except Raised Json
  | none => .ok (keptRecord receiptId prior)
  | some change => changedRecord receiptId change

def deriveRecord (store : Store) (changes : List (String × Json)) (receipts : List String) (receiptId : String) :
    Except Raised Json := do
  let prior := store.status? receiptId
  let record ← recordFor prior receiptId (changeOf changes receiptId)
  validateTransition prior (rawOf receiptId record) receipts
  return record

/-- `sorted(by_receipt)`. -/
def receiptsOf (orders : List Delivered) : List String :=
  (orders.map Delivered.receiptId).dedup.sortBy String.toList

/-- `_derive_records`. -/
def deriveRecords (orders : List Delivered) (store : Store) (changes : List (String × Json)) :
    Except Raised (List Json) := do
  require (∀ change ∈ changes, change.1 ∈ orders.map Delivered.receiptId)
    (coverageError "lifecycle change names an unknown receipt")
  (receiptsOf orders).mapM (deriveRecord store changes (orders.map Delivered.receiptId))

section
variable (t : Toolkit)

def draftFeed (sequence : Int) (issuerKeys : Json) (generatedAt expiresAt : Int) (records : List Json) : Json :=
  .obj [("schema_version", .str "1.0.0"), ("sequence", .int sequence), ("generated_at", .str (t.timestamp generatedAt)),
    ("expires_at", .str (t.timestamp expiresAt)), ("issuer_keys", issuerKeys), ("receipts", .arr records)]

/-- The part of `build_draft` after its reads. -/
def draftOf (issuerKeys : Json) (generatedAt expiresAt : Int) (changes : List (String × Json)) (orders : List Delivered)
    (store : Store) : Except Raised Bytes := do
  let records ← deriveRecords orders store changes
  let sequence := (store.latest?.map Publication.sequence).getD 0 + 1
  let value := draftFeed t sequence issuerKeys generatedAt expiresAt records
  let feed ← validateLifecycleFeed t value
  validateIssuerCoverage feed orders
  validateIssuerTransitions feed (store.latest?.map Publication.feed)
  require (sequence.natAbs < 10 ^ Json.maxDigits)
    (.valueError "Exceeds the limit (4300 digits) for integer string conversion")
  return deterministicJson value

/-- `build_draft`: the orders are read before the tables of the lifecycle. -/
def buildDraft (issuerKeys : Json) (generatedAt expiresAt : Int) (changes : List (String × Json)) :
    Program Store Raised Bytes := do
  .check (require (generatedAt < expiresAt ∧ expiresAt - generatedAt ≤ maxFeedLifetime)
    (invalidFeed "paid lifecycle feed lifetime is invalid"))
  .check (require (changes.length ≤ 100000) (invalidFeed "paid lifecycle changes are invalid"))
  let orders ← .read fun store => deliveredOrders store.commerce
  .check (require (orders ≠ []) (rejected "no delivered receipts exist" "paid_lifecycle_empty"))
  .read (draftOf t issuerKeys generatedAt expiresAt changes orders)

end

end Paid

end VouchSpec
