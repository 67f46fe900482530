import VouchSpec.Commerce.Store
import VouchSpec.Library.Sha256

/-! A platform to evaluate the model on: SHA-256, HMAC-SHA256 and the ISO text
of UTC times in the proleptic Gregorian calendar; and a purchase to evaluate. -/

namespace VouchSpec

namespace Calendar

/-- Year, month and day of a count of days since the epoch. -/
def civil (days : Int) : Int × Int × Int :=
  let shifted := days + 719468
  let era := shifted / 146097
  let dayOfEra := shifted % 146097
  let yearOfEra := (dayOfEra - dayOfEra / 1460 + dayOfEra / 36524 - dayOfEra / 146096) / 365
  let dayOfYear := dayOfEra - (365 * yearOfEra + yearOfEra / 4 - yearOfEra / 100)
  let monthIndex := (5 * dayOfYear + 2) / 153
  let month := if monthIndex < 10 then monthIndex + 3 else monthIndex - 9
  (yearOfEra + 400 * era + (if month ≤ 2 then 1 else 0), month,
    dayOfYear - (153 * monthIndex + 2) / 5 + 1)

/-- The count of days since the epoch of a year, month and day. -/
def days (year month day : Int) : Int :=
  let shifted := if month ≤ 2 then year - 1 else year
  let era := shifted / 400
  let yearOfEra := shifted % 400
  let monthIndex := if month > 2 then month - 3 else month + 9
  let dayOfYear := (153 * monthIndex + 2) / 5 + day - 1
  era * 146097 + (yearOfEra * 365 + yearOfEra / 4 - yearOfEra / 100 + dayOfYear) - 719468

def digits (width : Nat) (value : Int) : List Char :=
  (List.range width).reverse.map fun index =>
    Char.ofNat (48 + value.toNat / 10 ^ index % 10)

def number (characters : List Char) : Int :=
  characters.foldl (fun value c => 10 * value + (c.toNat - 48 : Nat)) 0

/-- `YYYY-MM-DDTHH:MM:SS`. -/
def text (seconds : Int) : List Char :=
  let (year, month, day) := civil (seconds / 86400)
  let second := seconds % 86400
  digits 4 year ++ '-' :: digits 2 month ++ '-' :: digits 2 day ++ 'T' :: digits 2 (second / 3600) ++
    ':' :: digits 2 (second / 60 % 60) ++ ':' :: digits 2 (second % 60)

/-- The seconds that a text with the UTC offset names. -/
def seconds? (characters : List Char) : Option Int :=
  if characters.length = 25 ∧ characters.drop 19 = "+00:00".toList then
    some (days (number (characters.take 4)) (number ((characters.drop 5).take 2))
        (number ((characters.drop 8).take 2)) * 86400 +
      number ((characters.drop 11).take 2) * 3600 + number ((characters.drop 14).take 2) * 60 +
      number ((characters.drop 17).take 2))
  else none

/-- A text for a time outside the calendar's years. -/
def outside (seconds : Int) : List Char :=
  match seconds with
  | .ofNat count => List.replicate (count + 1) 'p'
  | .negSucc count => List.replicate (count + 1) 'n'

def outside? (characters : List Char) : Option Int :=
  match characters with
  | first :: rest =>
      if first = 'p' then some (rest.length - 6)
      else if first = 'n' then some (5 - rest.length)
      else none
  | [] => none

theorem outside?_outside (seconds : Int) :
    outside? (outside seconds ++ ['+', '0', '0', ':', '0', '0']) = some seconds := by
  cases seconds with
  | ofNat count => simp [outside, outside?, List.replicate_succ]
  | negSucc count =>
      simp [outside, outside?, List.replicate_succ]
      omega

def fromisoformat (value : String) : ParsedTime :=
  match (outside? value.toList).or (seconds? value.toList) with
  | some seconds => .aware (seconds * 1000000)
  | none => .invalid

def isoformat (seconds : Int) : String :=
  if fromisoformat (String.ofList (text seconds) ++ "+00:00") = .aware (seconds * 1000000) then
    String.ofList (text seconds)
  else String.ofList (outside seconds)

theorem fromisoformat_isoformat (seconds : Int) :
    fromisoformat (isoformat seconds ++ "+00:00") = .aware (seconds * 1000000) := by
  unfold isoformat
  split
  · next h => exact h
  · simp [fromisoformat, outside?_outside]

end Calendar

def Platform.standard : Platform where
  sha256 message := ⟨Sha256.digest message, Sha256.digest_length message⟩
  hmacSha256 key message := ⟨Sha256.hmac key message, Sha256.hmac_length key message⟩
  isoformat := Calendar.isoformat
  fromisoformat := Calendar.fromisoformat
  fromisoformat_isoformat := Calendar.fromisoformat_isoformat

namespace Sample

def request : Json :=
  .obj [("delivery_id", .str "delivery-0001"),
    ("max_price", .obj [("amount_minor", .int 4900), ("currency", .str "usd")]),
    ("operation", .str "fresh_public_static_validation"),
    ("profile", .str "vouchspec-public-static-v1"), ("schema_version", .str "1.0.0"),
    ("source", .obj [("commit", .str "0123456789abcdef0123456789abcdef01234567"),
      ("host", .str "github.com"), ("owner", .str "example"), ("repository", .str "skills"),
      ("skill_path", .str "skills/demo")])]

/-- 2026-01-01T00:00:00Z. -/
def newYear : Int := 1767225600000000

def quoteId : String := "q_000000000000000000000001"

/-- A quote for a provider, and its order. -/
def opening (provider : String) : List Commerce.Call :=
  [.createQuote request quoteId ⟨newYear, true⟩ provider false "",
    .createOrder quoteId "order-key-0001" "buyer-0001" ⟨newYear, true⟩]

def orderId : String := "ord_test_c20ff0a83f75335813d2ce4c"

/-- The order that the opening creates. -/
def order (provider : Provider) : OrderRow :=
  { orderId, environment := .sandbox, quoteId, idempotencyKey := "order-key-0001",
    buyerReference := "buyer-0001", provider, orderStatus := .checkoutPending,
    paymentStatus := .pending, quotedAmountMinor := 4900, currency := "usd",
    deliveryStatus := .notStarted, countsForGoal := false, createdAt := "2026-01-01T00:00:00Z",
    updatedAt := "2026-01-01T00:00:00Z" }

def paymentId : String := "pay_test_0123456789abcdef01234567"

/-- An order that waits for its payment by the sandbox provider. -/
def waiting : List Commerce.Call :=
  opening "fake" ++ [.attachCheckout orderId paymentId "2026-01-01T00:00:00Z" none]

def waitingOrder : OrderRow :=
  { order .fake with
    providerCheckoutId := some paymentId, providerPaymentId := some paymentId
    orderStatus := .paymentPending }

/-- An event of the sandbox provider, named by the last digit of its identifier. -/
def event (digit : String) (type : EventType) (amountMinor feeMinor : Nat) : ProviderEvent :=
  { provider := .fake, environment := .sandbox
    eventId := "evt_test_00000000000000000000000" ++ digit, type, paymentId, amountMinor, feeMinor
    currency := "usd", occurredAt := "2026-01-01T00:00:00Z" }

end Sample

end VouchSpec
