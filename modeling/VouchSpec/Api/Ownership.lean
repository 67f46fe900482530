import VouchSpec.Api.Orders

/-! Who owns the identifiers of the API. They are derived from a tenant and its
idempotency keys, so that each has one owner where the digests in them do not
collide; a file that was filled through the API holds no others. -/

namespace VouchSpec

open Access

namespace Api

/-- The environment of a file, and the idempotency keys in use with their tenants. -/
structure Usage where
  environment : Environment
  keys : List (String × String)

/-- What the identifier of an order is derived from. -/
structure OrderSource where
  tenantId : String
  quoteId : String
  idempotencyKey : String
deriving DecidableEq

/-- The text whose digest names the order. -/
def OrderSource.text (source : OrderSource) : Bytes :=
  Bytes.utf8 (source.quoteId.toList ++ Char.ofNat 0 ::
    (source.idempotencyKey.toList ++ Char.ofNat 0 :: source.tenantId.toList))

variable (p : Platform) (keyring : Keyring)

def OrderSource.orderId (environment : Environment) (source : OrderSource) : String :=
  (Commerce.empty environment).orderIdFor p source.quoteId source.idempotencyKey source.tenantId

namespace Usage

variable (usage : Usage)

/-- What is derived from the keys in use, with their tenants. -/
def derived (derive : String → String → Except Raised String) : List (String × String) :=
  usage.keys.filterMap fun key => (derive key.1 key.2).toOption.map (key.1, ·)

/-- The quote identifiers that the keys give. -/
def quoteIds : List (String × String) := usage.derived (deriveQuoteId p keyring)

/-- The idempotency keys that the store sees. -/
def orderKeys : List (String × String) := usage.derived (deriveOrderIdempotencyKey p keyring)

/-- The orders that a tenant can create: its quotes under its keys. -/
def orders : List OrderSource :=
  (usage.quoteIds p keyring).flatMap fun quote =>
    ((usage.orderKeys p keyring).filter fun key => key.1 = quote.1).map fun key =>
      { tenantId := quote.1, quoteId := quote.2, idempotencyKey := key.2 }

/-- The truncated digests in the identifiers in use do not collide. -/
structure CollisionFree : Prop where
  quoteIds : ∀ first ∈ usage.keys, ∀ second ∈ usage.keys,
    (mac p (quoteIdInput keyring first.1 first.2)).hexPrefix 24 =
      (mac p (quoteIdInput keyring second.1 second.2)).hexPrefix 24 →
    quoteIdInput keyring first.1 first.2 = quoteIdInput keyring second.1 second.2
  orderKeys : ∀ first ∈ usage.keys, ∀ second ∈ usage.keys,
    (mac p (orderIdempotencyInput keyring first.1 first.2)).hexPrefix 32 =
      (mac p (orderIdempotencyInput keyring second.1 second.2)).hexPrefix 32 →
    orderIdempotencyInput keyring first.1 first.2 = orderIdempotencyInput keyring second.1 second.2
  orderIds : ∀ first ∈ usage.orders p keyring, ∀ second ∈ usage.orders p keyring,
    (p.sha256 first.text).hexPrefix 24 = (p.sha256 second.text).hexPrefix 24 → first.text = second.text
  paymentIds : ∀ first ∈ usage.orders p keyring, ∀ second ∈ usage.orders p keyring,
    (p.sha256 (Bytes.ascii (first.orderId p usage.environment))).hexPrefix 24 =
      (p.sha256 (Bytes.ascii (second.orderId p usage.environment))).hexPrefix 24 →
    Bytes.ascii (first.orderId p usage.environment) = Bytes.ascii (second.orderId p usage.environment)

/-- Truncated digests that are all different do not collide. -/
theorem collisionFree_of_nodup
    (hQuotes : (usage.keys.map fun key =>
      (mac p (quoteIdInput keyring key.1 key.2)).hexPrefix 24).Nodup)
    (hKeys : (usage.keys.map fun key =>
      (mac p (orderIdempotencyInput keyring key.1 key.2)).hexPrefix 32).Nodup)
    (hOrders : ((usage.orders p keyring).map fun order => (p.sha256 order.text).hexPrefix 24).Nodup)
    (hPayments : ((usage.orders p keyring).map fun order =>
      (p.sha256 (Bytes.ascii (order.orderId p usage.environment))).hexPrefix 24).Nodup) :
    usage.CollisionFree p keyring where
  quoteIds first hFirst second hSecond hSame := by
    rw [List.inj_on_of_nodup_map hQuotes hFirst hSecond hSame]
  orderKeys first hFirst second hSecond hSame := by
    rw [List.inj_on_of_nodup_map hKeys hFirst hSecond hSame]
  orderIds first hFirst second hSecond hSame := by
    rw [List.inj_on_of_nodup_map hOrders hFirst hSecond hSame]
  paymentIds first hFirst second hSecond hSame := by
    rw [List.inj_on_of_nodup_map hPayments hFirst hSecond hSame]

/-- The tenant may be given this quote. -/
def QuoteOf (tenantId quoteId : String) : Prop := (tenantId, quoteId) ∈ usage.quoteIds p keyring

/-- The tenant's orders may carry this key. -/
def KeyOf (tenantId key : String) : Prop := (tenantId, key) ∈ usage.orderKeys p keyring

/-- The tenant may be given this order. -/
def OrderOf (tenantId orderId : String) : Prop :=
  ∃ source ∈ usage.orders p keyring, source.tenantId = tenantId ∧
    source.orderId p usage.environment = orderId

instance (tenantId quoteId : String) : Decidable (usage.QuoteOf p keyring tenantId quoteId) :=
  inferInstanceAs (Decidable (_ ∈ _))

variable {p keyring usage}

private theorem mem_derived {derive : String → String → Except Raised String} {tenantId value : String} :
    (tenantId, value) ∈ usage.derived derive ↔
      ∃ key, (tenantId, key) ∈ usage.keys ∧ derive tenantId key = .ok value := by
  simp only [derived, List.mem_filterMap, Option.map_eq_some_iff, Prod.exists, Prod.mk.injEq]
  constructor
  · rintro ⟨tenant, key, hKey, _, hDerived, rfl, rfl⟩
    refine ⟨key, hKey, ?_⟩
    cases hRun : derive tenant key with
    | error error =>
        rw [hRun] at hDerived
        cases hDerived
    | ok value =>
        rw [hRun] at hDerived
        exact congrArg Except.ok (Option.some.inj hDerived)
  · rintro ⟨key, hKey, hDerived⟩
    exact ⟨tenantId, key, hKey, value, by rw [hDerived]; rfl, rfl, rfl⟩

theorem quoteOf_iff {tenantId quoteId : String} : usage.QuoteOf p keyring tenantId quoteId ↔
    ∃ key, (tenantId, key) ∈ usage.keys ∧ deriveQuoteId p keyring tenantId key = .ok quoteId :=
  mem_derived

theorem keyOf_iff {tenantId internalKey : String} : usage.KeyOf p keyring tenantId internalKey ↔
    ∃ key, (tenantId, key) ∈ usage.keys ∧
      deriveOrderIdempotencyKey p keyring tenantId key = .ok internalKey :=
  mem_derived

theorem mem_orders {source : OrderSource} : source ∈ usage.orders p keyring ↔
    usage.QuoteOf p keyring source.tenantId source.quoteId ∧
      usage.KeyOf p keyring source.tenantId source.idempotencyKey := by
  simp only [orders, List.mem_flatMap, List.mem_map, List.mem_filter, decide_eq_true_eq, QuoteOf, KeyOf,
    Prod.exists]
  constructor
  · rintro ⟨tenant, quoteId, hQuote, other, key, ⟨hKey, rfl⟩, rfl⟩
    exact ⟨hQuote, hKey⟩
  · rintro ⟨hQuote, hKey⟩
    exact ⟨source.tenantId, source.quoteId, hQuote, source.tenantId, source.idempotencyKey, ⟨hKey, rfl⟩, rfl⟩

theorem orderOf_of {tenantId quoteId key : String} (hQuote : usage.QuoteOf p keyring tenantId quoteId)
    (hKey : usage.KeyOf p keyring tenantId key) : usage.OrderOf p keyring tenantId
      ((Commerce.empty usage.environment).orderIdFor p quoteId key tenantId) :=
  ⟨⟨tenantId, quoteId, key⟩, mem_orders.mpr ⟨hQuote, hKey⟩, rfl, rfl⟩

private theorem hexPrefix_length {digest : Digest} {count : Nat} (hCount : count ≤ 64) :
    (digest.hexPrefix count).toList.length = count := by
  simp only [Digest.hexPrefix, String.toList_ofList, List.length_take, digest.hexdigest_length]
  omega

private theorem text_cancel {literal left right : String} (h : literal ++ left = literal ++ right) :
    left = right := by
  have hLists := congrArg String.toList h
  rw [String.toList_append, String.toList_append, List.append_cancel_left_eq] at hLists
  exact String.toList_inj.mp hLists

section
variable (free : usage.CollisionFree p keyring)
include free

/-- Two tenants have no quote in common. -/
theorem quoteOf_unique {tenantId other quoteId : String} (hQuote : usage.QuoteOf p keyring tenantId quoteId)
    (hOther : usage.QuoteOf p keyring other quoteId) : tenantId = other := by
  obtain ⟨key, hKey, hDerived⟩ := quoteOf_iff.mp hQuote
  obtain ⟨use, hUse, hSame⟩ := quoteOf_iff.mp hOther
  obtain ⟨⟨hTenant, hPattern⟩, hId⟩ := (deriveQuoteId_eq_ok p keyring).mp hDerived
  obtain ⟨⟨hTenant', hPattern'⟩, hId'⟩ := (deriveQuoteId_eq_ok p keyring).mp hSame
  have hInput := free.quoteIds _ hKey _ hUse (text_cancel (hId.trans hId'.symm))
  have hParts := (macInput_inj (by simp) (by simp)
    (by simp [isPart_tenantId hTenant, isPart_idempotency hPattern])
    (by simp [isPart_tenantId hTenant', isPart_idempotency hPattern']) hInput).2.2
  simp only [List.cons.injEq] at hParts
  exact hParts.1

/-- Two tenants have no order key in common. -/
theorem keyOf_unique {tenantId other internalKey : String}
    (hKeyOf : usage.KeyOf p keyring tenantId internalKey)
    (hOther : usage.KeyOf p keyring other internalKey) : tenantId = other := by
  obtain ⟨key, hKey, hDerived⟩ := keyOf_iff.mp hKeyOf
  obtain ⟨use, hUse, hSame⟩ := keyOf_iff.mp hOther
  obtain ⟨⟨hTenant, hPattern⟩, hId⟩ := (deriveOrderIdempotencyKey_eq_ok p keyring).mp hDerived
  obtain ⟨⟨hTenant', hPattern'⟩, hId'⟩ := (deriveOrderIdempotencyKey_eq_ok p keyring).mp hSame
  have hInput := free.orderKeys _ hKey _ hUse (text_cancel (hId.trans hId'.symm))
  have hParts := (macInput_inj (by simp) (by simp)
    (by simp [isPart_tenantId hTenant, isPart_idempotency hPattern])
    (by simp [isPart_tenantId hTenant', isPart_idempotency hPattern']) hInput).2.2
  simp only [List.cons.injEq] at hParts
  exact hParts.1

omit free in
/-- The text of an order ends in its tenant, after parts of fixed lengths. -/
private theorem text_tenant {first second : OrderSource} (hFirst : first ∈ usage.orders p keyring)
    (hSecond : second ∈ usage.orders p keyring) (hText : first.text = second.text) :
    first.tenantId = second.tenantId := by
  have hLengths : ∀ source ∈ usage.orders p keyring,
      source.quoteId.toList.length = 26 ∧ source.idempotencyKey.toList.length = 36 := by
    intro source hSource
    obtain ⟨hQuote, hKey⟩ := mem_orders.mp hSource
    obtain ⟨_, -, hDerived⟩ := quoteOf_iff.mp hQuote
    obtain ⟨_, -, hInternal⟩ := keyOf_iff.mp hKey
    obtain ⟨-, hId⟩ := (deriveQuoteId_eq_ok p keyring).mp hDerived
    obtain ⟨-, hOrderKey⟩ := (deriveOrderIdempotencyKey_eq_ok p keyring).mp hInternal
    rw [← hId, ← hOrderKey, String.toList_append, String.toList_append, List.length_append,
      List.length_append, hexPrefix_length (by decide), hexPrefix_length (by decide)]
    exact ⟨rfl, rfl⟩
  obtain ⟨hQuote, hKey⟩ := hLengths first hFirst
  obtain ⟨hQuote', hKey'⟩ := hLengths second hSecond
  have hChars := Bytes.utf8_injective hText
  have hRest := (List.append_inj hChars (hQuote.trans hQuote'.symm)).2
  have hTail := (List.append_inj (List.cons.inj hRest).2 (hKey.trans hKey'.symm)).2
  exact String.toList_inj.mp (List.cons.inj hTail).2

/-- Two tenants have no order in common. -/
theorem orderOf_unique {tenantId other orderId : String}
    (hOrder : usage.OrderOf p keyring tenantId orderId)
    (hOther : usage.OrderOf p keyring other orderId) : tenantId = other := by
  obtain ⟨first, hFirst, rfl, hId⟩ := hOrder
  obtain ⟨second, hSecond, rfl, hId'⟩ := hOther
  refine text_tenant hFirst hSecond (free.orderIds _ hFirst _ hSecond ?_)
  exact text_cancel (hId.trans hId'.symm)

/-- Two orders in use have no payment in common. -/
theorem payment_unique {tenantId other orderId otherId paymentId : String}
    (hOrder : usage.OrderOf p keyring tenantId orderId) (hOther : usage.OrderOf p keyring other otherId)
    (hPayment : FakePaymentProvider.paymentId p orderId = .ok paymentId)
    (hSame : FakePaymentProvider.paymentId p otherId = .ok paymentId) : orderId = otherId := by
  obtain ⟨first, hFirst, -, rfl⟩ := hOrder
  obtain ⟨second, hSecond, -, rfl⟩ := hOther
  simp only [FakePaymentProvider.paymentId, Except.bind_eq_ok_iff, require_eq_ok,
    Except.pure_eq_ok_iff] at hPayment hSame
  obtain ⟨_, hAscii, hId⟩ := hPayment
  obtain ⟨_, hAscii', hId'⟩ := hSame
  exact Bytes.ascii_inj hAscii hAscii'
    (free.paymentIds _ hFirst _ hSecond (text_cancel (hId.trans hId'.symm)))

end

end Usage

end Api

end VouchSpec
