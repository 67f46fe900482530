import VouchSpec.Access.Credentials
import VouchSpec.Commerce.Store

/-! The access store: tenants with their API keys, and the quotes, orders,
delivery tokens and results bound to them. Its tables lie in the file of the
commerce store, which its operations read. Random bytes and clock readings are
arguments. -/

namespace VouchSpec

namespace Access

inductive TenantState where
  | active
  | revoked
deriving DecidableEq

structure TenantRow where
  tenantId : String
  apiKeyDigest : Digest
  state : TenantState := .active
  createdAt : String
  updatedAt : String
deriving DecidableEq

structure QuoteBinding where
  quoteId : String
  tenantId : String
  idempotencyDigest : Digest
  createdAt : String
deriving DecidableEq

inductive TokenState where
  | active
  | revoked
deriving DecidableEq

/-- A published result with its digest; the columns are set together. -/
structure Result where
  sha256 : String
  body : Bytes
deriving DecidableEq

structure OrderBinding where
  orderId : String
  quoteId : String
  tenantId : String
  tokenVersion : Nat := 1
  tokenDigest : Digest
  tokenState : TokenState := .active
  tokenExpiresAt : String
  result : Option Result := none
  createdAt : String
  updatedAt : String
deriving DecidableEq

structure AuditRow where
  eventType : String
  tenantId : Option String
  quoteId : Option String := none
  orderId : Option String := none
  observedAt : String
deriving DecidableEq

def TenantRow.keys (row : TenantRow) : String × Digest := (row.tenantId, row.apiKeyDigest)

def QuoteBinding.keys (row : QuoteBinding) : String × String × Digest :=
  (row.quoteId, row.tenantId, row.idempotencyDigest)

def OrderBinding.keys (row : OrderBinding) : String × String := (row.orderId, row.quoteId)

/-- Two rows clash when they agree on either of two unique columns. -/
def EitherSame {First Second : Type} (left right : First × Second) : Prop :=
  left.1 = right.1 ∨ left.2 = right.2

instance {First Second : Type} [DecidableEq First] [DecidableEq Second] :
    DecidableRel (@EitherSame First Second) :=
  fun _ _ => inferInstanceAs (Decidable (_ ∨ _))

end Access

open Access in
structure Access where
  tenants : Table TenantRow.keys EitherSame := .empty
  quoteBindings : Table QuoteBinding.keys EitherSame := .empty
  orderBindings : Table OrderBinding.keys EitherSame := .empty
  auditEvents : List AuditRow := []
deriving DecidableEq

namespace Access

def maxResultBytes : Nat := 1000000

/-- `DELIVERY_TOKEN_TTL`. -/
def deliveryTokenTtl : Int := minutes (30 * 24 * 60)

/-- `_parse_timestamp` of the access store. -/
def parseTimestamp (p : Platform) (value : String) : Except Raised Int :=
  p.parseTimestampAs "access timestamp" "invalid_commerce_request" value

/-- `hashlib.sha256(..).hexdigest()`. -/
def bodyDigest (p : Platform) (body : Bytes) : String := (p.sha256 body).hexdigest

def unauthenticated : Raised := rejected "authentication failed" "authentication_failed"
def inactive : Raised := rejected "tenant is not active" "authentication_failed"
def notFound : Raised := rejected "object was not found" "authorization_failed"
private def quoteConflict : Raised := rejected "quote binding conflict" "authorization_failed"
private def notReady (message : String) : Raised := rejected message "result_not_ready"
private def badDelivery (message : String) : Raised := rejected message "invalid_delivery"

variable (p : Platform) (keyring : Keyring) (db : Commerce) (access : Access)

def tenant? (tenantId : String) : Option TenantRow :=
  access.tenants.find? fun row => row.tenantId = tenantId

def tenantByKey? (digest : Digest) : Option TenantRow :=
  access.tenants.find? fun row => row.apiKeyDigest = digest

def quoteBinding? (quoteId : String) : Option QuoteBinding :=
  access.quoteBindings.find? fun row => row.quoteId = quoteId

def orderBinding? (orderId : String) : Option OrderBinding :=
  access.orderBindings.find? fun row => row.orderId = orderId

/-- The tenant exists and is active. -/
def Active (tenantId : String) : Prop := ∃ row ∈ access.tenant? tenantId, row.state = .active

instance (tenantId : String) : Decidable (access.Active tenantId) :=
  inferInstanceAs (Decidable (∃ _ ∈ _, _))

/-- `_audit`. -/
def audit (row : AuditRow) : Access := { access with auditEvents := access.auditEvents ++ [row] }

/-- `_require_active_tenant`. -/
def requireActiveTenant (tenantId : String) : Except Raised Unit := do
  require (Pattern.tenantId tenantId) inactive
  require (access.Active tenantId) inactive

/-- `drawnId` and `drawn` are the random parts of the identifier and the key. -/
def provisionTenant (tenantId : Option String) (drawnId : String) (drawn : Digest)
    (createdAt : Option String) (utcNow : Int) : Except Raised (Access × String × String) := do
  let identifier := match tenantId with
    | some text => if text = "" then "ten_" ++ drawnId else text
    | none => "ten_" ++ drawnId
  require (Pattern.tenantId identifier) (rejected "tenant identifier is invalid" "invalid_tenant")
  let apiKey := apiKeyOf db.environment drawn
  let timestamp := orElseNow p createdAt utcNow
  let _ ← parseTimestamp p timestamp
  let digest ← tokenBytes p keyring.authPepper .apiKey [apiKey]
  let tenants ← Except.ofOption (rejected "tenant already exists" "tenant_conflict")
    (access.tenants.insert? { tenantId := identifier, apiKeyDigest := digest, createdAt := timestamp,
                              updatedAt := timestamp })
  return ({ access with tenants }.audit
    { eventType := "tenant.provisioned", tenantId := some identifier, observedAt := timestamp },
    identifier, apiKey)

def authenticateApiKey (apiKey : String) : Except Raised String := do
  let validFormat := decide (apiKey.toList.length ≤ 96) && Pattern.apiKey apiKey &&
    (apiKeyPrefix db.environment).toList.isPrefixOf apiKey.toList
  let candidate ← tokenBytes p keyring.authPepper .apiKey [if validFormat then apiKey else "invalid"]
  let row ← Except.ofOption unauthenticated (access.tenantByKey? candidate)
  require (validFormat = true ∧ row.state = .active) unauthenticated
  return row.tenantId

def rotateApiKey (tenantId : String) (drawn : Digest) (updatedAt : Option String) (utcNow : Int) :
    Except Raised (Access × String) := do
  require (Pattern.tenantId tenantId) (rejected "tenant identifier is invalid" "invalid_tenant")
  let apiKey := apiKeyOf db.environment drawn
  let timestamp := orElseNow p updatedAt utcNow
  let _ ← parseTimestamp p timestamp
  let digest ← tokenBytes p keyring.authPepper .apiKey [apiKey]
  let tenants ← Except.ofOption .integrityError
    (access.tenants.update? (fun row => row.tenantId = tenantId ∧ row.state = .active)
      fun row => { row with apiKeyDigest := digest, updatedAt := timestamp })
  require (access.Active tenantId) inactive
  return ({ access with tenants }.audit
    { eventType := "tenant.api_key_rotated", tenantId := some tenantId, observedAt := timestamp }, apiKey)

def revokeTenant (tenantId : String) (updatedAt : Option String) (utcNow : Int) :
    Except Raised (Access × Unit) := do
  let timestamp := orElseNow p updatedAt utcNow
  let _ ← parseTimestamp p timestamp
  require (access.Active tenantId) inactive
  let tenants := access.tenants.update (fun row => row.tenantId = tenantId ∧ row.state = .active)
    (fun row => { row with state := .revoked, updatedAt := timestamp }) (fun _ => rfl)
  return ({ access with tenants }.audit
    { eventType := "tenant.revoked", tenantId := some tenantId, observedAt := timestamp }, ())

def bindQuote (tenantId quoteId idempotencyKey : String) (createdAt : Option String) (utcNow : Int) :
    Except Raised (Access × Unit) := do
  require (VouchSpec.Pattern.quoteId quoteId ∧ Pattern.idempotency idempotencyKey)
    (rejected "quote binding is invalid" "invalid_commerce_request")
  let digest ← tokenBytes p keyring.authPepper .quoteIdempotency [tenantId, idempotencyKey]
  let timestamp := orElseNow p createdAt utcNow
  let _ ← parseTimestamp p timestamp
  access.requireActiveTenant tenantId
  require (db.quote? quoteId).isSome (rejected "quote does not exist" "object_not_found")
  match access.quoteBinding? quoteId with
  | some existing => do
      require (existing.tenantId = tenantId ∧ existing.idempotencyDigest = digest) quoteConflict
      return (access, ())
  | none => do
      let quoteBindings ← Except.ofOption quoteConflict (access.quoteBindings.insert?
        { quoteId, tenantId, idempotencyDigest := digest, createdAt := timestamp })
      return ({ access with quoteBindings }.audit
        { eventType := "quote.bound", tenantId := some tenantId, quoteId := some quoteId,
          observedAt := timestamp }, ())

/-- The quote is bound to the tenant, and the tenant is active. -/
def OwnsQuote (tenantId quoteId : String) : Prop :=
  (∃ row ∈ access.quoteBinding? quoteId, row.tenantId = tenantId) ∧ access.Active tenantId

instance (tenantId quoteId : String) : Decidable (access.OwnsQuote tenantId quoteId) :=
  inferInstanceAs (Decidable ((∃ _ ∈ _, _) ∧ _))

def authorizeQuote (tenantId quoteId : String) : Except Raised Unit :=
  require (access.OwnsQuote tenantId quoteId) notFound

def quoteOwned (tenantId quoteId : String) : Bool := decide (access.OwnsQuote tenantId quoteId)

structure ResourceCounts where
  quotes : Nat
  orders : Nat
deriving DecidableEq

def tenantResourceCounts (tenantId : String) : Except Raised ResourceCounts := do
  access.requireActiveTenant tenantId
  return { quotes := access.quoteBindings.rows.countP fun row => row.tenantId = tenantId
           orders := access.orderBindings.rows.countP fun row => row.tenantId = tenantId }

def orderForQuote (tenantId quoteId : String) : Option String :=
  if access.Active tenantId then
    (access.orderBindings.find? fun row => row.tenantId = tenantId ∧ row.quoteId = quoteId).map
      OrderBinding.orderId
  else none

/-- A binding of an order with its first token. -/
def newBinding (tenantId orderId quoteId expiresAt timestamp : String) : OrderBinding :=
  { orderId, quoteId, tenantId
    tokenDigest := deliveryDigest p keyring (deliveryToken p keyring db.environment tenantId orderId 1)
    tokenExpiresAt := expiresAt, createdAt := timestamp, updatedAt := timestamp }

def bindOrder (tenantId orderId quoteId : String) (createdAt : Option String) (utcNow : Int) :
    Except Raised (Access × String) := do
  require (Pattern.orderId orderId ∧ VouchSpec.Pattern.quoteId quoteId)
    (rejected "order binding is invalid" "invalid_commerce_request")
  let timestamp := orElseNow p createdAt utcNow
  let created ← parseTimestamp p timestamp
  let expiresAt := p.timestamp (created + deliveryTokenTtl)
  access.requireActiveTenant tenantId
  require ((∃ quote ∈ access.quoteBinding? quoteId, quote.tenantId = tenantId) ∧
    ∃ order ∈ db.order? orderId, order.quoteId = quoteId) notFound
  match access.orderBinding? orderId with
  | some existing => do
      require (existing.tenantId = tenantId ∧ existing.quoteId = quoteId) notFound
      require (existing.tokenState = .active)
        (rejected "delivery capability is revoked" "authorization_failed")
      let token := deliveryToken p keyring db.environment tenantId orderId existing.tokenVersion
      require (deliveryDigest p keyring token = existing.tokenDigest)
        (rejected "delivery capability state is invalid" "authorization_failed")
      return (access, token)
  | none => do
      let binding := newBinding p keyring db tenantId orderId quoteId expiresAt timestamp
      let orderBindings ← Except.ofOption .integrityError (access.orderBindings.insert? binding)
      return ({ access with orderBindings }.audit
        { eventType := "order.bound", tenantId := some tenantId, quoteId := some quoteId,
          orderId := some orderId, observedAt := timestamp },
        deliveryToken p keyring db.environment tenantId orderId 1)

structure Authorization where
  tenantId : String
  orderId : String
  quoteId : String
  tokenVersion : Nat
  tokenExpiresAt : String
  resultSha256 : Option String
deriving DecidableEq

/-- The binding of an order of an active tenant. -/
def boundOrder? (tenantId orderId : String) : Option OrderBinding :=
  (access.orderBinding? orderId).filter fun row =>
    decide (row.tenantId = tenantId ∧ access.Active tenantId)

def authorizeOrder (tenantId orderId token : String) (now : Option DateTime) (utcNow : Int) :
    Except Raised Authorization := do
  let validFormat := decide (token.toList.length ≤ 64) && Pattern.deliveryToken token
  let candidate ← tokenBytes p keyring.authPepper .deliveryDigest
    [if validFormat then token else "invalid"]
  let moment := now.getD ⟨utcNow, true⟩
  require (moment.aware = true) (.valueError "authorization clock must be timezone-aware")
  let row ← Except.ofOption notFound (access.boundOrder? tenantId orderId)
  let expiry ← parseTimestamp p row.tokenExpiresAt
  require (validFormat = true ∧ row.tokenState = .active ∧ candidate = row.tokenDigest ∧
    moment.instant < expiry) notFound
  return { tenantId := row.tenantId, orderId := row.orderId, quoteId := row.quoteId
           tokenVersion := row.tokenVersion, tokenExpiresAt := row.tokenExpiresAt
           resultSha256 := row.result.map Result.sha256 }

/-- The check before a delivery token is changed: the time of the change. -/
def authorizeChange (tenantId orderId currentToken : String) (updatedAt : Option String)
    (utcNow : Int) : Except Raised (String × Int) := do
  let timestamp := orElseNow p updatedAt utcNow
  let updated ← parseTimestamp p timestamp
  let _ ← access.authorizeOrder p keyring tenantId orderId currentToken (some ⟨updated, true⟩) utcNow
  return (timestamp, updated)

/-- The row with its next token. -/
def OrderBinding.rotated (row : OrderBinding) (token expiresAt timestamp : String) : OrderBinding :=
  { row with tokenVersion := row.tokenVersion + 1, tokenDigest := deliveryDigest p keyring token,
             tokenExpiresAt := expiresAt, updatedAt := timestamp }

/-- The write transaction of `rotate_delivery_token`. -/
def commitRotation (tenantId orderId currentToken timestamp : String) (updated : Int) :
    Except Raised (Access × String) := do
  let row ← Except.ofOption .assertionError
    ((access.orderBinding? orderId).filter fun row => row.tenantId = tenantId)
  require (row.tokenState = .active ∧ deliveryDigest p keyring currentToken = row.tokenDigest) notFound
  let token := deliveryToken p keyring db.environment tenantId orderId (row.tokenVersion + 1)
  let expiresAt := p.timestamp (updated + deliveryTokenTtl)
  let orderBindings := access.orderBindings.update (fun row => row.orderId = orderId)
    (fun row => row.rotated p keyring token expiresAt timestamp) (fun _ => rfl)
  return ({ access with orderBindings }.audit
    { eventType := "delivery_token.rotated", tenantId := some tenantId, quoteId := some row.quoteId,
      orderId := some orderId, observedAt := timestamp }, token)

/-- The write transaction of `revoke_delivery_token`. -/
def commitRevocation (tenantId orderId currentToken timestamp : String) :
    Except Raised (Access × Unit) := do
  let row ← Except.ofOption notFound ((access.orderBinding? orderId).filter fun row =>
    row.tenantId = tenantId ∧ row.tokenState = .active ∧
      row.tokenDigest = deliveryDigest p keyring currentToken)
  let orderBindings := access.orderBindings.update (fun row => row.orderId = orderId)
    (fun row => { row with tokenState := .revoked, updatedAt := timestamp }) (fun _ => rfl)
  return ({ access with orderBindings }.audit
    { eventType := "delivery_token.revoked", tenantId := some tenantId, quoteId := some row.quoteId,
      orderId := some orderId, observedAt := timestamp }, ())

def publishResult (orderId : String) (envelope : Bytes) (updatedAt : Option String) (utcNow : Int) :
    Except Raised (Access × String) := do
  require (Pattern.orderId orderId) (badDelivery "order identifier is invalid")
  require (1 ≤ envelope.length ∧ envelope.length ≤ maxResultBytes)
    (badDelivery "delivery result size is invalid")
  let digest := bodyDigest p envelope
  let timestamp := orElseNow p updatedAt utcNow
  let _ ← parseTimestamp p timestamp
  let binding ← Except.ofOption (notReady "order is not delivered") (access.orderBinding? orderId)
  let order ← Except.ofOption (notReady "order is not delivered") (db.order? orderId)
  require (order.orderStatus = .delivered) (notReady "order is not delivered")
  require (order.envelopeSha256 = some digest)
    (badDelivery "delivery bytes do not match the signed envelope")
  match binding.result with
  | some result => do
      require (result = ⟨digest, envelope⟩)
        (rejected "delivery result cannot be rebound" "idempotency_conflict")
      return (access, digest)
  | none =>
      let orderBindings := access.orderBindings.update (fun row => row.orderId = orderId)
        (fun row => { row with result := some ⟨digest, envelope⟩, updatedAt := timestamp })
        (fun _ => rfl)
      return ({ access with orderBindings }.audit
        { eventType := "result.published", tenantId := some binding.tenantId,
          quoteId := some binding.quoteId, orderId := some orderId, observedAt := timestamp }, digest)

def getResult (tenantId orderId token : String) (now : Option DateTime) (utcNow : Int) :
    Except Raised Bytes := do
  let _ ← access.authorizeOrder p keyring tenantId orderId token now utcNow
  let result ← Except.ofOption (notReady "delivery result is not ready")
    (((access.orderBinding? orderId).filter fun row => row.tenantId = tenantId).bind
      OrderBinding.result)
  return result.body

end Access

end VouchSpec
