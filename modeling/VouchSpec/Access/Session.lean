import VouchSpec.Access.Evidence

/-! Concurrent use of the credentials. A change of a delivery token is a check
and, later, a write transaction; between the two any other call may come. The
log of a session holds every call with the state that it was made in. -/

namespace VouchSpec

open Access

namespace Shop

/-- A change of a delivery token that has passed its check. -/
structure Change where
  revokes : Bool
  ticket : Ticket
deriving DecidableEq

/-- The write transaction of the change. -/
def Change.commit (change : Change) : Call :=
  if change.revokes then .commitRevocation change.ticket else .commitRotation change.ticket

end Shop

namespace Session

inductive Call where
  | store (call : Shop.Call)
  | authorizeChange (revokes : Bool) (tenantId orderId token : String) (updatedAt : Option String)
      (utcNow : Int)
  | commit (change : Shop.Change)
  | authenticateApiKey (apiKey : String)
  | authorizeOrder (tenantId orderId token : String) (now : Option DateTime) (utcNow : Int)

inductive Reply where
  | event (event : Shop.Event)
  | authorized (change : Shop.Change)
  | tenant (tenantId : String)
  | authorization (authorization : Authorization)
deriving DecidableEq

/-- A call with the state it was made in. -/
structure Entry where
  before : Shop
  call : Call
  outcome : Except Raised (Shop × Reply)

/-- The state that the call has left. -/
def Entry.after (entry : Entry) : Shop :=
  match entry.outcome with
  | .ok (after, _) => after
  | .error _ => entry.before

def Entry.Returns (entry : Entry) (reply : Reply) : Prop := entry.outcome = .ok (entry.after, reply)

/-- The call has returned something. -/
def Entry.Succeeds (entry : Entry) : Prop := ∃ reply, entry.Returns reply

end Session

/-- A file of the two stores, the changes that have passed their check, and
the log. -/
structure Session where
  shop : Shop
  pending : List Shop.Change := []
  log : List Session.Entry := []

namespace Session

/-- A session on a fresh file. -/
def start (environment : Environment) : Session := { shop := Shop.empty environment }

variable (p : Platform) (keyring : Keyring)

/-- What a call does to the file. -/
def serve (shop : Shop) : Call → Except Raised (Shop × Reply)
  | .store call => do
      let (after, event) ← shop.perform p keyring call
      return (after, .event event)
  | .authorizeChange revokes tenantId orderId token updatedAt utcNow => do
      let (timestamp, updated) ←
        shop.access.authorizeChange p keyring tenantId orderId token updatedAt utcNow
      return (shop, .authorized ⟨revokes, ⟨tenantId, orderId, token, timestamp, updated⟩⟩)
  | .commit change => do
      let (after, event) ← shop.perform p keyring change.commit
      return (after, .event event)
  | .authenticateApiKey apiKey => do
      let tenantId ← shop.access.authenticateApiKey p keyring shop.commerce apiKey
      return (shop, .tenant tenantId)
  | .authorizeOrder tenantId orderId token now utcNow => do
      let authorization ← shop.access.authorizeOrder p keyring tenantId orderId token now utcNow
      return (shop, .authorization authorization)

/-- A write transaction of a change needs a change that has passed its check. -/
def Enabled (session : Session) : Call → Prop
  | .store (.commitRotation _) => False
  | .store (.commitRevocation _) => False
  | .commit change => change ∈ session.pending
  | _ => True

instance (session : Session) (call : Call) : Decidable (session.Enabled call) := by
  unfold Enabled
  split <;> infer_instance

/-- The changes that are left to be committed after a call. -/
def pendingAfter (pending : List Shop.Change) : Call → Except Raised (Shop × Reply) → List Shop.Change
  | .commit change, _ => pending.erase change
  | _, .ok (_, .authorized change) => pending ++ [change]
  | _, _ => pending

/-- The log entry of a call. -/
def entry (session : Session) (call : Call) : Entry :=
  ⟨session.shop, call, serve p keyring session.shop call⟩

def step (session : Session) (call : Call) : Session :=
  if session.Enabled call then
    { shop := (session.entry p keyring call).after
      pending := pendingAfter session.pending call (session.entry p keyring call).outcome
      log := session.log ++ [session.entry p keyring call] }
  else session

/-- What a call on a valid or an invalid credential takes the digest of. -/
def presented (validFormat : Bool) (credential : String) : String :=
  if validFormat then credential else "invalid"

def validApiKey (environment : Environment) (apiKey : String) : Bool :=
  decide (apiKey.toList.length ≤ 96) && Pattern.apiKey apiKey &&
    (apiKeyPrefix environment).toList.isPrefixOf apiKey.toList

def validToken (token : String) : Bool :=
  decide (token.toList.length ≤ 64) && Pattern.deliveryToken token

/-- The inputs of a token and of its digest. -/
def tokenMacs (environment : Environment) (tenantId orderId : String) (version : Nat) : List MacInput :=
  [deliveryTokenInput keyring tenantId orderId version,
    deliveryDigestInput keyring (deliveryToken p keyring environment tenantId orderId version)]

/-- The version of an order's token; a new binding starts with the first. -/
def tokenVersion (shop : Shop) (orderId : String) : Nat :=
  ((shop.access.orderBinding? orderId).map OrderBinding.tokenVersion).getD 1

/-- The inputs whose MACs a call of the stores takes. -/
def storeMacs (shop : Shop) : Shop.Call → List MacInput
  | .provisionTenant _ _ drawn _ _ => [apiInput keyring (apiKeyOf shop.commerce.environment drawn)]
  | .rotateApiKey _ drawn _ _ => [apiInput keyring (apiKeyOf shop.commerce.environment drawn)]
  | .bindQuote tenantId _ idempotencyKey _ _ => [idempotencyInput keyring tenantId idempotencyKey]
  | .bindOrder tenantId orderId _ _ _ =>
      tokenMacs p keyring shop.commerce.environment tenantId orderId (tokenVersion shop orderId)
  | .commitRotation ticket =>
      deliveryDigestInput keyring ticket.token ::
        tokenMacs p keyring shop.commerce.environment ticket.tenantId ticket.orderId
          (tokenVersion shop ticket.orderId + 1)
  | .commitRevocation ticket => [deliveryDigestInput keyring ticket.token]
  | _ => []

/-- The inputs whose MACs a call takes. -/
def Entry.macs (entry : Entry) : List MacInput :=
  match entry.call with
  | .store call => storeMacs p keyring entry.before call
  | .authorizeChange _ _ _ token _ _ => [deliveryDigestInput keyring (presented (validToken token) token)]
  | .commit change => storeMacs p keyring entry.before change.commit
  | .authenticateApiKey apiKey =>
      [apiInput keyring (presented (validApiKey entry.before.commerce.environment apiKey) apiKey)]
  | .authorizeOrder _ _ token _ _ => [deliveryDigestInput keyring (presented (validToken token) token)]

/-- The inputs whose MACs the calls of a log take. -/
def macs (log : List Entry) : List MacInput := log.flatMap (Entry.macs p keyring)

/-- No two inputs of these calls have the same MAC. -/
def CollisionFree (log : List Entry) : Prop :=
  ∀ first ∈ macs p keyring log, ∀ second ∈ macs p keyring log, mac p first = mac p second → first = second

/-- The API key that the call has issued, with its tenant. -/
def Entry.issued? (entry : Entry) : Option (String × String) :=
  match entry.outcome with
  | .ok (_, .event (.keyIssued tenantId apiKey)) => some (tenantId, apiKey)
  | _ => none

def issuedKeys (log : List Entry) : List (String × String) := log.filterMap Entry.issued?

/-- The key that a tenant was issued last. -/
def currentKey? (log : List Entry) (tenantId : String) : Option String :=
  ((issuedKeys log).reverse.find? fun issued => issued.1 = tenantId).map Prod.snd

/-- The call has revoked the tenant. -/
def Entry.Revokes (entry : Entry) (tenantId : String) : Prop :=
  entry.Returns (.event (.tenantRevoked tenantId))

/-- The key was replaced by a newer one, or its tenant was revoked. -/
def KeySpent (log : List Entry) (apiKey : String) : Prop :=
  ∃ tenantId, (tenantId, apiKey) ∈ issuedKeys log ∧
    (currentKey? log tenantId ≠ some apiKey ∨ ∃ entry ∈ log, entry.Revokes tenantId)

/-- The call is the write transaction of a change, and has succeeded. -/
def Entry.Changes (entry : Entry) (change : Shop.Change) : Prop :=
  entry.call = .commit change ∧ entry.Succeeds

/-- The token was replaced or revoked by a change that presented it. -/
def TokenSpent (log : List Entry) (token : String) : Prop :=
  ∃ entry ∈ log, ∃ change, entry.Changes change ∧ change.ticket.token = token

/-- The delivery token that a call presents. -/
def Call.token? : Call → Option String
  | .authorizeChange _ _ _ token _ _ => some token
  | .commit change => some change.ticket.token
  | .authorizeOrder _ _ token _ _ => some token
  | _ => none

/-- What authorizes a call on an order. -/
structure Authorized (shop : Shop) (tenantId orderId token : String) (moment : DateTime) (row : OrderBinding) :
    Prop where
  bound : shop.access.orderBinding? orderId = some row ∧ row.tenantId = tenantId
  active : shop.access.Active tenantId
  token : token = deliveryToken p keyring shop.commerce.environment tenantId orderId row.tokenVersion
  state : row.tokenState = .active
  unexpired : moment.aware = true ∧ ∃ expiry,
    Access.parseTimestamp p row.tokenExpiresAt = .ok expiry ∧ moment.instant < expiry

end Session

end VouchSpec
