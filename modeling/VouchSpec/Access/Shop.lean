import VouchSpec.Access.Moves
import VouchSpec.Commerce.Replay

/-! The commerce store and the access store in one file, as a system: each write
transaction of either store is one call. What holds in every reachable state
joins the two stores. -/

namespace VouchSpec

open Access

structure Shop where
  commerce : Commerce
  access : Access := {}
deriving DecidableEq

namespace Access

/-- The columns of a tenant that never change, or not once it is revoked. -/
structure TenantRow.Keeps (before after : TenantRow) : Prop where
  tenantId : after.tenantId = before.tenantId
  revoked : before.state = .revoked → after = before

/-- The columns of an order binding that never change, or not once they are set. -/
structure OrderBinding.Keeps (before after : OrderBinding) : Prop where
  orderId : after.orderId = before.orderId
  quoteId : after.quoteId = before.quoteId
  tenantId : after.tenantId = before.tenantId
  version : before.tokenVersion ≤ after.tokenVersion
  current : after.tokenVersion = before.tokenVersion →
    after.tokenDigest = before.tokenDigest ∧ after.tokenExpiresAt = before.tokenExpiresAt
  revoked : before.tokenState = .revoked → after.tokenState = .revoked
  result : Settled before.result after.result

theorem TenantRow.Keeps.refl (row : TenantRow) : row.Keeps row := ⟨rfl, fun _ => rfl⟩

theorem TenantRow.Keeps.trans {first second third : TenantRow} (left : first.Keeps second)
    (right : second.Keeps third) : first.Keeps third where
  tenantId := right.tenantId.trans left.tenantId
  revoked h := by
    have hSecond := left.revoked h
    rw [right.revoked (hSecond ▸ h), hSecond]

theorem OrderBinding.Keeps.refl (row : OrderBinding) : row.Keeps row where
  orderId := rfl
  quoteId := rfl
  tenantId := rfl
  version := Nat.le_refl _
  current _ := ⟨rfl, rfl⟩
  revoked := id
  result _ := rfl

theorem OrderBinding.Keeps.trans {first second third : OrderBinding} (left : first.Keeps second)
    (right : second.Keeps third) : first.Keeps third where
  orderId := right.orderId.trans left.orderId
  quoteId := right.quoteId.trans left.quoteId
  tenantId := right.tenantId.trans left.tenantId
  version := Nat.le_trans left.version right.version
  current h := by
    have hSecond : second.tokenVersion = first.tokenVersion := by
      have := left.version
      have := right.version
      omega
    have hThird := right.current (h.trans hSecond.symm)
    have hFirst := left.current hSecond
    exact ⟨hThird.1.trans hFirst.1, hThird.2.trans hFirst.2⟩
  revoked := right.revoked ∘ left.revoked
  result := left.result.trans right.result

/-- How a later state of a run continues an earlier one. -/
structure Continues (before after : Access) : Prop where
  tenants : ∀ {tenantId row}, before.tenant? tenantId = some row →
    ∃ later, after.tenant? tenantId = some later ∧ row.Keeps later
  quoteBindings : ∀ {quoteId row}, before.quoteBinding? quoteId = some row →
    after.quoteBinding? quoteId = some row
  orderBindings : ∀ {orderId row}, before.orderBinding? orderId = some row →
    ∃ later, after.orderBinding? orderId = some later ∧ row.Keeps later

variable {p : Platform} {keyring : Keyring} {db : Commerce} {before after : Access}

theorem Continues.refl (access : Access) : Continues access access where
  tenants h := ⟨_, h, .refl _⟩
  quoteBindings := id
  orderBindings h := ⟨_, h, .refl _⟩

theorem Continues.trans {first second third : Access} (left : Continues first second)
    (right : Continues second third) : Continues first third where
  tenants h := by
    obtain ⟨middle, hMiddle, keeps⟩ := left.tenants h
    obtain ⟨last, hLast, keeps'⟩ := right.tenants hMiddle
    exact ⟨last, hLast, keeps.trans keeps'⟩
  quoteBindings h := right.quoteBindings (left.quoteBindings h)
  orderBindings h := by
    obtain ⟨middle, hMiddle, keeps⟩ := left.orderBindings h
    obtain ⟨last, hLast, keeps'⟩ := right.orderBindings hMiddle
    exact ⟨last, hLast, keeps.trans keeps'⟩

/-- A new row is found, or the lookup is as before. -/
theorem orderBinding?_inserted {orderBindings : Table OrderBinding.keys EitherSame} {row : OrderBinding}
    (hInsert : before.orderBindings.insert? row = some orderBindings) (orderId : String) :
    ({ before with orderBindings } : Access).orderBinding? orderId =
      (before.orderBinding? orderId).or (if row.orderId = orderId then some row else none) := by
  unfold orderBinding?
  rw [Table.find?_append_of_none (Table.insert?_eq_some.mp hInsert).2]
  simp only [decide_eq_true_eq]

/-- A change of an order's row is seen by its lookup only. -/
theorem orderBinding?_changed {orderBindings : Table OrderBinding.keys EitherSame} {orderId : String}
    {change : OrderBinding → OrderBinding} (hRows : orderBindings.rows =
      Table.changed before.orderBindings.rows (fun row => row.orderId = orderId) change)
    (hIds : ∀ row, (change row).orderId = row.orderId) (other : String) :
    ({ before with orderBindings } : Access).orderBinding? other =
      (before.orderBinding? other).map fun row => if row.orderId = orderId then change row else row := by
  unfold orderBinding? Table.find?
  rw [hRows, Table.find?_changed fun row _ => by rw [hIds]]
  simp only [decide_eq_true_eq]

theorem tenant?_inserted {tenants : Table TenantRow.keys EitherSame} {row : TenantRow}
    (hInsert : before.tenants.insert? row = some tenants) (tenantId : String) :
    ({ before with tenants } : Access).tenant? tenantId =
      (before.tenant? tenantId).or (if row.tenantId = tenantId then some row else none) := by
  unfold tenant?
  rw [Table.find?_append_of_none (Table.insert?_eq_some.mp hInsert).2]
  simp only [decide_eq_true_eq]

theorem tenant?_changed {tenants : Table TenantRow.keys EitherSame} {tenantId : String}
    {change : TenantRow → TenantRow} (hRows : tenants.rows = Table.changed before.tenants.rows
      (fun row => row.tenantId = tenantId ∧ row.state = .active) change)
    (hIds : ∀ row, (change row).tenantId = row.tenantId) (other : String) :
    ({ before with tenants } : Access).tenant? other = (before.tenant? other).map fun row =>
      if row.tenantId = tenantId ∧ row.state = .active then change row else row := by
  unfold tenant? Table.find?
  rw [hRows, Table.find?_changed fun row _ => by rw [hIds]]
  simp only [decide_eq_true_eq]

theorem quoteBinding?_inserted {quoteBindings : Table QuoteBinding.keys EitherSame} {row : QuoteBinding}
    (hInsert : before.quoteBindings.insert? row = some quoteBindings) (quoteId : String) :
    ({ before with quoteBindings } : Access).quoteBinding? quoteId =
      (before.quoteBinding? quoteId).or (if row.quoteId = quoteId then some row else none) := by
  unfold quoteBinding?
  rw [Table.find?_append_of_none (Table.insert?_eq_some.mp hInsert).2]
  simp only [decide_eq_true_eq]

/-- A change of the order bindings that keeps each row continues the store. -/
theorem continues_changed {orderBindings : Table OrderBinding.keys EitherSame} {orderId : String}
    {change : OrderBinding → OrderBinding} {event : AuditRow}
    (hRows : orderBindings.rows =
      Table.changed before.orderBindings.rows (fun row => row.orderId = orderId) change)
    (hIds : ∀ row, (change row).orderId = row.orderId)
    (hKeeps : ∀ row, before.orderBinding? orderId = some row → row.Keeps (change row)) :
    Continues before ({ before with orderBindings }.audit event) where
  tenants h := ⟨_, h, .refl _⟩
  quoteBindings := id
  orderBindings {other row} hRow := by
    refine ⟨_, (orderBinding?_changed hRows hIds other).trans (congrArg (Option.map _) hRow), ?_⟩
    dsimp only
    split
    · next hSame =>
        obtain ⟨-, rfl⟩ := orderBinding?_eq_some.mp hRow
        rw [hSame] at hRow
        exact hKeeps row hRow
    · exact .refl row

/-- Every move continues the store. -/
theorem Move.continues (move : Move p keyring db before after) : Continues before after := by
  cases move with
  | provisioned hPattern hState hInsert =>
      refine ⟨?_, id, fun h => ⟨_, h, .refl _⟩⟩
      intro tenantId row hRow
      exact ⟨row, (tenant?_inserted hInsert tenantId).trans (by rw [hRow, Option.some_or]), .refl row⟩
  | tenant hIds hRows =>
      refine ⟨?_, id, fun h => ⟨_, h, .refl _⟩⟩
      intro tenantId row hRow
      refine ⟨_, (tenant?_changed hRows hIds tenantId).trans (congrArg (Option.map _) hRow), ?_⟩
      dsimp only
      split
      · next hSelected =>
          refine ⟨hIds row, fun hRevoked => ?_⟩
          rw [hSelected.2] at hRevoked
          cases hRevoked
      · exact .refl row
  | quoteBound hTenant hActive hQuote hInsert =>
      refine ⟨fun h => ⟨_, h, .refl _⟩, ?_, fun h => ⟨_, h, .refl _⟩⟩
      intro quoteId row hRow
      exact (quoteBinding?_inserted hInsert quoteId).trans (by rw [hRow, Option.some_or])
  | orderBound hBindable hInsert =>
      refine ⟨fun h => ⟨_, h, .refl _⟩, id, ?_⟩
      intro orderId row hRow
      exact ⟨row, (orderBinding?_inserted hInsert orderId).trans (by rw [hRow, Option.some_or]), .refl row⟩
  | rotated hRow hState hRows =>
      apply continues_changed hRows (fun _ => rfl)
      intro other hOther
      obtain rfl := Option.some.inj (hRow.symm.trans hOther)
      exact {
        orderId := rfl
        quoteId := rfl
        tenantId := rfl
        version := Nat.le_succ _
        current := fun hSame => absurd hSame (Nat.succ_ne_self _)
        revoked := fun hRevoked => by
          rw [hState] at hRevoked
          cases hRevoked
        result := fun _ => rfl }
  | tokenRevoked hRows =>
      apply continues_changed hRows (fun _ => rfl)
      intro other hOther
      exact { OrderBinding.Keeps.refl other with revoked := fun _ => rfl }
  | published hDeliverable hBinding hResult hRows =>
      apply continues_changed hRows (fun _ => rfl)
      intro other hOther
      obtain rfl := Option.some.inj (hBinding.symm.trans hOther)
      exact { OrderBinding.Keeps.refl _ with result := by simp [Settled, hResult] }

theorem Moved.continues (moved : Moved p keyring db before after) : Continues before after := by
  rcases moved with rfl | move
  · exact .refl _
  · exact move.continues

end Access

namespace Shop

/-- A freshly initialized file. -/
def empty (environment : Environment) : Shop := ⟨Commerce.empty environment, {}⟩

/-- An authorized change of a delivery token, before its write transaction. -/
structure Ticket where
  tenantId : String
  orderId : String
  token : String
  timestamp : String
  updated : Int
deriving DecidableEq

/-- A write transaction of one of the two stores. -/
inductive Call where
  | commerce (call : Commerce.Call)
  | provisionTenant (tenantId : Option String) (drawnId : String) (drawn : Digest)
      (createdAt : Option String) (utcNow : Int)
  | rotateApiKey (tenantId : String) (drawn : Digest) (updatedAt : Option String) (utcNow : Int)
  | revokeTenant (tenantId : String) (updatedAt : Option String) (utcNow : Int)
  | bindQuote (tenantId quoteId idempotencyKey : String) (createdAt : Option String) (utcNow : Int)
  | bindOrder (tenantId orderId quoteId : String) (createdAt : Option String) (utcNow : Int)
  | commitRotation (ticket : Ticket)
  | commitRevocation (ticket : Ticket)
  | publishResult (orderId : String) (envelope : Bytes) (updatedAt : Option String) (utcNow : Int)

/-- What a returning call hands out. -/
inductive Event where
  | committed
  | keyIssued (tenantId apiKey : String)
  | tenantRevoked (tenantId : String)
  | tokenIssued (tenantId orderId token : String)
  | tokenRotated (ticket : Ticket) (token : String)
  | tokenRevoked (ticket : Ticket)
deriving DecidableEq

variable (p : Platform) (keyring : Keyring) (shop : Shop)

def perform : Call → Except Raised (Shop × Event)
  | .commerce call => do
      let commerce ← shop.commerce.committed p call
      return ({ shop with commerce }, .committed)
  | .provisionTenant tenantId drawnId drawn createdAt utcNow => do
      let (access, identifier, apiKey) ←
        shop.access.provisionTenant p keyring shop.commerce tenantId drawnId drawn createdAt utcNow
      return ({ shop with access }, .keyIssued identifier apiKey)
  | .rotateApiKey tenantId drawn updatedAt utcNow => do
      let (access, apiKey) ← shop.access.rotateApiKey p keyring shop.commerce tenantId drawn updatedAt utcNow
      return ({ shop with access }, .keyIssued tenantId apiKey)
  | .revokeTenant tenantId updatedAt utcNow => do
      let (access, _) ← shop.access.revokeTenant p tenantId updatedAt utcNow
      return ({ shop with access }, .tenantRevoked tenantId)
  | .bindQuote tenantId quoteId idempotencyKey createdAt utcNow => do
      let (access, _) ←
        shop.access.bindQuote p keyring shop.commerce tenantId quoteId idempotencyKey createdAt utcNow
      return ({ shop with access }, .committed)
  | .bindOrder tenantId orderId quoteId createdAt utcNow => do
      let (access, token) ←
        shop.access.bindOrder p keyring shop.commerce tenantId orderId quoteId createdAt utcNow
      return ({ shop with access }, .tokenIssued tenantId orderId token)
  | .commitRotation ticket => do
      let (access, token) ← shop.access.commitRotation p keyring shop.commerce ticket.tenantId
        ticket.orderId ticket.token ticket.timestamp ticket.updated
      return ({ shop with access }, .tokenRotated ticket token)
  | .commitRevocation ticket => do
      let (access, _) ← shop.access.commitRevocation p keyring ticket.tenantId ticket.orderId ticket.token
        ticket.timestamp
      return ({ shop with access }, .tokenRevoked ticket)
  | .publishResult orderId envelope updatedAt utcNow => do
      let (access, _) ← shop.access.publishResult p shop.commerce orderId envelope updatedAt utcNow
      return ({ shop with access }, .committed)

/-- The state after a call; a call that raises leaves it unchanged. -/
def step (call : Call) : Shop :=
  match shop.perform p keyring call with
  | .ok (after, _) => after
  | .error _ => shop

/-- The states that calls can lead to from a fresh file. -/
def Reachable : Prop := ∃ environment, Runs.Reaches (step p keyring) (empty environment) shop

/-- What an order binding owes to both stores. -/
structure Bound (row : OrderBinding) : Prop where
  orderPattern : Pattern.orderId row.orderId = true
  tenantPattern : Pattern.tenantId row.tenantId = true
  quotePattern : VouchSpec.Pattern.quoteId row.quoteId = true
  digest : row.tokenDigest = deliveryDigest p keyring
    (deliveryToken p keyring shop.commerce.environment row.tenantId row.orderId row.tokenVersion)
  expiry : ∃ instant, row.tokenExpiresAt = p.timestamp instant
  quote : ∃ binding, shop.access.quoteBinding? row.quoteId = some binding ∧
    binding.tenantId = row.tenantId
  order : ∃ order, shop.commerce.order? row.orderId = some order ∧ order.quoteId = row.quoteId
  result : ∀ result, row.result = some result → result.sha256 = bodyDigest p result.body ∧
    Deliverable p shop.commerce row.orderId result.body

/-- What holds of every reachable file. -/
structure WellFormed : Prop where
  commerce : shop.commerce.WellFormed p
  tenants : ∀ {tenantId row}, shop.access.tenant? tenantId = some row → Pattern.tenantId tenantId = true
  quotes : ∀ {quoteId row}, shop.access.quoteBinding? quoteId = some row →
    Pattern.tenantId row.tenantId = true ∧ (shop.commerce.quote? quoteId).isSome
  orders : ∀ {orderId row}, shop.access.orderBinding? orderId = some row → shop.Bound p keyring row

/-- How a later state of a run continues an earlier one. -/
structure Continues (before after : Shop) : Prop where
  commerce : before.commerce.Continues after.commerce
  access : before.access.Continues after.access

theorem Continues.refl (shop : Shop) : Continues shop shop := ⟨.refl _, .refl _⟩

theorem Continues.trans {first second third : Shop} (left : Continues first second)
    (right : Continues second third) : Continues first third :=
  ⟨left.commerce.trans right.commerce, left.access.trans right.access⟩

variable {p : Platform} {keyring : Keyring} {shop after : Shop}

theorem empty_wellFormed (environment : Environment) : (empty environment).WellFormed p keyring where
  commerce := Commerce.empty_wellFormed environment
  tenants h := by cases h
  quotes h := by cases h
  orders h := by cases h

/-- A returning call moves one of the two stores. -/
theorem perform_moved {call : Call} {event : Event}
    (hReturns : shop.perform p keyring call = .ok (after, event)) :
    (after.access = shop.access ∧ ∃ call, shop.commerce.committed p call = .ok after.commerce) ∨
      (after.commerce = shop.commerce ∧ Moved p keyring shop.commerce shop.access after.access) := by
  cases call with
  | commerce call =>
      simp only [perform, Except.bind_eq_ok_iff, Except.pure_eq_ok_iff, Prod.mk.injEq] at hReturns
      obtain ⟨commerce, hCommitted, rfl, -⟩ := hReturns
      exact Or.inl ⟨rfl, call, hCommitted⟩
  | provisionTenant tenantId drawnId drawn createdAt utcNow =>
      simp only [perform, Except.bind_eq_ok_iff, Except.pure_eq_ok_iff, Prod.mk.injEq,
        Prod.exists] at hReturns
      obtain ⟨_, _, _, hRun, rfl, -⟩ := hReturns
      exact Or.inr ⟨rfl, provisionTenant_moved hRun⟩
  | rotateApiKey tenantId drawn updatedAt utcNow =>
      simp only [perform, Except.bind_eq_ok_iff, Except.pure_eq_ok_iff, Prod.mk.injEq,
        Prod.exists] at hReturns
      obtain ⟨_, _, hRun, rfl, -⟩ := hReturns
      exact Or.inr ⟨rfl, rotateApiKey_moved hRun⟩
  | revokeTenant tenantId updatedAt utcNow =>
      simp only [perform, Except.bind_eq_ok_iff, Except.pure_eq_ok_iff, Prod.mk.injEq,
        Prod.exists] at hReturns
      obtain ⟨_, _, hRun, rfl, -⟩ := hReturns
      exact Or.inr ⟨rfl, revokeTenant_moved hRun⟩
  | bindQuote tenantId quoteId idempotencyKey createdAt utcNow =>
      simp only [perform, Except.bind_eq_ok_iff, Except.pure_eq_ok_iff, Prod.mk.injEq,
        Prod.exists] at hReturns
      obtain ⟨_, _, hRun, rfl, -⟩ := hReturns
      exact Or.inr ⟨rfl, bindQuote_moved hRun⟩
  | bindOrder tenantId orderId quoteId createdAt utcNow =>
      simp only [perform, Except.bind_eq_ok_iff, Except.pure_eq_ok_iff, Prod.mk.injEq,
        Prod.exists] at hReturns
      obtain ⟨_, _, hRun, rfl, -⟩ := hReturns
      exact Or.inr ⟨rfl, bindOrder_moved hRun⟩
  | commitRotation ticket =>
      simp only [perform, Except.bind_eq_ok_iff, Except.pure_eq_ok_iff, Prod.mk.injEq,
        Prod.exists] at hReturns
      obtain ⟨_, _, hRun, rfl, -⟩ := hReturns
      exact Or.inr ⟨rfl, commitRotation_moved hRun⟩
  | commitRevocation ticket =>
      simp only [perform, Except.bind_eq_ok_iff, Except.pure_eq_ok_iff, Prod.mk.injEq,
        Prod.exists] at hReturns
      obtain ⟨_, _, hRun, rfl, -⟩ := hReturns
      exact Or.inr ⟨rfl, commitRevocation_moved hRun⟩
  | publishResult orderId envelope updatedAt utcNow =>
      simp only [perform, Except.bind_eq_ok_iff, Except.pure_eq_ok_iff, Prod.mk.injEq,
        Prod.exists] at hReturns
      obtain ⟨_, _, hRun, rfl, -⟩ := hReturns
      exact Or.inr ⟨rfl, publishResult_moved hRun⟩

/-- A delivered order stays delivered with its envelope. -/
theorem deliverable_continues {db later : Commerce} {orderId : String} {envelope : Bytes}
    (continues : db.Continues later) (wellFormed : db.WellFormed p)
    (hDeliverable : Deliverable p db orderId envelope) : Deliverable p later orderId envelope := by
  obtain ⟨order, hOrder, hStatus, hDigest⟩ := hDeliverable
  obtain ⟨now, hNow, -, keeps⟩ := continues.order wellFormed hOrder
  exact ⟨now, hNow, keeps.delivered hStatus,
    (keeps.envelopeSha256 (by rw [hDigest]; rfl)).trans hDigest⟩

/-- What a binding owes is owed in every later state with the same columns. -/
theorem Bound.continues {row later : OrderBinding} (bound : shop.Bound p keyring row)
    (continues : shop.Continues after) (wellFormed : shop.commerce.WellFormed p)
    (hKeeps : row.Keeps later)
    (hDigest : later.tokenDigest = deliveryDigest p keyring
      (deliveryToken p keyring after.commerce.environment row.tenantId row.orderId later.tokenVersion))
    (hExpiry : ∃ instant, later.tokenExpiresAt = p.timestamp instant)
    (hResult : ∀ result, later.result = some result → result.sha256 = bodyDigest p result.body ∧
      Deliverable p after.commerce row.orderId result.body) :
    after.Bound p keyring later where
  orderPattern := hKeeps.orderId ▸ bound.orderPattern
  tenantPattern := hKeeps.tenantId ▸ bound.tenantPattern
  quotePattern := hKeeps.quoteId ▸ bound.quotePattern
  digest := by rw [hKeeps.tenantId, hKeeps.orderId]; exact hDigest
  expiry := hExpiry
  quote := by
    obtain ⟨binding, hBinding, hTenant⟩ := bound.quote
    rw [hKeeps.quoteId, hKeeps.tenantId]
    exact ⟨binding, continues.access.quoteBindings hBinding, hTenant⟩
  order := by
    obtain ⟨order, hOrder, hQuote⟩ := bound.order
    obtain ⟨now, hNow, -, keeps⟩ := continues.commerce.order wellFormed hOrder
    rw [hKeeps.quoteId, hKeeps.orderId]
    exact ⟨now, hNow, keeps.quoteId.trans hQuote⟩
  result := by rw [hKeeps.orderId]; exact hResult

/-- A row that no move touches stays bound. -/
theorem Bound.same {row : OrderBinding} (bound : shop.Bound p keyring row)
    (continues : shop.Continues after) (wellFormed : shop.commerce.WellFormed p) :
    after.Bound p keyring row := by
  apply bound.continues continues wellFormed (.refl row)
  · rw [continues.commerce.environment]
    exact bound.digest
  · exact bound.expiry
  · intro result hResult
    obtain ⟨hSha, hDeliverable⟩ := bound.result result hResult
    exact ⟨hSha, deliverable_continues continues.commerce wellFormed hDeliverable⟩

/-- A committed call of the commerce store keeps the joint invariant. -/
theorem WellFormed.commerce_step (wellFormed : shop.WellFormed p keyring) {commerce : Commerce}
    {call : Commerce.Call} (hCommitted : shop.commerce.committed p call = .ok commerce) :
    ({ shop with commerce } : Shop).WellFormed p keyring ∧ shop.Continues { shop with commerce } := by
  have hStep : shop.commerce.step p call = commerce := by
    unfold Commerce.step
    rw [hCommitted]
  have continues : shop.Continues { shop with commerce } :=
    ⟨hStep ▸ Commerce.step_continues wellFormed.commerce call, .refl _⟩
  refine ⟨⟨hStep ▸ Commerce.step_wellFormed wellFormed.commerce call, wellFormed.tenants, ?_, ?_⟩,
    continues⟩
  · intro quoteId row hRow
    obtain ⟨hPattern, hQuote⟩ := wellFormed.quotes hRow
    obtain ⟨quote, hFound⟩ := Option.isSome_iff_exists.mp hQuote
    exact ⟨hPattern, by rw [continues.commerce.quotes hFound]; rfl⟩
  · intro orderId row hRow
    exact (wellFormed.orders hRow).same continues wellFormed.commerce

/-- The new row of a bound order owes nothing more. -/
theorem bound_new {tenantId orderId quoteId timestamp : String} {access : Access}
    (bindable : Bindable p shop.commerce shop.access tenantId orderId quoteId timestamp)
    (continues : shop.access.Continues access) :
    ({ shop with access } : Shop).Bound p keyring
      (newBinding p keyring shop.commerce tenantId orderId quoteId (expiryOf p timestamp) timestamp) where
  orderPattern := bindable.orderPattern
  tenantPattern := bindable.tenantPattern
  quotePattern := bindable.quotePattern
  digest := rfl
  expiry := by
    obtain ⟨created, hCreated⟩ := bindable.created
    exact ⟨created + deliveryTokenTtl, by simp [newBinding, expiryOf, hCreated]⟩
  quote := by
    obtain ⟨quote, hQuote, hTenant⟩ := bindable.quote
    exact ⟨quote, continues.quoteBindings hQuote, hTenant⟩
  order := bindable.order
  result result hResult := by cases hResult

/-- Rows changed one by one stay bound when the changed one does. -/
theorem WellFormed.changed (wellFormed : shop.WellFormed p keyring)
    {orderBindings : Table OrderBinding.keys EitherSame} {orderId : String}
    {change : OrderBinding → OrderBinding} {event : AuditRow}
    (hRows : orderBindings.rows =
      Table.changed shop.access.orderBindings.rows (fun row => row.orderId = orderId) change)
    (hIds : ∀ row, (change row).orderId = row.orderId)
    (continues : shop.access.Continues ({ shop.access with orderBindings }.audit event))
    (hBound : ∀ row, shop.access.orderBinding? orderId = some row →
      ({ shop with access := { shop.access with orderBindings }.audit event } : Shop).Bound p keyring
        (change row)) :
    ({ shop with access := { shop.access with orderBindings }.audit event } : Shop).WellFormed p
      keyring where
  commerce := wellFormed.commerce
  tenants := wellFormed.tenants
  quotes := wellFormed.quotes
  orders {other row} hRow := by
    have hFound : ({ shop.access with orderBindings } : Access).orderBinding? other = some row := hRow
    rw [orderBinding?_changed hRows hIds, Option.map_eq_some_iff] at hFound
    obtain ⟨old, hOld, rfl⟩ := hFound
    split
    · next hSame =>
        obtain ⟨-, rfl⟩ := orderBinding?_eq_some.mp hOld
        rw [hSame] at hOld
        exact hBound old hOld
    · exact (wellFormed.orders hOld).same ⟨.refl _, continues⟩ wellFormed.commerce

/-- A move of the access store keeps the joint invariant. -/
theorem WellFormed.access_move (wellFormed : shop.WellFormed p keyring) {access : Access}
    (move : Move p keyring shop.commerce shop.access access) :
    ({ shop with access } : Shop).WellFormed p keyring := by
  have continues := move.continues
  have joint : shop.Continues { shop with access } := ⟨.refl _, continues⟩
  cases move with
  | @provisioned tenants row event hPattern hState hInsert =>
      refine ⟨wellFormed.commerce, ?_, wellFormed.quotes, fun hRow =>
        (wellFormed.orders hRow).same joint wellFormed.commerce⟩
      intro tenantId found hFound
      have hLookup : ({ shop.access with tenants } : Access).tenant? tenantId = some found := hFound
      rw [tenant?_inserted hInsert, Option.or_eq_some_iff] at hLookup
      rcases hLookup with hOld | ⟨-, hNew⟩
      · exact wellFormed.tenants hOld
      · split at hNew
        · next hSame => exact hSame ▸ hPattern
        · cases hNew
  | @tenant tenants changedId change event hIds hRows =>
      refine ⟨wellFormed.commerce, ?_, wellFormed.quotes, fun hRow =>
        (wellFormed.orders hRow).same joint wellFormed.commerce⟩
      intro tenantId found hFound
      have hLookup : ({ shop.access with tenants } : Access).tenant? tenantId = some found := hFound
      rw [tenant?_changed hRows hIds, Option.map_eq_some_iff] at hLookup
      obtain ⟨old, hOld, -⟩ := hLookup
      exact wellFormed.tenants hOld
  | @quoteBound quoteBindings row event hTenant hActive hQuote hInsert =>
      refine ⟨wellFormed.commerce, wellFormed.tenants, ?_, fun hRow =>
        (wellFormed.orders hRow).same joint wellFormed.commerce⟩
      intro quoteId found hFound
      have hLookup : ({ shop.access with quoteBindings } : Access).quoteBinding? quoteId = some found :=
        hFound
      rw [quoteBinding?_inserted hInsert, Option.or_eq_some_iff] at hLookup
      rcases hLookup with hOld | ⟨-, hNew⟩
      · exact wellFormed.quotes hOld
      · split at hNew
        · next hSame =>
            obtain rfl := Option.some.inj hNew
            exact ⟨hTenant, hSame ▸ hQuote⟩
        · cases hNew
  | @orderBound orderBindings tenantId orderId quoteId timestamp event hBindable hInsert =>
      refine ⟨wellFormed.commerce, wellFormed.tenants, wellFormed.quotes, ?_⟩
      intro other found hFound
      have hLookup : ({ shop.access with orderBindings } : Access).orderBinding? other = some found :=
        hFound
      rw [orderBinding?_inserted hInsert, Option.or_eq_some_iff] at hLookup
      rcases hLookup with hOld | ⟨-, hNew⟩
      · exact (wellFormed.orders hOld).same joint wellFormed.commerce
      · split at hNew
        · obtain rfl := Option.some.inj hNew
          exact bound_new hBindable continues
        · cases hNew
  | @rotated orderBindings row updated timestamp event hRow hState hRows =>
      apply wellFormed.changed hRows (fun _ => rfl) continues
      intro other hOther
      obtain rfl := Option.some.inj (hRow.symm.trans hOther)
      have bound := wellFormed.orders hRow
      exact { bound with
        digest := rfl
        expiry := ⟨_, rfl⟩
        quote := (bound.same joint wellFormed.commerce).quote }
  | @tokenRevoked orderBindings orderId timestamp event hRows =>
      apply wellFormed.changed hRows (fun _ => rfl) continues
      intro other hOther
      have bound := wellFormed.orders hOther
      exact { bound with quote := (bound.same joint wellFormed.commerce).quote }
  | @published orderBindings binding envelope timestamp event hDeliverable hBinding hResult hRows =>
      apply wellFormed.changed hRows (fun _ => rfl) continues
      intro other hOther
      obtain rfl := Option.some.inj (hBinding.symm.trans hOther)
      have bound := wellFormed.orders hBinding
      exact { bound with
        quote := (bound.same joint wellFormed.commerce).quote
        result := fun result hSame => by
          obtain rfl := Option.some.inj hSame
          exact ⟨rfl, hDeliverable⟩ }

/-- Every returning call keeps the joint invariant and continues the file. -/
theorem perform_wellFormed_continues (wellFormed : shop.WellFormed p keyring) {call : Call} {event : Event}
    (hReturns : shop.perform p keyring call = .ok (after, event)) :
    after.WellFormed p keyring ∧ shop.Continues after := by
  rcases perform_moved hReturns with ⟨hAccess, call, hCommitted⟩ | ⟨hCommerce, hMoved⟩
  · have hAfter : after = { shop with commerce := after.commerce } := by
      cases after
      cases hAccess
      rfl
    rw [hAfter]
    exact wellFormed.commerce_step hCommitted
  · have hAfter : after = { shop with access := after.access } := by
      cases after
      cases hCommerce
      rfl
    refine ⟨?_, ⟨hCommerce ▸ .refl _, hMoved.continues⟩⟩
    rcases hMoved with hSame | move
    · rw [hAfter, hSame]
      exact wellFormed
    · rw [hAfter]
      exact wellFormed.access_move move

theorem step_wellFormed_continues (wellFormed : shop.WellFormed p keyring) (call : Call) :
    (shop.step p keyring call).WellFormed p keyring ∧ shop.Continues (shop.step p keyring call) := by
  unfold step
  split
  · next hReturns => exact perform_wellFormed_continues wellFormed hReturns
  · exact ⟨wellFormed, .refl shop⟩

theorem wellFormed_of_reaches (wellFormed : shop.WellFormed p keyring)
    (reaches : Runs.Reaches (step p keyring) shop after) : after.WellFormed p keyring :=
  reaches.invariant (fun shop => shop.WellFormed p keyring)
    (fun _ call h => (step_wellFormed_continues h call).1) wellFormed

theorem continues_of_reaches (wellFormed : shop.WellFormed p keyring)
    (reaches : Runs.Reaches (step p keyring) shop after) : shop.Continues after :=
  reaches.related (fun shop => shop.WellFormed p keyring) Continues
    (fun _ call h => (step_wellFormed_continues h call).1) Continues.refl
    (fun _ _ _ left right => left.trans right)
    (fun _ call h => (step_wellFormed_continues h call).2) wellFormed

theorem Reachable.wellFormed (reachable : shop.Reachable p keyring) : shop.WellFormed p keyring := by
  obtain ⟨environment, reaches⟩ := reachable
  exact wellFormed_of_reaches (empty_wellFormed environment) reaches

theorem Reachable.step (reachable : shop.Reachable p keyring) (call : Call) :
    (shop.step p keyring call).Reachable p keyring := by
  obtain ⟨environment, reaches⟩ := reachable
  exact ⟨environment, reaches.trans (.single shop call)⟩

/-- The calls of the access store leave the commerce store alone. -/
theorem Reachable.commerce (reachable : shop.Reachable p keyring) : shop.commerce.Reachable p := by
  obtain ⟨environment, reaches⟩ := reachable
  refine reaches.invariant (fun shop => shop.commerce.Reachable p) (fun shop call h => ?_) ⟨environment, .refl _⟩
  unfold Shop.step
  split
  · next hReturns =>
      rcases perform_moved hReturns with ⟨-, call, hCommitted⟩ | ⟨hSame, -⟩
      · have hStep := h.step call
        rw [Commerce.step, hCommitted] at hStep
        exact hStep
      · rw [hSame]
        exact h
  · exact h

end Shop

end VouchSpec
