import VouchSpec.Access.Store

/-! What the operations of the access store can do to its tables: every
returning operation is one of the moves below, or changes nothing. -/

namespace VouchSpec

namespace Access

variable {p : Platform} {keyring : Keyring} {db : Commerce} {access after : Access}

theorem tenant?_eq_some {tenantId : String} {row : TenantRow} :
    access.tenant? tenantId = some row ↔ row ∈ access.tenants.rows ∧ row.tenantId = tenantId := by
  unfold tenant?
  rw [Table.find?_eq_some]
  · simp
  · intro first second hFirst hSecond
    simp only [decide_eq_true_eq] at hFirst hSecond
    exact Or.inl (hFirst.trans hSecond.symm)

theorem tenantByKey?_eq_some {digest : Digest} {row : TenantRow} :
    access.tenantByKey? digest = some row ↔ row ∈ access.tenants.rows ∧ row.apiKeyDigest = digest := by
  unfold tenantByKey?
  rw [Table.find?_eq_some]
  · simp
  · intro first second hFirst hSecond
    simp only [decide_eq_true_eq] at hFirst hSecond
    exact Or.inr (hFirst.trans hSecond.symm)

theorem quoteBinding?_eq_some {quoteId : String} {row : QuoteBinding} :
    access.quoteBinding? quoteId = some row ↔
      row ∈ access.quoteBindings.rows ∧ row.quoteId = quoteId := by
  unfold quoteBinding?
  rw [Table.find?_eq_some]
  · simp
  · intro first second hFirst hSecond
    simp only [decide_eq_true_eq] at hFirst hSecond
    exact Or.inl (hFirst.trans hSecond.symm)

theorem orderBinding?_eq_some {orderId : String} {row : OrderBinding} :
    access.orderBinding? orderId = some row ↔
      row ∈ access.orderBindings.rows ∧ row.orderId = orderId := by
  unfold orderBinding?
  rw [Table.find?_eq_some]
  · simp
  · intro first second hFirst hSecond
    simp only [decide_eq_true_eq] at hFirst hSecond
    exact Or.inl (hFirst.trans hSecond.symm)

theorem active_iff {tenantId : String} :
    access.Active tenantId ↔ ∃ row, access.tenant? tenantId = some row ∧ row.state = .active := by
  simp [Active, Option.mem_def]

theorem boundOrder?_eq_some {tenantId orderId : String} {row : OrderBinding} :
    access.boundOrder? tenantId orderId = some row ↔
      access.orderBinding? orderId = some row ∧ row.tenantId = tenantId ∧ access.Active tenantId := by
  simp [boundOrder?, Option.filter_eq_some_iff]

theorem tokenBytes_eq_ok {key : Bytes} {label : Label} {parts : List String} {digest : Digest} :
    tokenBytes p key label parts = .ok digest ↔
      parts.all Bytes.isAscii = true ∧ mac p (macInput key label parts) = digest := by
  simp [tokenBytes]

theorem requireActiveTenant_eq_ok {tenantId : String} {result : Unit} :
    access.requireActiveTenant tenantId = .ok result ↔
      Pattern.tenantId tenantId = true ∧ access.Active tenantId := by
  simp [requireActiveTenant]

/-- What a returning provision has done. -/
theorem provisionTenant_ok {tenantId : Option String} {drawnId : String} {drawn : Digest}
    {createdAt : Option String} {utcNow : Int} {identifier apiKey : String}
    (hReturns : access.provisionTenant p keyring db tenantId drawnId drawn createdAt utcNow =
      .ok (after, identifier, apiKey)) :
    Pattern.tenantId identifier = true ∧ apiKey = apiKeyOf db.environment drawn ∧
      ∃ timestamp tenants,
        access.tenants.insert? ⟨identifier, apiDigest p keyring apiKey, .active, timestamp, timestamp⟩ =
          some tenants ∧
        after = { access with tenants }.audit
          { eventType := "tenant.provisioned", tenantId := some identifier, observedAt := timestamp } := by
  unfold provisionTenant at hReturns
  simp only [Except.bind_eq_ok_iff, require_eq_ok, tokenBytes_eq_ok, Except.ofOption_eq_ok_iff,
    Except.pure_eq_ok_iff, Prod.mk.injEq] at hReturns
  obtain ⟨_, hPattern, _, -, digest, ⟨-, rfl⟩, tenants, hInsert, rfl, rfl, rfl⟩ := hReturns
  exact ⟨hPattern, rfl, _, tenants, hInsert, rfl⟩

/-- What a returning key rotation has done. -/
theorem rotateApiKey_ok {tenantId : String} {drawn : Digest} {updatedAt : Option String} {utcNow : Int}
    {apiKey : String}
    (hReturns : access.rotateApiKey p keyring db tenantId drawn updatedAt utcNow = .ok (after, apiKey)) :
    apiKey = apiKeyOf db.environment drawn ∧ access.Active tenantId ∧ ∃ timestamp tenants,
      tenants.rows = Table.changed access.tenants.rows
        (fun row => row.tenantId = tenantId ∧ row.state = .active)
        (fun row => { row with apiKeyDigest := apiDigest p keyring apiKey, updatedAt := timestamp }) ∧
      after = { access with tenants }.audit
        { eventType := "tenant.api_key_rotated", tenantId := some tenantId, observedAt := timestamp } := by
  unfold rotateApiKey at hReturns
  simp only [Except.bind_eq_ok_iff, require_eq_ok, tokenBytes_eq_ok, Except.ofOption_eq_ok_iff,
    Except.pure_eq_ok_iff, Prod.mk.injEq, Table.update?_eq_some] at hReturns
  obtain ⟨_, -, _, -, digest, ⟨-, rfl⟩, tenants, hRows, _, hActive, rfl, rfl⟩ := hReturns
  exact ⟨rfl, hActive, _, tenants, hRows, rfl⟩

theorem revokeTenant_ok {tenantId : String} {updatedAt : Option String} {utcNow : Int} {result : Unit}
    (hReturns : access.revokeTenant p tenantId updatedAt utcNow = .ok (after, result)) :
    access.Active tenantId ∧ ∃ timestamp tenants,
      tenants.rows = Table.changed access.tenants.rows
        (fun row => row.tenantId = tenantId ∧ row.state = .active)
        (fun row => { row with state := .revoked, updatedAt := timestamp }) ∧
      after = { access with tenants }.audit
        { eventType := "tenant.revoked", tenantId := some tenantId, observedAt := timestamp } := by
  unfold revokeTenant at hReturns
  simp only [Except.bind_eq_ok_iff, require_eq_ok, Except.pure_eq_ok_iff, Prod.mk.injEq] at hReturns
  obtain ⟨_, -, _, hActive, rfl, -⟩ := hReturns
  exact ⟨hActive, _, _, Table.update_rows _ _ _ _, rfl⟩

/-- The ways in which a quote is bound. -/
theorem bindQuote_eq_ok {tenantId quoteId idempotencyKey : String} {createdAt : Option String}
    {utcNow : Int} {result : Unit} :
    access.bindQuote p keyring db tenantId quoteId idempotencyKey createdAt utcNow = .ok (after, result) ↔
      (VouchSpec.Pattern.quoteId quoteId = true ∧ Pattern.idempotency idempotencyKey = true) ∧
      [tenantId, idempotencyKey].all Bytes.isAscii = true ∧
      (∃ created, parseTimestamp p (orElseNow p createdAt utcNow) = .ok created) ∧
      (Pattern.tenantId tenantId = true ∧ access.Active tenantId) ∧ (db.quote? quoteId).isSome ∧
      ((∃ existing, access.quoteBinding? quoteId = some existing ∧ existing.tenantId = tenantId ∧
          existing.idempotencyDigest = mac p (idempotencyInput keyring tenantId idempotencyKey) ∧
          after = access) ∨
        (access.quoteBinding? quoteId = none ∧ ∃ quoteBindings,
          access.quoteBindings.insert? ⟨quoteId, tenantId,
            mac p (idempotencyInput keyring tenantId idempotencyKey), orElseNow p createdAt utcNow⟩ =
              some quoteBindings ∧
          after = { access with quoteBindings }.audit
            { eventType := "quote.bound", tenantId := some tenantId, quoteId := some quoteId,
              observedAt := orElseNow p createdAt utcNow })) := by
  unfold bindQuote idempotencyInput
  cases hBinding : access.quoteBinding? quoteId with
  | some existing =>
      simp only [Except.bind_eq_ok_iff, require_eq_ok, tokenBytes_eq_ok, requireActiveTenant_eq_ok,
        Except.pure_eq_ok_iff, Prod.mk.injEq]
      constructor
      · rintro ⟨_, hPatterns, digest, ⟨hAscii, rfl⟩, created, hCreated, _, hActive, _, hQuote, _,
          ⟨hTenant, hDigest⟩, rfl, -⟩
        exact ⟨hPatterns, hAscii, ⟨created, hCreated⟩, hActive, hQuote,
          Or.inl ⟨existing, rfl, hTenant, hDigest, rfl⟩⟩
      · rintro ⟨hPatterns, hAscii, ⟨created, hCreated⟩, hActive, hQuote,
          ⟨_, hSame, hTenant, hDigest, rfl⟩ | ⟨hNone, -⟩⟩
        · cases hSame
          exact ⟨(), hPatterns, _, ⟨hAscii, rfl⟩, created, hCreated, (), hActive, (), hQuote, (),
            ⟨hTenant, hDigest⟩, rfl, trivial⟩
        · cases hNone
  | none =>
      simp only [Except.bind_eq_ok_iff, require_eq_ok, tokenBytes_eq_ok, requireActiveTenant_eq_ok,
        Except.pure_eq_ok_iff, Prod.mk.injEq, Except.ofOption_eq_ok_iff]
      constructor
      · rintro ⟨_, hPatterns, digest, ⟨hAscii, rfl⟩, created, hCreated, _, hActive, _, hQuote,
          quoteBindings, hInsert, rfl, -⟩
        exact ⟨hPatterns, hAscii, ⟨created, hCreated⟩, hActive, hQuote,
          Or.inr ⟨trivial, quoteBindings, hInsert, rfl⟩⟩
      · rintro ⟨hPatterns, hAscii, ⟨created, hCreated⟩, hActive, hQuote,
          ⟨_, hSame, -⟩ | ⟨-, quoteBindings, hInsert, rfl⟩⟩
        · cases hSame
        · exact ⟨(), hPatterns, _, ⟨hAscii, rfl⟩, created, hCreated, (), hActive, (), hQuote,
            quoteBindings, hInsert, rfl, trivial⟩

/-- The conditions on an order that is bound to a tenant. -/
structure Bindable (p : Platform) (db : Commerce) (access : Access) (tenantId orderId quoteId : String)
    (timestamp : String) : Prop where
  orderPattern : Pattern.orderId orderId = true
  quotePattern : VouchSpec.Pattern.quoteId quoteId = true
  created : ∃ created, parseTimestamp p timestamp = .ok created
  tenantPattern : Pattern.tenantId tenantId = true
  active : access.Active tenantId
  quote : ∃ quote, access.quoteBinding? quoteId = some quote ∧ quote.tenantId = tenantId
  order : ∃ order, db.order? orderId = some order ∧ order.quoteId = quoteId

/-- The time at which a token issued at a timestamp expires. -/
def expiryOf (p : Platform) (timestamp : String) : String :=
  match parseTimestamp p timestamp with
  | .ok created => p.timestamp (created + deliveryTokenTtl)
  | .error _ => timestamp

/-- The ways in which an order is bound. -/
theorem bindOrder_eq_ok {tenantId orderId quoteId : String} {createdAt : Option String} {utcNow : Int}
    {token : String} :
    access.bindOrder p keyring db tenantId orderId quoteId createdAt utcNow = .ok (after, token) ↔
      Bindable p db access tenantId orderId quoteId (orElseNow p createdAt utcNow) ∧
      ((∃ existing, access.orderBinding? orderId = some existing ∧ existing.tenantId = tenantId ∧
          existing.quoteId = quoteId ∧ existing.tokenState = .active ∧
          deliveryDigest p keyring
            (deliveryToken p keyring db.environment tenantId orderId existing.tokenVersion) =
              existing.tokenDigest ∧
          token = deliveryToken p keyring db.environment tenantId orderId existing.tokenVersion ∧
          after = access) ∨
        (access.orderBinding? orderId = none ∧ ∃ orderBindings,
          access.orderBindings.insert? (newBinding p keyring db tenantId orderId quoteId
            (expiryOf p (orElseNow p createdAt utcNow)) (orElseNow p createdAt utcNow)) =
              some orderBindings ∧
          token = deliveryToken p keyring db.environment tenantId orderId 1 ∧
          after = { access with orderBindings }.audit
            { eventType := "order.bound", tenantId := some tenantId, quoteId := some quoteId,
              orderId := some orderId, observedAt := orElseNow p createdAt utcNow })) := by
  unfold bindOrder
  cases hBinding : access.orderBinding? orderId with
  | some existing =>
      simp only [Except.bind_eq_ok_iff, require_eq_ok, requireActiveTenant_eq_ok,
        Except.pure_eq_ok_iff, Prod.mk.injEq, Option.mem_def]
      constructor
      · rintro ⟨_, ⟨hOrderId, hQuoteId⟩, created, hCreated, _, ⟨hTenantId, hActive⟩, _, ⟨hQuote, hOrder⟩,
          _, ⟨hTenant, hSame⟩, _, hState, _, hDigest, rfl, rfl⟩
        exact ⟨⟨hOrderId, hQuoteId, ⟨created, hCreated⟩, hTenantId, hActive, hQuote, hOrder⟩,
          Or.inl ⟨existing, rfl, hTenant, hSame, hState, hDigest, rfl, rfl⟩⟩
      · rintro ⟨⟨hOrderId, hQuoteId, ⟨created, hCreated⟩, hTenantId, hActive, hQuote, hOrder⟩,
          ⟨_, hFound, hTenant, hSame, hState, hDigest, rfl, rfl⟩ | ⟨hNone, -⟩⟩
        · cases hFound
          exact ⟨(), ⟨hOrderId, hQuoteId⟩, created, hCreated, (), ⟨hTenantId, hActive⟩, (),
            ⟨hQuote, hOrder⟩, (), ⟨hTenant, hSame⟩, (), hState, (), hDigest, rfl, rfl⟩
        · cases hNone
  | none =>
      simp only [Except.bind_eq_ok_iff, require_eq_ok, requireActiveTenant_eq_ok,
        Except.pure_eq_ok_iff, Prod.mk.injEq, Option.mem_def, Except.ofOption_eq_ok_iff]
      constructor
      · rintro ⟨_, ⟨hOrderId, hQuoteId⟩, created, hCreated, _, ⟨hTenantId, hActive⟩, _, ⟨hQuote, hOrder⟩,
          orderBindings, hInsert, rfl, rfl⟩
        refine ⟨⟨hOrderId, hQuoteId, ⟨created, hCreated⟩, hTenantId, hActive, hQuote, hOrder⟩,
          Or.inr ⟨trivial, orderBindings, ?_, rfl, rfl⟩⟩
        rw [expiryOf, hCreated]
        exact hInsert
      · rintro ⟨⟨hOrderId, hQuoteId, ⟨created, hCreated⟩, hTenantId, hActive, hQuote, hOrder⟩,
          ⟨_, hFound, -⟩ | ⟨-, orderBindings, hInsert, rfl, rfl⟩⟩
        · cases hFound
        · rw [expiryOf, hCreated] at hInsert
          exact ⟨(), ⟨hOrderId, hQuoteId⟩, created, hCreated, (), ⟨hTenantId, hActive⟩, (),
            ⟨hQuote, hOrder⟩, orderBindings, hInsert, rfl, rfl⟩

/-- What a returning token rotation has done. -/
theorem commitRotation_ok {tenantId orderId currentToken timestamp : String} {updated : Int}
    {token : String}
    (hReturns : access.commitRotation p keyring db tenantId orderId currentToken timestamp updated =
      .ok (after, token)) :
    ∃ row orderBindings, access.orderBinding? orderId = some row ∧ row.tenantId = tenantId ∧
      row.tokenState = .active ∧ row.tokenDigest = deliveryDigest p keyring currentToken ∧
      token = deliveryToken p keyring db.environment tenantId orderId (row.tokenVersion + 1) ∧
      orderBindings.rows = Table.changed access.orderBindings.rows (fun row => row.orderId = orderId)
        (fun row => row.rotated p keyring token (p.timestamp (updated + deliveryTokenTtl)) timestamp) ∧
      after = { access with orderBindings }.audit
        { eventType := "delivery_token.rotated", tenantId := some tenantId, quoteId := some row.quoteId,
          orderId := some orderId, observedAt := timestamp } := by
  unfold commitRotation at hReturns
  simp only [Except.bind_eq_ok_iff, require_eq_ok, Except.ofOption_eq_ok_iff, Except.pure_eq_ok_iff,
    Prod.mk.injEq, Option.filter_eq_some_iff, decide_eq_true_eq] at hReturns
  obtain ⟨row, ⟨hRow, hTenant⟩, _, ⟨hState, hDigest⟩, rfl, rfl⟩ := hReturns
  exact ⟨row, _, hRow, hTenant, hState, hDigest.symm, rfl, Table.update_rows _ _ _ _, rfl⟩

theorem commitRevocation_ok {tenantId orderId currentToken timestamp : String} {result : Unit}
    (hReturns : access.commitRevocation p keyring tenantId orderId currentToken timestamp =
      .ok (after, result)) :
    ∃ row orderBindings, access.orderBinding? orderId = some row ∧ row.tenantId = tenantId ∧
      row.tokenState = .active ∧ row.tokenDigest = deliveryDigest p keyring currentToken ∧
      orderBindings.rows = Table.changed access.orderBindings.rows (fun row => row.orderId = orderId)
        (fun row => { row with tokenState := .revoked, updatedAt := timestamp }) ∧
      after = { access with orderBindings }.audit
        { eventType := "delivery_token.revoked", tenantId := some tenantId, quoteId := some row.quoteId,
          orderId := some orderId, observedAt := timestamp } := by
  unfold commitRevocation at hReturns
  simp only [Except.bind_eq_ok_iff, Except.ofOption_eq_ok_iff, Except.pure_eq_ok_iff,
    Prod.mk.injEq, Option.filter_eq_some_iff, decide_eq_true_eq] at hReturns
  obtain ⟨row, ⟨hRow, hTenant, hState, hDigest⟩, rfl, -⟩ := hReturns
  exact ⟨row, _, hRow, hTenant, hState, hDigest, Table.update_rows _ _ _ _, rfl⟩

/-- The delivered order whose signed envelope has these bytes. -/
def Deliverable (p : Platform) (db : Commerce) (orderId : String) (envelope : Bytes) : Prop :=
  ∃ order, db.order? orderId = some order ∧ order.orderStatus = .delivered ∧
    order.envelopeSha256 = some (bodyDigest p envelope)

/-- The ways in which a result is published. -/
theorem publishResult_eq_ok {orderId : String} {envelope : Bytes} {updatedAt : Option String}
    {utcNow : Int} {digest : String} :
    access.publishResult p db orderId envelope updatedAt utcNow = .ok (after, digest) ↔
      Pattern.orderId orderId = true ∧ (1 ≤ envelope.length ∧ envelope.length ≤ maxResultBytes) ∧
      (∃ updated, parseTimestamp p (orElseNow p updatedAt utcNow) = .ok updated) ∧
      Deliverable p db orderId envelope ∧ digest = bodyDigest p envelope ∧
      ∃ binding, access.orderBinding? orderId = some binding ∧
        ((binding.result = some ⟨bodyDigest p envelope, envelope⟩ ∧ after = access) ∨
          (binding.result = none ∧ ∃ orderBindings,
            orderBindings.rows = Table.changed access.orderBindings.rows (fun row => row.orderId = orderId)
              (fun row => { row with result := some ⟨bodyDigest p envelope, envelope⟩,
                                     updatedAt := orElseNow p updatedAt utcNow }) ∧
            after = { access with orderBindings }.audit
              { eventType := "result.published", tenantId := some binding.tenantId,
                quoteId := some binding.quoteId, orderId := some orderId,
                observedAt := orElseNow p updatedAt utcNow })) := by
  unfold publishResult Deliverable
  simp only [Except.bind_eq_ok_iff, require_eq_ok, Except.ofOption_eq_ok_iff]
  constructor
  · rintro ⟨_, hPattern, _, hLength, updated, hUpdated, binding, hBinding, order, hOrder, _, hStatus, _,
      hDigest, hRest⟩
    cases hResult : binding.result with
    | some result =>
        simp only [hResult, Except.bind_eq_ok_iff, require_eq_ok, Except.pure_eq_ok_iff,
          Prod.mk.injEq] at hRest
        obtain ⟨_, rfl, rfl, rfl⟩ := hRest
        exact ⟨hPattern, hLength, ⟨updated, hUpdated⟩, ⟨order, hOrder, hStatus, hDigest⟩, rfl, binding,
          hBinding, Or.inl ⟨hResult, rfl⟩⟩
    | none =>
        simp only [hResult, Except.pure_eq_ok_iff, Prod.mk.injEq] at hRest
        obtain ⟨rfl, rfl⟩ := hRest
        exact ⟨hPattern, hLength, ⟨updated, hUpdated⟩, ⟨order, hOrder, hStatus, hDigest⟩, rfl, binding,
          hBinding, Or.inr ⟨hResult, _, Table.update_rows _ _ _ _, rfl⟩⟩
  · rintro ⟨hPattern, hLength, ⟨updated, hUpdated⟩, ⟨order, hOrder, hStatus, hDigest⟩, rfl, binding,
      hBinding, hRest⟩
    refine ⟨(), hPattern, (), hLength, updated, hUpdated, binding, hBinding, order, hOrder, (), hStatus,
      (), hDigest, ?_⟩
    rcases hRest with ⟨hResult, rfl⟩ | ⟨hResult, orderBindings, hRows, rfl⟩
    · simp [hResult, require, pure, Except.pure, bind, Except.bind]
    · simp only [hResult, Except.pure_eq_ok_iff, Prod.mk.injEq, and_true]
      congr 2
      exact Table.ext (hRows.symm ▸ Table.update_rows _ _ _ _)

/-- One change of the tables. -/
inductive Move (p : Platform) (keyring : Keyring) (db : Commerce) : Access → Access → Prop where
  | provisioned {access : Access} {tenants : Table TenantRow.keys EitherSame} {row : TenantRow}
      {event : AuditRow} (hPattern : Pattern.tenantId row.tenantId = true) (hState : row.state = .active)
      (hInsert : access.tenants.insert? row = some tenants) :
      Move p keyring db access ({ access with tenants }.audit event)
  | tenant {access : Access} {tenants : Table TenantRow.keys EitherSame} {tenantId : String}
      {change : TenantRow → TenantRow} {event : AuditRow}
      (hIds : ∀ row, (change row).tenantId = row.tenantId)
      (hRows : tenants.rows = Table.changed access.tenants.rows
        (fun row => row.tenantId = tenantId ∧ row.state = .active) change) :
      Move p keyring db access ({ access with tenants }.audit event)
  | quoteBound {access : Access} {quoteBindings : Table QuoteBinding.keys EitherSame}
      {row : QuoteBinding} {event : AuditRow} (hTenant : Pattern.tenantId row.tenantId = true)
      (hActive : access.Active row.tenantId) (hQuote : (db.quote? row.quoteId).isSome)
      (hInsert : access.quoteBindings.insert? row = some quoteBindings) :
      Move p keyring db access ({ access with quoteBindings }.audit event)
  | orderBound {access : Access} {orderBindings : Table OrderBinding.keys EitherSame}
      {tenantId orderId quoteId timestamp : String} {event : AuditRow}
      (hBindable : Bindable p db access tenantId orderId quoteId timestamp)
      (hInsert : access.orderBindings.insert? (newBinding p keyring db tenantId orderId quoteId
        (expiryOf p timestamp) timestamp) = some orderBindings) :
      Move p keyring db access ({ access with orderBindings }.audit event)
  | rotated {access : Access} {orderBindings : Table OrderBinding.keys EitherSame}
      {row : OrderBinding} {updated : Int} {timestamp : String} {event : AuditRow}
      (hRow : access.orderBinding? row.orderId = some row) (hState : row.tokenState = .active)
      (hRows : orderBindings.rows = Table.changed access.orderBindings.rows
        (fun other => other.orderId = row.orderId)
        (fun other => other.rotated p keyring (deliveryToken p keyring db.environment row.tenantId
          row.orderId (row.tokenVersion + 1)) (p.timestamp (updated + deliveryTokenTtl)) timestamp)) :
      Move p keyring db access ({ access with orderBindings }.audit event)
  | tokenRevoked {access : Access} {orderBindings : Table OrderBinding.keys EitherSame}
      {orderId timestamp : String} {event : AuditRow}
      (hRows : orderBindings.rows = Table.changed access.orderBindings.rows
        (fun row => row.orderId = orderId)
        (fun row => { row with tokenState := .revoked, updatedAt := timestamp })) :
      Move p keyring db access ({ access with orderBindings }.audit event)
  | published {access : Access} {orderBindings : Table OrderBinding.keys EitherSame}
      {binding : OrderBinding} {envelope : Bytes} {timestamp : String} {event : AuditRow}
      (hDeliverable : Deliverable p db binding.orderId envelope)
      (hBinding : access.orderBinding? binding.orderId = some binding) (hResult : binding.result = none)
      (hRows : orderBindings.rows = Table.changed access.orderBindings.rows
        (fun row => row.orderId = binding.orderId)
        (fun row => { row with result := some ⟨bodyDigest p envelope, envelope⟩, updatedAt := timestamp })) :
      Move p keyring db access ({ access with orderBindings }.audit event)

/-- At most one move. -/
def Moved (p : Platform) (keyring : Keyring) (db : Commerce) (before after : Access) : Prop :=
  after = before ∨ Move p keyring db before after

theorem provisionTenant_moved {tenantId : Option String} {drawnId : String} {drawn : Digest}
    {createdAt : Option String} {utcNow : Int} {result : String × String}
    (hReturns : access.provisionTenant p keyring db tenantId drawnId drawn createdAt utcNow =
      .ok (after, result)) : Moved p keyring db access after := by
  obtain ⟨hPattern, -, _, _, hInsert, rfl⟩ := provisionTenant_ok hReturns
  exact Or.inr (.provisioned hPattern rfl hInsert)

theorem rotateApiKey_moved {tenantId : String} {drawn : Digest} {updatedAt : Option String}
    {utcNow : Int} {apiKey : String}
    (hReturns : access.rotateApiKey p keyring db tenantId drawn updatedAt utcNow = .ok (after, apiKey)) :
    Moved p keyring db access after := by
  obtain ⟨-, -, _, _, hRows, rfl⟩ := rotateApiKey_ok hReturns
  refine Or.inr (.tenant ?_ hRows)
  exact fun _ => rfl

theorem revokeTenant_moved {tenantId : String} {updatedAt : Option String} {utcNow : Int} {result : Unit}
    (hReturns : access.revokeTenant p tenantId updatedAt utcNow = .ok (after, result)) :
    Moved p keyring db access after := by
  obtain ⟨-, _, _, hRows, rfl⟩ := revokeTenant_ok hReturns
  refine Or.inr (.tenant ?_ hRows)
  exact fun _ => rfl

theorem bindQuote_moved {tenantId quoteId idempotencyKey : String} {createdAt : Option String}
    {utcNow : Int} {result : Unit}
    (hReturns : access.bindQuote p keyring db tenantId quoteId idempotencyKey createdAt utcNow =
      .ok (after, result)) : Moved p keyring db access after := by
  obtain ⟨-, -, -, ⟨hTenant, hActive⟩, hQuote, ⟨_, -, -, -, rfl⟩ | ⟨-, _, hInsert, rfl⟩⟩ :=
    bindQuote_eq_ok.mp hReturns
  · exact Or.inl rfl
  · exact Or.inr (.quoteBound hTenant hActive hQuote hInsert)

theorem bindOrder_moved {tenantId orderId quoteId : String} {createdAt : Option String} {utcNow : Int}
    {token : String}
    (hReturns : access.bindOrder p keyring db tenantId orderId quoteId createdAt utcNow =
      .ok (after, token)) : Moved p keyring db access after := by
  obtain ⟨hBindable, ⟨_, -, -, -, -, -, -, rfl⟩ | ⟨-, _, hInsert, -, rfl⟩⟩ := bindOrder_eq_ok.mp hReturns
  · exact Or.inl rfl
  · exact Or.inr (.orderBound hBindable hInsert)

theorem commitRotation_moved {tenantId orderId currentToken timestamp : String} {updated : Int}
    {token : String}
    (hReturns : access.commitRotation p keyring db tenantId orderId currentToken timestamp updated =
      .ok (after, token)) : Moved p keyring db access after := by
  obtain ⟨row, _, hRow, rfl, hState, -, rfl, hRows, rfl⟩ := commitRotation_ok hReturns
  obtain ⟨-, rfl⟩ := orderBinding?_eq_some.mp hRow
  exact Or.inr (.rotated hRow hState hRows)

theorem commitRevocation_moved {tenantId orderId currentToken timestamp : String} {result : Unit}
    (hReturns : access.commitRevocation p keyring tenantId orderId currentToken timestamp =
      .ok (after, result)) : Moved p keyring db access after := by
  obtain ⟨_, _, -, -, -, -, hRows, rfl⟩ := commitRevocation_ok hReturns
  exact Or.inr (.tokenRevoked hRows)

theorem publishResult_moved {orderId : String} {envelope : Bytes} {updatedAt : Option String}
    {utcNow : Int} {digest : String}
    (hReturns : access.publishResult p db orderId envelope updatedAt utcNow = .ok (after, digest)) :
    Moved p keyring db access after := by
  obtain ⟨-, -, -, hDeliverable, -, binding, hBinding, ⟨-, rfl⟩ | ⟨hResult, _, hRows, rfl⟩⟩ :=
    publishResult_eq_ok.mp hReturns
  · exact Or.inl rfl
  · obtain ⟨-, rfl⟩ := orderBinding?_eq_some.mp hBinding
    exact Or.inr (.published hDeliverable hBinding hResult hRows)

end Access

end VouchSpec
