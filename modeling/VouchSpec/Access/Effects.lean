import VouchSpec.Access.Session

/-! What the checks of a credential accept, and what a returning call does to
the digest of a tenant's key and to the version of an order's token. -/

namespace VouchSpec

open Access

namespace Access

variable {p : Platform} {keyring : Keyring} {db : Commerce} {access : Access}

theorem validApiKey_apiKeyOf (environment : Environment) (drawn : Digest) :
    Session.validApiKey environment (apiKeyOf environment drawn) = true := by
  have hLength : (apiKeyOf environment drawn).toList.length = 52 := by
    have hSecret : (urlsafe drawn).toList.length = 43 := by
      simp [urlsafe, Bytes.base64Url_length, drawn.length_bytes]
    rw [apiKeyOf, String.toList_append, List.length_append, hSecret]
    cases environment <;> rfl
  simp only [Session.validApiKey, hLength, apiKey_apiKeyOf, Bool.and_true, Bool.and_eq_true]
  refine ⟨by decide, ?_⟩
  rw [apiKeyOf, String.toList_append, List.isPrefixOf_iff_prefix]
  exact List.prefix_append _ _

theorem validToken_deliveryToken (environment : Environment) (tenantId orderId : String)
    (version : Nat) :
    Session.validToken (deliveryToken p keyring environment tenantId orderId version) = true := by
  have hLength : (deliveryToken p keyring environment tenantId orderId version).toList.length = 52 := by
    have hSecret : (urlsafe (mac p (deliveryTokenInput keyring tenantId orderId version))).toList.length =
        43 := by
      simp [urlsafe, Bytes.base64Url_length, Digest.length_bytes]
    rw [deliveryToken, String.toList_append, List.length_append, hSecret]
    cases environment <;> rfl
  simp only [Session.validToken, hLength, deliveryToken_format, Bool.and_true]
  decide

theorem isPart_presented_key {environment : Environment} {apiKey : String} :
    isPart (Session.presented (Session.validApiKey environment apiKey) apiKey) = true := by
  unfold Session.presented
  split
  · next h =>
      simp only [Session.validApiKey, Bool.and_eq_true] at h
      exact isPart_apiKey h.1.2
  · decide

theorem isPart_presented_token {token : String} :
    isPart (Session.presented (Session.validToken token) token) = true := by
  unfold Session.presented
  split
  · next h =>
      simp only [Session.validToken, Bool.and_eq_true] at h
      exact isPart_deliveryToken h.2
  · decide

private theorem singleton_ascii {text : String} (h : isPart text = true) :
    [text].all Bytes.isAscii = true := by simp [(isPart_ascii h).1]

/-- The ways in which a key authenticates. -/
theorem authenticateApiKey_eq_ok {apiKey tenantId : String} :
    access.authenticateApiKey p keyring db apiKey = .ok tenantId ↔
      Session.validApiKey db.environment apiKey = true ∧ ∃ row,
        access.tenant? tenantId = some row ∧ row.apiKeyDigest = apiDigest p keyring apiKey ∧
          row.state = .active := by
  unfold authenticateApiKey
  change (do
      let candidate ← tokenBytes p keyring.authPepper .apiKey
        [Session.presented (Session.validApiKey db.environment apiKey) apiKey]
      let row ← Except.ofOption unauthenticated (access.tenantByKey? candidate)
      require (Session.validApiKey db.environment apiKey = true ∧ row.state = .active) unauthenticated
      return row.tenantId : Except Raised String) = _ ↔ _
  simp only [Except.bind_eq_ok_iff, require_eq_ok, tokenBytes_eq_ok, Except.ofOption_eq_ok_iff,
    Except.pure_eq_ok_iff, singleton_ascii isPart_presented_key, true_and]
  constructor
  · rintro ⟨_, rfl, row, hFound, _, ⟨hValid, hState⟩, rfl⟩
    obtain ⟨hRow, hDigest⟩ := tenantByKey?_eq_some.mp hFound
    refine ⟨hValid, row, tenant?_eq_some.mpr ⟨hRow, rfl⟩, ?_, hState⟩
    rw [hDigest, hValid]
    rfl
  · rintro ⟨hValid, row, hFound, hDigest, hState⟩
    obtain ⟨hRow, rfl⟩ := tenant?_eq_some.mp hFound
    refine ⟨_, rfl, row, tenantByKey?_eq_some.mpr ⟨hRow, ?_⟩, (), ⟨hValid, hState⟩, rfl⟩
    rw [hDigest, hValid]
    rfl

/-- The ways in which a token authorizes. -/
theorem authorizeOrder_eq_ok {tenantId orderId token : String} {now : Option DateTime} {utcNow : Int}
    {authorization : Authorization} :
    access.authorizeOrder p keyring tenantId orderId token now utcNow = .ok authorization ↔
      (now.getD ⟨utcNow, true⟩).aware = true ∧ Session.validToken token = true ∧
      ∃ row, (access.orderBinding? orderId = some row ∧ row.tenantId = tenantId ∧
          access.Active tenantId) ∧
        row.tokenState = .active ∧ deliveryDigest p keyring token = row.tokenDigest ∧
        (∃ expiry, parseTimestamp p row.tokenExpiresAt = .ok expiry ∧
          (now.getD ⟨utcNow, true⟩).instant < expiry) ∧
        authorization = { tenantId := row.tenantId, orderId := row.orderId, quoteId := row.quoteId
                          tokenVersion := row.tokenVersion, tokenExpiresAt := row.tokenExpiresAt
                          resultSha256 := row.result.map Result.sha256 } := by
  unfold authorizeOrder
  change (do
      let candidate ← tokenBytes p keyring.authPepper .deliveryDigest
        [Session.presented (Session.validToken token) token]
      let moment := now.getD ⟨utcNow, true⟩
      require (moment.aware = true) (.valueError "authorization clock must be timezone-aware")
      let row ← Except.ofOption notFound (access.boundOrder? tenantId orderId)
      let expiry ← parseTimestamp p row.tokenExpiresAt
      require (Session.validToken token = true ∧ row.tokenState = .active ∧ candidate = row.tokenDigest ∧
        moment.instant < expiry) notFound
      return { tenantId := row.tenantId, orderId := row.orderId, quoteId := row.quoteId
               tokenVersion := row.tokenVersion, tokenExpiresAt := row.tokenExpiresAt
               resultSha256 := row.result.map Result.sha256 } : Except Raised Authorization) = _ ↔ _
  simp only [Except.bind_eq_ok_iff, require_eq_ok, tokenBytes_eq_ok, Except.ofOption_eq_ok_iff,
    Except.pure_eq_ok_iff, singleton_ascii isPart_presented_token, true_and, boundOrder?_eq_some]
  constructor
  · rintro ⟨_, rfl, _, hAware, row, hRow, expiry, hExpiry, _, ⟨hValid, hState, hDigest, hBefore⟩, rfl⟩
    refine ⟨hAware, hValid, row, hRow, hState, ?_, ⟨expiry, hExpiry, hBefore⟩, rfl⟩
    rw [← hDigest, hValid]
    rfl
  · rintro ⟨hAware, hValid, row, hRow, hState, hDigest, ⟨expiry, hExpiry, hBefore⟩, rfl⟩
    refine ⟨_, rfl, (), hAware, row, hRow, expiry, hExpiry, (), ⟨hValid, hState, ?_, hBefore⟩, rfl⟩
    rw [← hDigest, hValid]
    rfl

end Access

namespace Shop

variable {p : Platform} {keyring : Keyring} {shop after : Shop} {call : Call} {event : Event}

/-- A tenant's digest is that of the key it was just issued, or as it was. -/
def KeyEffect (p : Platform) (keyring : Keyring) (shop : Shop) (event : Event) (tenantId : String)
    (row : TenantRow) : Prop :=
  (∃ drawn, event = .keyIssued tenantId (apiKeyOf shop.commerce.environment drawn) ∧
    row.apiKeyDigest = apiDigest p keyring (apiKeyOf shop.commerce.environment drawn)) ∨
  ((∀ apiKey, event ≠ .keyIssued tenantId apiKey) ∧
    ∃ old, shop.access.tenant? tenantId = some old ∧ row.apiKeyDigest = old.apiKeyDigest)

private theorem keyEffect_same {tenantId : String} {row : TenantRow}
    (hTenants : after.access.tenants = shop.access.tenants)
    (hEvent : ∀ apiKey, event ≠ .keyIssued tenantId apiKey)
    (hRow : after.access.tenant? tenantId = some row) :
    KeyEffect p keyring shop event tenantId row := by
  refine Or.inr ⟨hEvent, row, ?_, rfl⟩
  rw [← hRow]
  unfold tenant?
  rw [hTenants]

theorem perform_key (hReturns : shop.perform p keyring call = .ok (after, event)) {tenantId : String}
    {row : TenantRow} (hRow : after.access.tenant? tenantId = some row) :
    KeyEffect p keyring shop event tenantId row := by
  cases call with
  | provisionTenant given drawnId drawn createdAt utcNow =>
      simp only [perform, Except.bind_eq_ok_iff, Except.pure_eq_ok_iff, Prod.mk.injEq,
        Prod.exists] at hReturns
      obtain ⟨_, identifier, _, hRun, rfl, rfl⟩ := hReturns
      obtain ⟨-, rfl, timestamp, tenants, hInsert, rfl⟩ := provisionTenant_ok hRun
      have hLookup := (tenant?_inserted hInsert tenantId).symm.trans hRow
      rw [Option.or_eq_some_iff] at hLookup
      rcases hLookup with hOld | ⟨hNone, hNew⟩
      · refine Or.inr ⟨?_, row, hOld, rfl⟩
        rintro _ hIssued
        obtain ⟨rfl, -⟩ := Event.keyIssued.inj hIssued
        obtain ⟨hStored, hSame⟩ := tenant?_eq_some.mp hOld
        exact (Table.insert?_eq_some.mp hInsert).1 row hStored (Or.inl hSame)
      · split at hNew
        · next hSame =>
            obtain rfl := Option.some.inj hNew
            exact Or.inl ⟨drawn, congrArg (Event.keyIssued · _) hSame, rfl⟩
        · cases hNew
  | rotateApiKey changed drawn updatedAt utcNow =>
      simp only [perform, Except.bind_eq_ok_iff, Except.pure_eq_ok_iff, Prod.mk.injEq,
        Prod.exists] at hReturns
      obtain ⟨_, _, hRun, rfl, rfl⟩ := hReturns
      obtain ⟨rfl, hActive, timestamp, tenants, hRows, rfl⟩ := rotateApiKey_ok hRun
      have hLookup := (tenant?_changed hRows (fun _ => rfl) tenantId).symm.trans hRow
      obtain ⟨old, hOld, rfl⟩ := Option.map_eq_some_iff.mp hLookup
      by_cases hSame : tenantId = changed
      · subst hSame
        obtain ⟨active, hFound, hState⟩ := active_iff.mp hActive
        obtain rfl := Option.some.inj (hOld.symm.trans hFound)
        refine Or.inl ⟨drawn, rfl, ?_⟩
        rw [if_pos ⟨(tenant?_eq_some.mp hOld).2, hState⟩]
      · refine Or.inr ⟨?_, old, hOld, ?_⟩
        · rintro _ hIssued
          exact hSame (Event.keyIssued.inj hIssued).1.symm
        · rw [if_neg]
          exact fun h => hSame ((tenant?_eq_some.mp hOld).2.symm.trans h.1)
  | revokeTenant changed updatedAt utcNow =>
      simp only [perform, Except.bind_eq_ok_iff, Except.pure_eq_ok_iff, Prod.mk.injEq,
        Prod.exists] at hReturns
      obtain ⟨_, _, hRun, rfl, rfl⟩ := hReturns
      obtain ⟨-, timestamp, tenants, hRows, rfl⟩ := revokeTenant_ok hRun
      have hLookup := (tenant?_changed hRows (fun _ => rfl) tenantId).symm.trans hRow
      obtain ⟨old, hOld, rfl⟩ := Option.map_eq_some_iff.mp hLookup
      refine Or.inr ⟨by simp, old, hOld, ?_⟩
      split <;> rfl
  | commerce call =>
      simp only [perform, Except.bind_eq_ok_iff, Except.pure_eq_ok_iff, Prod.mk.injEq] at hReturns
      obtain ⟨_, -, rfl, rfl⟩ := hReturns
      exact keyEffect_same rfl (by simp) hRow
  | bindQuote tenantId quoteId idempotencyKey createdAt utcNow =>
      simp only [perform, Except.bind_eq_ok_iff, Except.pure_eq_ok_iff, Prod.mk.injEq,
        Prod.exists] at hReturns
      obtain ⟨_, _, hRun, rfl, rfl⟩ := hReturns
      obtain ⟨-, -, -, -, -, ⟨_, -, -, -, rfl⟩ | ⟨-, _, -, rfl⟩⟩ := bindQuote_eq_ok.mp hRun
      · exact keyEffect_same rfl (by simp) hRow
      · exact keyEffect_same rfl (by simp) hRow
  | bindOrder tenantId orderId quoteId createdAt utcNow =>
      simp only [perform, Except.bind_eq_ok_iff, Except.pure_eq_ok_iff, Prod.mk.injEq,
        Prod.exists] at hReturns
      obtain ⟨_, _, hRun, rfl, rfl⟩ := hReturns
      obtain ⟨-, ⟨_, -, -, -, -, -, -, rfl⟩ | ⟨-, _, -, -, rfl⟩⟩ := bindOrder_eq_ok.mp hRun
      · exact keyEffect_same rfl (by simp) hRow
      · exact keyEffect_same rfl (by simp) hRow
  | commitRotation ticket =>
      simp only [perform, Except.bind_eq_ok_iff, Except.pure_eq_ok_iff, Prod.mk.injEq,
        Prod.exists] at hReturns
      obtain ⟨_, _, hRun, rfl, rfl⟩ := hReturns
      obtain ⟨_, _, -, -, -, -, -, -, rfl⟩ := commitRotation_ok hRun
      exact keyEffect_same rfl (by simp) hRow
  | commitRevocation ticket =>
      simp only [perform, Except.bind_eq_ok_iff, Except.pure_eq_ok_iff, Prod.mk.injEq,
        Prod.exists] at hReturns
      obtain ⟨_, _, hRun, rfl, rfl⟩ := hReturns
      obtain ⟨_, _, -, -, -, -, -, rfl⟩ := commitRevocation_ok hRun
      exact keyEffect_same rfl (by simp) hRow
  | publishResult orderId envelope updatedAt utcNow =>
      simp only [perform, Except.bind_eq_ok_iff, Except.pure_eq_ok_iff, Prod.mk.injEq,
        Prod.exists] at hReturns
      obtain ⟨_, _, hRun, rfl, rfl⟩ := hReturns
      obtain ⟨-, -, -, -, -, _, -, ⟨-, rfl⟩ | ⟨-, _, -, rfl⟩⟩ := publishResult_eq_ok.mp hRun
      · exact keyEffect_same rfl (by simp) hRow
      · exact keyEffect_same rfl (by simp) hRow

/-- The key that a call issues is one whose digest it takes. -/
theorem perform_keyIssued {tenantId apiKey : String}
    (hReturns : shop.perform p keyring call = .ok (after, .keyIssued tenantId apiKey)) :
    (∃ drawn, apiKey = apiKeyOf shop.commerce.environment drawn) ∧
      apiInput keyring apiKey ∈ Session.storeMacs p keyring shop call := by
  cases call with
  | provisionTenant given drawnId drawn createdAt utcNow =>
      simp only [perform, Except.bind_eq_ok_iff, Except.pure_eq_ok_iff, Prod.mk.injEq,
        Prod.exists, Event.keyIssued.injEq] at hReturns
      obtain ⟨_, _, _, hRun, rfl, rfl, rfl⟩ := hReturns
      obtain ⟨-, rfl, -⟩ := provisionTenant_ok hRun
      exact ⟨⟨drawn, rfl⟩, List.mem_singleton_self _⟩
  | rotateApiKey changed drawn updatedAt utcNow =>
      simp only [perform, Except.bind_eq_ok_iff, Except.pure_eq_ok_iff, Prod.mk.injEq,
        Prod.exists, Event.keyIssued.injEq] at hReturns
      obtain ⟨_, _, hRun, rfl, rfl, rfl⟩ := hReturns
      obtain ⟨rfl, -⟩ := rotateApiKey_ok hRun
      exact ⟨⟨drawn, rfl⟩, List.mem_singleton_self _⟩
  | _ =>
      simp only [perform, Except.bind_eq_ok_iff, Except.pure_eq_ok_iff, Prod.mk.injEq,
        reduceCtorEq, and_false, exists_false] at hReturns

/-- A revoked tenant has a revoked row. -/
theorem perform_tenantRevoked {tenantId : String}
    (hReturns : shop.perform p keyring call = .ok (after, .tenantRevoked tenantId)) :
    ∃ row, after.access.tenant? tenantId = some row ∧ row.state = .revoked := by
  cases call with
  | revokeTenant changed updatedAt utcNow =>
      simp only [perform, Except.bind_eq_ok_iff, Except.pure_eq_ok_iff, Prod.mk.injEq,
        Prod.exists, Event.tenantRevoked.injEq] at hReturns
      obtain ⟨_, _, hRun, rfl, rfl⟩ := hReturns
      obtain ⟨hActive, timestamp, tenants, hRows, rfl⟩ := revokeTenant_ok hRun
      obtain ⟨row, hRow, hState⟩ := active_iff.mp hActive
      have hLookup := tenant?_changed hRows (fun _ => rfl) changed
      rw [hRow, Option.map_some, if_pos ⟨(tenant?_eq_some.mp hRow).2, hState⟩] at hLookup
      exact ⟨_, hLookup, rfl⟩
  | _ =>
      simp only [perform, Except.bind_eq_ok_iff, Except.pure_eq_ok_iff, Prod.mk.injEq,
        reduceCtorEq, and_false, exists_false] at hReturns

/-- An order's token is as it was, or one whose MACs the call takes. -/
theorem perform_token (hReturns : shop.perform p keyring call = .ok (after, event)) {orderId : String}
    {row : OrderBinding} (hRow : after.access.orderBinding? orderId = some row) :
    (∃ old, shop.access.orderBinding? orderId = some old ∧ old.tokenVersion = row.tokenVersion ∧
        old.tenantId = row.tenantId) ∨
      Session.tokenMacs p keyring shop.commerce.environment row.tenantId orderId row.tokenVersion ⊆
        Session.storeMacs p keyring shop call := by
  have hSame : after.access.orderBindings = shop.access.orderBindings →
      ∃ old, shop.access.orderBinding? orderId = some old ∧ old.tokenVersion = row.tokenVersion ∧
        old.tenantId = row.tenantId := by
    intro hBindings
    refine ⟨row, ?_, rfl, rfl⟩
    rw [← hRow]
    unfold orderBinding?
    rw [hBindings]
  cases call with
  | bindOrder tenantId bound quoteId createdAt utcNow =>
      simp only [perform, Except.bind_eq_ok_iff, Except.pure_eq_ok_iff, Prod.mk.injEq,
        Prod.exists] at hReturns
      obtain ⟨_, _, hRun, rfl, rfl⟩ := hReturns
      obtain ⟨-, ⟨_, -, -, -, -, -, -, rfl⟩ | ⟨hNone, bindings, hInsert, -, rfl⟩⟩ :=
        bindOrder_eq_ok.mp hRun
      · exact Or.inl (hSame rfl)
      · have hLookup := (orderBinding?_inserted hInsert orderId).symm.trans hRow
        rw [Option.or_eq_some_iff] at hLookup
        rcases hLookup with hOld | ⟨-, hNew⟩
        · exact Or.inl ⟨row, hOld, rfl, rfl⟩
        · split at hNew
          · next hId =>
              obtain rfl := Option.some.inj hNew
              obtain rfl : bound = orderId := hId
              refine Or.inr ?_
              rw [Session.storeMacs, Session.tokenVersion, hNone]
              exact List.Subset.refl _
          · cases hNew
  | commitRotation ticket =>
      simp only [perform, Except.bind_eq_ok_iff, Except.pure_eq_ok_iff, Prod.mk.injEq,
        Prod.exists] at hReturns
      obtain ⟨_, _, hRun, rfl, rfl⟩ := hReturns
      obtain ⟨old, bindings, hOld, hTenant, -, -, rfl, hRows, rfl⟩ := commitRotation_ok hRun
      have hLookup := (orderBinding?_changed hRows (fun _ => rfl) orderId).symm.trans hRow
      obtain ⟨stored, hStored, rfl⟩ := Option.map_eq_some_iff.mp hLookup
      by_cases hId : stored.orderId = ticket.orderId
      · obtain ⟨-, rfl⟩ := orderBinding?_eq_some.mp hStored
        rw [hId] at hStored ⊢
        obtain rfl := Option.some.inj (hStored.symm.trans hOld)
        refine Or.inr ?_
        rw [if_pos rfl, Session.storeMacs, Session.tokenVersion, hOld, ← hTenant]
        exact List.subset_cons_self _ _
      · rw [if_neg hId]
        exact Or.inl ⟨stored, hStored, rfl, rfl⟩
  | commitRevocation ticket =>
      simp only [perform, Except.bind_eq_ok_iff, Except.pure_eq_ok_iff, Prod.mk.injEq,
        Prod.exists] at hReturns
      obtain ⟨_, _, hRun, rfl, rfl⟩ := hReturns
      obtain ⟨_, _, -, -, -, -, hRows, rfl⟩ := commitRevocation_ok hRun
      have hLookup := (orderBinding?_changed hRows (fun _ => rfl) orderId).symm.trans hRow
      obtain ⟨stored, hStored, rfl⟩ := Option.map_eq_some_iff.mp hLookup
      refine Or.inl ⟨stored, hStored, ?_⟩
      split <;> exact ⟨rfl, rfl⟩
  | publishResult published envelope updatedAt utcNow =>
      simp only [perform, Except.bind_eq_ok_iff, Except.pure_eq_ok_iff, Prod.mk.injEq,
        Prod.exists] at hReturns
      obtain ⟨_, _, hRun, rfl, rfl⟩ := hReturns
      obtain ⟨-, -, -, -, -, _, -, ⟨-, rfl⟩ | ⟨-, _, hRows, rfl⟩⟩ := publishResult_eq_ok.mp hRun
      · exact Or.inl (hSame rfl)
      · have hLookup := (orderBinding?_changed hRows (fun _ => rfl) orderId).symm.trans hRow
        obtain ⟨stored, hStored, rfl⟩ := Option.map_eq_some_iff.mp hLookup
        refine Or.inl ⟨stored, hStored, ?_⟩
        split <;> exact ⟨rfl, rfl⟩
  | commerce call =>
      simp only [perform, Except.bind_eq_ok_iff, Except.pure_eq_ok_iff, Prod.mk.injEq] at hReturns
      obtain ⟨_, -, rfl, rfl⟩ := hReturns
      exact Or.inl (hSame rfl)
  | provisionTenant given drawnId drawn createdAt utcNow =>
      simp only [perform, Except.bind_eq_ok_iff, Except.pure_eq_ok_iff, Prod.mk.injEq,
        Prod.exists] at hReturns
      obtain ⟨_, _, _, hRun, rfl, rfl⟩ := hReturns
      obtain ⟨-, -, _, _, -, rfl⟩ := provisionTenant_ok hRun
      exact Or.inl (hSame rfl)
  | rotateApiKey changed drawn updatedAt utcNow =>
      simp only [perform, Except.bind_eq_ok_iff, Except.pure_eq_ok_iff, Prod.mk.injEq,
        Prod.exists] at hReturns
      obtain ⟨_, _, hRun, rfl, rfl⟩ := hReturns
      obtain ⟨-, -, _, _, -, rfl⟩ := rotateApiKey_ok hRun
      exact Or.inl (hSame rfl)
  | revokeTenant changed updatedAt utcNow =>
      simp only [perform, Except.bind_eq_ok_iff, Except.pure_eq_ok_iff, Prod.mk.injEq,
        Prod.exists] at hReturns
      obtain ⟨_, _, hRun, rfl, rfl⟩ := hReturns
      obtain ⟨-, _, _, -, rfl⟩ := revokeTenant_ok hRun
      exact Or.inl (hSame rfl)
  | bindQuote tenantId quoteId idempotencyKey createdAt utcNow =>
      simp only [perform, Except.bind_eq_ok_iff, Except.pure_eq_ok_iff, Prod.mk.injEq,
        Prod.exists] at hReturns
      obtain ⟨_, _, hRun, rfl, rfl⟩ := hReturns
      obtain ⟨-, -, -, -, -, ⟨_, -, -, -, rfl⟩ | ⟨-, _, -, rfl⟩⟩ := bindQuote_eq_ok.mp hRun
      · exact Or.inl (hSame rfl)
      · exact Or.inl (hSame rfl)

/-- What the write transaction of a change finds and leaves. -/
theorem perform_commit {change : Change}
    (hReturns : shop.perform p keyring change.commit = .ok (after, event)) :
    ∃ row next, shop.access.orderBinding? change.ticket.orderId = some row ∧
      row.tenantId = change.ticket.tenantId ∧ row.tokenState = .active ∧
      deliveryDigest p keyring change.ticket.token = row.tokenDigest ∧
      after.access.orderBinding? change.ticket.orderId = some next ∧ next.tenantId = row.tenantId ∧
      if change.revokes then next.tokenVersion = row.tokenVersion ∧ next.tokenState = .revoked
      else next.tokenVersion = row.tokenVersion + 1 := by
  unfold Change.commit at hReturns
  cases hKind : change.revokes with
  | true =>
      rw [hKind, if_pos rfl] at hReturns
      simp only [perform, Except.bind_eq_ok_iff, Except.pure_eq_ok_iff, Prod.mk.injEq,
        Prod.exists] at hReturns
      obtain ⟨_, _, hRun, rfl, rfl⟩ := hReturns
      obtain ⟨row, _, hRow, hTenant, hState, hDigest, hRows, rfl⟩ := commitRevocation_ok hRun
      have hNext := orderBinding?_changed hRows (fun _ => rfl) change.ticket.orderId
      rw [hRow, Option.map_some, if_pos (orderBinding?_eq_some.mp hRow).2] at hNext
      exact ⟨row, _, hRow, hTenant, hState, hDigest.symm, hNext, rfl, rfl, rfl⟩
  | false =>
      rw [hKind, if_neg (by decide)] at hReturns
      simp only [perform, Except.bind_eq_ok_iff, Except.pure_eq_ok_iff, Prod.mk.injEq,
        Prod.exists] at hReturns
      obtain ⟨_, _, hRun, rfl, rfl⟩ := hReturns
      obtain ⟨row, _, hRow, hTenant, hState, hDigest, -, hRows, rfl⟩ := commitRotation_ok hRun
      have hNext := orderBinding?_changed hRows (fun _ => rfl) change.ticket.orderId
      rw [hRow, Option.map_some, if_pos (orderBinding?_eq_some.mp hRow).2] at hNext
      exact ⟨row, _, hRow, hTenant, hState, hDigest.symm, hNext, rfl, rfl⟩

theorem digestInput_commit (p : Platform) (keyring : Keyring) (shop : Shop) (change : Change) :
    deliveryDigestInput keyring change.ticket.token ∈
      Session.storeMacs p keyring shop change.commit := by
  unfold Change.commit
  split <;> simp [Session.storeMacs]

end Shop

end VouchSpec
